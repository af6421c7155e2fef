import CloudGame.Portal.AudioPlayback
import CloudGame.Worker.FrameChannel

/-!
# From the core to the speakers

The core calls the audio callbacks, which copy its samples into pooled buffers and put them into a
channel without bound; the audio sender cuts them into packets; the packets go to the page one by
one, on a data channel that keeps no order and repeats nothing; and the page plays what it
understands.  A packet may be lost anywhere: the session is not registered, its channel is not open
or has too much waiting, or the network drops it.

`taken` are the frames the sender has handled, `delivered` the numbers of the packets that the page
has not decoded yet and `decoded` those of the others, newest first; no step reads them.

* `played_from_core`: what the page plays are twenty milliseconds of what the core produced, each of
  them at most once, the left channel on the left; and the sender holds back less than that.
-/

namespace CloudGame.Portal

open CloudGame.Lib
open CloudGame.Worker (AudioSender BufferPool Buffer copyFromSlice Side withSides requiredSamples)

/-- The pool of audio buffers. -/
abbrev AudioPool : Type := BufferPool Int16 (max 16 1) (max 256000 1)

structure AudioWiring (τ N φ : Type) where
  pf : AudioPlatform τ N φ
  base64 : Base64Codec
  sampleRate : UInt32

structure AudioPath (τ N φ : Type) where
  pool : AudioPool
  /-- The oldest frame first. -/
  channel : List (Buffer Int16)
  sender : AudioSender
  /-- The packets on their way to the page, with their numbers. -/
  flying : List (Nat × String)
  page : AudioPlayback τ N φ
  /-- What the core has produced. -/
  produced : List (Int16 × Side)
  taken : List (List Int16)
  delivered : List Nat
  decoded : List Nat

inductive AudioPathAction (τ : Type) where
  /-- `audio_sample_callback`; `capacity` is what the allocator gives a buffer that grows. -/
  | sample (left right : Int16) (capacity : Nat)
  /-- `audio_batch_callback` -/
  | batch (frames : List (Int16 × Int16)) (capacity : Nat)
  | sender
  | deliver (i : Nat)
  | lose (i : Nat)
  /-- Anything that happens to the page but a message. -/
  | page (a : AudioAction τ)

/-- The samples of stereo frames, as the core lays them out. -/
def interleave (frames : List (Int16 × Int16)) : List Int16 := frames.flatMap fun f => [f.1, f.2]

namespace AudioPath

variable {τ N φ : Type} (w : AudioWiring τ N φ)

def init : AudioPath τ N φ where
  pool := BufferPool.new
  channel := []
  sender := ⟨[], []⟩
  flying := []
  page := AudioPlayback.init w.pf
  produced := []
  taken := []
  delivered := []
  decoded := []

/-- A buffer of the pool with these samples is sent. -/
def emitAudio (s : AudioPath τ N φ) (samples : List Int16) (capacity : Nat) :
    Option (AudioPath τ N φ) :=
  let (buffer, pool) := s.pool.take
  if max buffer.capacity samples.length ≤ capacity then
    some { s with
      pool := pool
      channel := s.channel ++ [⟨copyFromSlice (buffer.resize samples.length 0) samples, capacity⟩] }
  else none

/-- `with_user_audio_batch`; the worker sets no callback of its own. -/
def audioBatch (s : AudioPath τ N φ) (samples : List Int16) (capacity : Nat) :
    Option (AudioPath τ N φ) :=
  let frameCount := samples.length / 2
  if frameCount = 0 then some s
  else s.emitAudio (samples.take (saturatingMul frameCount 2)) capacity

/-- The sender handles the oldest frame and puts its buffer back; what it broadcasts is on its
way. -/
def sendFrame (s : AudioPath τ N φ) (frame : Buffer Int16) (rest : List (Buffer Int16)) :
    AudioPath τ N φ :=
  let sender := s.sender.handleFrame w.base64 w.sampleRate frame.items
  let count := s.sender.broadcast.length
  { s with
    pool := s.pool.put frame
    channel := rest
    sender := sender
    flying := s.flying ++ (sender.broadcast.drop count).zipIdx.map fun e =>
      (count + e.2, audioPayload w.sampleRate.toNat e.1)
    taken := s.taken ++ [frame.items] }

variable [LinearOrder τ]

/-- The samples of a batch are in memory: they are not as many as a pointer can tell apart. -/
def step (s : AudioPath τ N φ) : AudioPathAction τ → Option (AudioPath τ N φ)
  | .sample left right capacity =>
    (s.emitAudio [left, right] capacity).map fun s' =>
      { s' with produced := s.produced ++ withSides [left, right] }
  | .batch frames capacity =>
    if frames.length < 2 ^ 62 then
      (s.audioBatch (interleave frames) capacity).map fun s' =>
        { s' with produced := s.produced ++ withSides (interleave frames) }
    else none
  | .sender =>
    match s.channel with
    | [] => none
    | frame :: rest => some (s.sendFrame w frame rest)
  | .deliver i =>
    match s.flying[i]? with
    | none => none
    | some (k, text) => some { s with
        flying := s.flying.eraseIdx i
        page := s.page.handleAudioMessage w.pf text
        delivered := s.delivered ++ [k] }
  | .lose i => if i < s.flying.length then some { s with flying := s.flying.eraseIdx i } else none
  | .page (.message _) => none
  | .page .decoded =>
    match s.delivered with
    | [] => none
    | k :: rest => (s.page.step w.pf .decoded).map fun page =>
        { s with page := page, delivered := rest, decoded := k :: s.decoded }
  | .page a => (s.page.step w.pf a).map fun page => { s with page := page }

end AudioPath

/-! ## Frames -/

theorem length_interleave (frames : List (Int16 × Int16)) :
    (interleave frames).length = 2 * frames.length := by
  induction frames with
  | nil => rfl
  | cons f frames ih =>
    rw [interleave, List.flatMap_cons, List.length_append, List.length_cons]
    show 2 + (interleave frames).length = _
    rw [ih, List.length_cons]
    omega

section Emit

variable {τ N φ : Type} {s s' : AudioPath τ N φ} {capacity : Nat}

/-- What is sent is what was to be copied, whatever the buffer held. -/
theorem emitAudio_eq {samples : List Int16} (h : s.emitAudio samples capacity = some s') :
    ∃ pool, s' = { s with pool := pool, channel := s.channel ++ [⟨samples, capacity⟩] } := by
  simp only [AudioPath.emitAudio] at h
  split at h
  · cases h
    exact ⟨_, by rw [CloudGame.Worker.copyFromSlice_resize]⟩
  · cases h

/-- A batch is sent as it is, if there is anything to send. -/
theorem audioBatch_eq {frames : List (Int16 × Int16)} (hfew : frames.length < 2 ^ 62)
    (h : s.audioBatch (interleave frames) capacity = some s') :
    (frames = [] ∧ s' = s) ∨ (frames ≠ [] ∧ ∃ pool, s' = { s with
      pool := pool, channel := s.channel ++ [⟨interleave frames, capacity⟩] }) := by
  simp only [AudioPath.audioBatch, length_interleave] at h
  split at h
  · next hnone =>
    cases h
    exact Or.inl ⟨List.length_eq_zero_iff.mp (by omega), rfl⟩
  · next hsome =>
    have hall : (interleave frames).take (saturatingMul (2 * frames.length / 2) 2) =
        interleave frames := by
      refine List.take_of_length_le ?_
      rw [length_interleave, saturatingMul]
      omega
    rw [hall] at h
    refine Or.inr ⟨?_, emitAudio_eq h⟩
    rintro rfl
    exact hsome rfl

end Emit

/-! ## Packets -/

section Packets

variable {base64 : Base64Codec}

/-- The text is the base64 of samples. -/
def Encodes (base64 : Base64Codec) (encoded : String) (samples : List Int16) : Prop :=
  samples ≠ [] ∧ encoded = base64.encode (samples.flatMap CloudGame.Worker.toLeBytes)

/-- The loop broadcasts further packets, none of them empty. -/
theorem cutPackets_broadcast {required : Nat} (hpos : 0 < required) (fuel : Nat) :
    ∀ s : AudioSender, ∃ more : List String,
      (s.cutPackets base64 required fuel).broadcast = s.broadcast ++ more ∧
      ∀ encoded ∈ more, ∃ samples, Encodes base64 encoded samples := by
  induction fuel with
  | zero =>
    intro s
    exact ⟨[], (List.append_nil _).symm, nofun⟩
  | succ fuel ih =>
    intro s
    rw [AudioSender.cutPackets]
    split
    · next hlen =>
      obtain ⟨more, hmore, hencoded⟩ := ih ⟨(CloudGame.Worker.popSamples required s.pending).2,
        s.broadcast ++ [base64.encode (CloudGame.Worker.popSamples required s.pending).1]⟩
      refine ⟨_ :: more, by rw [hmore, List.append_assoc, List.singleton_append], ?_⟩
      intro encoded hmem
      rcases List.mem_cons.mp hmem with rfl | hmem
      · rw [CloudGame.Worker.popSamples_eq]
        refine ⟨s.pending.take required, ?_, rfl⟩
        intro hnil
        have hlength := congrArg List.length hnil
        rw [List.length_take, List.length_nil] at hlength
        omega
      · exact hencoded encoded hmem
    · exact ⟨[], (List.append_nil _).symm, nofun⟩

theorem handleFrame_broadcast (sampleRate : UInt32) (s : AudioSender) (samples : List Int16) :
    ∃ more : List String,
      (s.handleFrame base64 sampleRate samples).broadcast = s.broadcast ++ more ∧
      ∀ encoded ∈ more, ∃ samples, Encodes base64 encoded samples := by
  have hnone : ∃ more : List String, s.broadcast = s.broadcast ++ more ∧
      ∀ encoded ∈ more, ∃ samples, Encodes base64 encoded samples :=
    ⟨[], (List.append_nil _).symm, nofun⟩
  unfold AudioSender.handleFrame
  split
  · exact hnone
  · split
    · exact hnone
    · dsimp only
      split
      · exact hnone
      · next hrequired =>
        exact cutPackets_broadcast (Nat.pos_of_ne_zero hrequired) _
          { s with pending := s.pending ++ samples }

end Packets

/-! ## What the page plays -/

section Page

variable {τ N φ : Type} {pf : AudioPlatform τ N φ} {s s' : AudioPlayback τ N φ}

theorem resumePlayback_played (s : AudioPlayback τ N φ) (k : Nat) (allowCreate : Bool) :
    (s.resumePlayback k allowCreate).played = s.played ∧
      (s.resumePlayback k allowCreate).decoding = s.decoding := by
  unfold AudioPlayback.resumePlayback
  split
  · exact ⟨rfl, rfl⟩
  · split
    · exact ⟨rfl, rfl⟩
    · split <;> exact ⟨rfl, rfl⟩

theorem requestAudioPlayback_played (s : AudioPlayback τ N φ) (allowCreate fromUserGesture : Bool)
    (made : Option ContextState) :
    (s.requestAudioPlayback pf allowCreate fromUserGesture made).played = s.played ∧
      (s.requestAudioPlayback pf allowCreate fromUserGesture made).decoding = s.decoding := by
  unfold AudioPlayback.requestAudioPlayback
  dsimp only
  split
  · exact resumePlayback_played _ _ _
  · split
    · exact ⟨rfl, rfl⟩
    · split
      · exact ⟨rfl, rfl⟩
      · exact resumePlayback_played _ _ _

variable [LinearOrder τ]

/-- What happens to the page, but messages and what they await, plays nothing. -/
theorem step_played {a : AudioAction τ} (hmessage : ∀ raw, a ≠ .message raw)
    (hdecoded : a ≠ .decoded) (hs : s.step pf a = some s') :
    s'.played = s.played ∧ s'.decoding = s.decoding := by
  cases a with
  | gesture made =>
    cases hs
    exact requestAudioPlayback_played s true true made
  | foreground made =>
    cases hs
    exact requestAudioPlayback_played s s.audioActivated false made
  | request allowCreate fromUserGesture made =>
    cases hs
    exact requestAudioPlayback_played s allowCreate fromUserGesture made
  | message raw => exact absurd rfl (hmessage raw)
  | decoded => exact absurd rfl hdecoded
  | resumed k kept =>
    simp only [AudioPlayback.step] at hs
    split at hs
    · cases hs
      cases kept <;> exact ⟨rfl, rfl⟩
    · cases hs
  | settled =>
    simp only [AudioPlayback.step] at hs
    split at hs
    · cases hs
    · cases hs
      exact ⟨rfl, rfl⟩
  | stateChange k state =>
    simp only [AudioPlayback.step] at hs
    split at hs
    · cases hs
      exact ⟨rfl, rfl⟩
    · cases hs
  | tick k time =>
    simp only [AudioPlayback.step] at hs
    split at hs
    · cases hs
      exact ⟨rfl, rfl⟩
    · cases hs
  | cleanup =>
    cases hs
    exact ⟨rfl, rfl⟩

end Page

/-- The libraries do what they are documented to do, and the core has a sample rate. -/
structure AudioWiring.Lawful {τ N φ : Type} (w : AudioWiring τ N φ) : Prop where
  base64 : w.base64.Lawful
  atob : ∀ bytes, w.pf.atob (w.base64.encode bytes) = some bytes
  rate : 1 ≤ w.sampleRate.toNat

/-- The chunk has the samples of a packet, left and right apart. -/
def AudioChunk.Holds {τ N φ : Type} (w : AudioWiring τ N φ) (c : AudioChunk τ N φ)
    (samples : List Int16) : Prop :=
  c.sampleRate = w.pf.ofInt w.sampleRate.toNat ∧
    c.channelData = [AudioPlayback.channelOut w.pf 2 0 samples,
      AudioPlayback.channelOut w.pf 2 1 samples]

section Decoded

variable {τ N φ : Type} [LinearOrder τ] {w : AudioWiring τ N φ}

/-- A packet of the worker is not played, or played as it was encoded. -/
theorem handleDecoded_played (hw : w.Lawful) {encoded : String} {samples : List Int16}
    (hencodes : Encodes w.base64 encoded samples) (s : AudioPlayback τ N φ) :
    (s.handleDecoded w.pf (audioPayload w.sampleRate.toNat encoded)).decoding = s.decoding ∧
      ((s.handleDecoded w.pf (audioPayload w.sampleRate.toNat encoded)).played = s.played ∨
        ∃ c : AudioChunk τ N φ, c.Holds w samples ∧
          (s.handleDecoded w.pf (audioPayload w.sampleRate.toNat encoded)).played =
            c :: s.played) := by
  obtain ⟨hne, rfl⟩ := hencodes
  have hbytes : samples.flatMap CloudGame.Worker.toLeBytes ≠ [] := by
    cases samples with
    | nil => exact absurd rfl hne
    | cons sample samples => exact List.cons_ne_nil _ _
  have hbar : '|' ∉ (w.base64.encode (samples.flatMap CloudGame.Worker.toLeBytes)).toList :=
    fun hbar => absurd (hw.base64.encode_chars _ _ hbar) (by decide)
  have hrate : w.sampleRate.toNat < 2 ^ 53 :=
    lt_trans w.sampleRate.toNat_lt (by decide)
  have hperm : (workerFields w.sampleRate.toNat).Perm (workerFields w.sampleRate.toNat ++ []) := by
    rw [List.append_nil]
  have hparse : parseGameAudioPacket w.pf.ofInt (packetText (workerFields w.sampleRate.toNat)
      (w.base64.encode (samples.flatMap CloudGame.Worker.toLeBytes))) s.audioSampleRate = some _ :=
    parse_packetText hw.rate hrate hperm (by simp) (hw.base64.encode_ne_empty hbytes) hbar _
  rw [AudioPlayback.handleDecoded, audioPayload_eq, hparse]
  dsimp only
  rcases playAudioChunk_cases w.pf { s with audioSampleRate := w.pf.ofInt w.sampleRate.toNat }
    (w.base64.encode (samples.flatMap CloudGame.Worker.toLeBytes))
    (w.pf.ofInt w.sampleRate.toNat) AudioProto.channels with
    hsame | ⟨k, bytes, duration, channels, -, -, hatob, rfl, hplayed⟩
  · rw [hsame]
    exact ⟨rfl, Or.inl rfl⟩
  · rw [hplayed]
    rw [hw.atob] at hatob
    cases hatob
    refine ⟨rfl, Or.inr ⟨_, ⟨rfl, ?_⟩, rfl⟩⟩
    rw [CloudGame.Worker.samplesOf_toLeBytes]
    rfl

end Decoded

/-! ## The invariant -/

section Invariant

variable {τ N φ : Type} {w : AudioWiring τ N φ}

/-- The text is that of the packet with this number. -/
def AudioPath.IsPacket (w : AudioWiring τ N φ) (s : AudioPath τ N φ) (text : String) (k : Nat) :
    Prop :=
  ∃ encoded samples, s.sender.broadcast[k]? = some encoded ∧ Encodes w.base64 encoded samples ∧
    text = audioPayload w.sampleRate.toNat encoded

/-- The chunk has the samples of the packet with this number. -/
def AudioPath.PlaysPacket (w : AudioWiring τ N φ) (s : AudioPath τ N φ) (c : AudioChunk τ N φ)
    (k : Nat) : Prop :=
  ∃ encoded samples, s.sender.broadcast[k]? = some encoded ∧ Encodes w.base64 encoded samples ∧
    c.Holds w samples

/-- The numbers of the packets that were not lost. -/
def AudioPath.numbers (s : AudioPath τ N φ) : List Nat :=
  s.flying.map Prod.fst ++ s.delivered ++ s.decoded

/-- The sender holds what the frames it took leave; the core's samples are in these frames and in
the channel; every text on the way, and every chunk, is that of a packet with its number, and no
number is in two places. -/
structure AudioPathInv (w : AudioWiring τ N φ) (s : AudioPath τ N φ) : Prop where
  sender : s.sender = AudioSender.after w.base64 w.sampleRate s.taken
  produced : s.produced = (s.taken ++ s.channel.map Buffer.items).flatMap withSides
  whole : ∀ samples ∈ s.taken ++ s.channel.map Buffer.items,
    samples ≠ [] ∧ samples.length % 2 = 0
  encoded : ∀ encoded ∈ s.sender.broadcast, ∃ samples, Encodes w.base64 encoded samples
  flying : ∀ f ∈ s.flying, s.IsPacket w f.2 f.1
  awaited : List.Forall₂ (s.IsPacket w) s.page.decoding s.delivered
  played : ∃ ks, ks.Sublist s.decoded ∧ List.Forall₂ (s.PlaysPacket w) s.page.played ks
  once : s.numbers.Nodup
  numbered : ∀ k ∈ s.numbers, k < s.sender.broadcast.length

variable {s s' : AudioPath τ N φ}

/-- What the core emits goes to the end of the channel. -/
theorem AudioPathInv.emit (hi : AudioPathInv w s) {samples : List Int16} (pool : AudioPool)
    (capacity : Nat) (hne : samples ≠ []) (heven : samples.length % 2 = 0) :
    AudioPathInv w { s with
      pool := pool
      channel := s.channel ++ [⟨samples, capacity⟩]
      produced := s.produced ++ withSides samples } := by
  have hframes : s.taken ++ (s.channel ++ [(⟨samples, capacity⟩ : Buffer Int16)]).map
      Buffer.items = (s.taken ++ s.channel.map Buffer.items) ++ [samples] := by
    rw [List.map_append, List.append_assoc]
    rfl
  refine ⟨hi.sender, ?_, ?_, hi.encoded, hi.flying, hi.awaited, hi.played, hi.once, hi.numbered⟩
  · show _ = (s.taken ++ (s.channel ++ [_]).map Buffer.items).flatMap withSides
    rw [hframes, List.flatMap_append, ← hi.produced, List.flatMap_singleton]
  · intro x hx
    replace hx : x ∈ s.taken ++ (s.channel ++ [(⟨samples, capacity⟩ : Buffer Int16)]).map
      Buffer.items := hx
    rw [hframes] at hx
    rcases List.mem_append.mp hx with hold | hnew
    · exact hi.whole x hold
    · rw [List.mem_singleton.mp hnew]
      exact ⟨hne, heven⟩

/-- The sender takes the oldest frame. -/
theorem AudioPathInv.sendFrame (hi : AudioPathInv w s) {frame : Buffer Int16}
    {rest : List (Buffer Int16)} (hchannel : s.channel = frame :: rest) :
    AudioPathInv w (s.sendFrame w frame rest) := by
  obtain ⟨more, hmore, hencoded⟩ : ∃ more : List String,
      (s.sender.handleFrame w.base64 w.sampleRate frame.items).broadcast =
        s.sender.broadcast ++ more ∧
      ∀ encoded ∈ more, ∃ samples, Encodes w.base64 encoded samples :=
    handleFrame_broadcast w.sampleRate s.sender frame.items
  have hsame : ∀ (k : Nat) (encoded : String), s.sender.broadcast[k]? = some encoded →
      (s.sendFrame w frame rest).sender.broadcast[k]? = some encoded := by
    intro k encoded hk
    show (s.sender.handleFrame _ _ _).broadcast[k]? = _
    rw [hmore, List.getElem?_append_left (List.getElem?_eq_some_iff.mp hk).1, hk]
  have hpacket : ∀ text k, s.IsPacket w text k → (s.sendFrame w frame rest).IsPacket w text k := by
    rintro text k ⟨encoded, samples, hk, hrest⟩
    exact ⟨encoded, samples, hsame k encoded hk, hrest⟩
  have hnew : (s.sendFrame w frame rest).flying = s.flying ++ more.zipIdx.map fun e =>
      (s.sender.broadcast.length + e.2, audioPayload w.sampleRate.toNat e.1) := by
    show s.flying ++ ((s.sender.handleFrame _ _ _).broadcast.drop _).zipIdx.map _ = _
    rw [hmore, List.drop_left]
  have hframes : (s.taken ++ [frame.items]) ++ rest.map Buffer.items =
      s.taken ++ s.channel.map Buffer.items := by
    rw [hchannel, List.append_assoc]
    rfl
  have hperm : (s.sendFrame w frame rest).numbers.Perm
      (s.numbers ++ (List.range more.length).map (s.sender.broadcast.length + ·)) := by
    have hnumbers : (s.sendFrame w frame rest).flying.map Prod.fst =
        s.flying.map Prod.fst ++ (List.range more.length).map (s.sender.broadcast.length + ·) := by
      rw [hnew, List.map_append, List.map_map, List.range_eq_range', ← List.zipIdx_map_snd 0 more,
        List.map_map]
      rfl
    rw [AudioPath.numbers, AudioPath.numbers, hnumbers]
    simp only [List.append_assoc]
    refine List.Perm.append_left _ (List.perm_append_comm.trans ?_)
    rw [List.append_assoc]
    exact List.Perm.refl _
  have hfresh : ∀ k ∈ (List.range more.length).map (s.sender.broadcast.length + ·),
      s.sender.broadcast.length ≤ k ∧ k < s.sender.broadcast.length + more.length := by
    intro k hk
    obtain ⟨i, hmem, rfl⟩ := List.mem_map.mp hk
    have := List.mem_range.mp hmem
    omega
  have hbroadcast : (s.sendFrame w frame rest).sender.broadcast = s.sender.broadcast ++ more :=
    hmore
  refine ⟨?_, ?_, ?_, ?_, ?_, hi.awaited.imp hpacket, ?_, ?_, ?_⟩
  · show s.sender.handleFrame _ _ _ = AudioSender.after _ _ (s.taken ++ [frame.items])
    rw [hi.sender, AudioSender.after, AudioSender.after, List.foldl_append]
    rfl
  · show s.produced = (s.taken ++ [frame.items] ++ rest.map Buffer.items).flatMap withSides
    rw [hframes, hi.produced]
  · intro samples hmem
    refine hi.whole samples ?_
    rw [← hframes]
    exact hmem
  · rw [hbroadcast]
    intro encoded hmem
    rcases List.mem_append.mp hmem with hold | hlater
    · exact hi.encoded encoded hold
    · exact hencoded encoded hlater
  · rw [hnew]
    intro f hf
    rcases List.mem_append.mp hf with hold | hlater
    · exact hpacket f.2 f.1 (hi.flying f hold)
    · obtain ⟨⟨encoded, i⟩, hmem, rfl⟩ := List.mem_map.mp hlater
      have hi' : more[i]? = some encoded := List.mem_zipIdx_iff_getElem?.mp hmem
      obtain ⟨samples, hsamples⟩ := hencoded encoded (List.mem_of_getElem? hi')
      refine ⟨encoded, samples, ?_, hsamples, rfl⟩
      rw [hbroadcast, List.getElem?_append_right (Nat.le_add_right _ _), Nat.add_sub_cancel_left]
      exact hi'
  · obtain ⟨ks, hsub, hplayed⟩ := hi.played
    refine ⟨ks, hsub, hplayed.imp ?_⟩
    rintro c k ⟨encoded, samples, hk, hrest⟩
    exact ⟨encoded, samples, hsame k encoded hk, hrest⟩
  · rw [hperm.nodup_iff]
    refine List.nodup_append'.mpr ⟨hi.once, ?_, ?_⟩
    · exact List.nodup_range.map fun i j hij => Nat.add_left_cancel hij
    · intro k hk hlater
      have := hi.numbered k hk
      have := (hfresh k hlater).1
      omega
  · intro k hk
    rw [hbroadcast, List.length_append]
    rcases List.mem_append.mp (hperm.mem_iff.mp hk) with hold | hlater
    · exact Nat.lt_add_right _ (hi.numbered k hold)
    · exact (hfresh k hlater).2

/-- The page has received something, or lost something on the way: the numbers that are left are
some of those there were. -/
theorem AudioPathInv.fewer (hi : AudioPathInv w s) (hsender : s'.sender = s.sender)
    (hproduced : s'.produced = s.produced) (htaken : s'.taken = s.taken)
    (hchannel : s'.channel = s.channel) (hflying : ∀ f ∈ s'.flying, s.IsPacket w f.2 f.1)
    (hawaited : List.Forall₂ (s.IsPacket w) s'.page.decoding s'.delivered)
    (hplayed : ∃ ks, ks.Sublist s'.decoded ∧ List.Forall₂ (s.PlaysPacket w) s'.page.played ks)
    (hnumbers : s'.numbers.Subperm s.numbers) : AudioPathInv w s' := by
  have hpacket : s'.IsPacket w = s.IsPacket w := by
    funext text k
    rw [AudioPath.IsPacket, AudioPath.IsPacket, hsender]
  have hplays : s'.PlaysPacket w = s.PlaysPacket w := by
    funext c k
    rw [AudioPath.PlaysPacket, AudioPath.PlaysPacket, hsender]
  refine ⟨?_, ?_, ?_, ?_, ?_, ?_, ?_, ?_, ?_⟩
  · rw [hsender, htaken]
    exact hi.sender
  · rw [hproduced, htaken, hchannel]
    exact hi.produced
  · rw [htaken, hchannel]
    exact hi.whole
  · rw [hsender]
    exact hi.encoded
  · rw [hpacket]
    exact hflying
  · rw [hpacket]
    exact hawaited
  · rw [hplays]
    exact hplayed
  · obtain ⟨ks, hperm, hsub⟩ := hnumbers
    exact hperm.nodup_iff.mp (hi.once.sublist hsub)
  · intro k hk
    rw [hsender]
    exact hi.numbered k (hnumbers.subset hk)

theorem AudioPathInv.deliver (hi : AudioPathInv w s) {i k : Nat} {text : String}
    (hflying : s.flying[i]? = some (k, text)) :
    AudioPathInv w { s with
      flying := s.flying.eraseIdx i
      page := s.page.handleAudioMessage w.pf text
      delivered := s.delivered ++ [k] } := by
  obtain ⟨hplayed, hdecoding⟩ :
      (s.page.requestAudioPlayback w.pf false false none).played = s.page.played ∧
        (s.page.requestAudioPlayback w.pf false false none).decoding = s.page.decoding :=
    requestAudioPlayback_played s.page false false none
  refine hi.fewer rfl rfl rfl rfl ?_ ?_ ?_ ?_
  · intro f hf
    exact hi.flying f ((List.eraseIdx_sublist _ i).subset hf)
  · show List.Forall₂ _ ((s.page.requestAudioPlayback w.pf false false none).decoding ++ [text]) _
    rw [hdecoding]
    have hpacket : s.IsPacket w text k := hi.flying (k, text) (List.mem_of_getElem? hflying)
    exact List.rel_append hi.awaited (List.Forall₂.cons hpacket List.Forall₂.nil)
  · obtain ⟨ks, hsub, hchunks⟩ := hi.played
    refine ⟨ks, hsub, ?_⟩
    show List.Forall₂ _ (s.page.requestAudioPlayback w.pf false false none).played ks
    rw [hplayed]
    exact hchunks
  · have hfirst : (k :: (s.flying.eraseIdx i).map Prod.fst).Perm (s.flying.map Prod.fst) := by
      obtain ⟨hlt, hget⟩ := List.getElem?_eq_some_iff.mp hflying
      have hperm := (List.getElem_cons_eraseIdx_perm hlt).map Prod.fst
      rw [hget] at hperm
      exact hperm
    have hnumbers : ((s.flying.eraseIdx i).map Prod.fst ++ (s.delivered ++ [k]) ++ s.decoded).Perm
        s.numbers := by
      rw [← List.append_assoc, List.append_assoc _ [k]]
      exact List.perm_middle.trans ((hfirst.append_right s.delivered).append_right s.decoded)
    exact hnumbers.subperm

theorem AudioPathInv.lose (hi : AudioPathInv w s) (i : Nat) :
    AudioPathInv w { s with flying := s.flying.eraseIdx i } := by
  refine hi.fewer rfl rfl rfl rfl ?_ hi.awaited hi.played ?_
  · intro f hf
    exact hi.flying f ((List.eraseIdx_sublist _ i).subset hf)
  · have hsub : ((s.flying.eraseIdx i).map Prod.fst).Sublist (s.flying.map Prod.fst) :=
      (List.eraseIdx_sublist _ i).map Prod.fst
    exact ((hsub.append_right s.delivered).append_right s.decoded).subperm

/-- Nothing has been sent. -/
theorem audioPathInv_init : AudioPathInv w (AudioPath.init w) where
  sender := rfl
  produced := rfl
  whole := nofun
  encoded := nofun
  flying := nofun
  awaited := List.Forall₂.nil
  played := ⟨[], List.Sublist.refl _, List.Forall₂.nil⟩
  once := List.nodup_nil
  numbered := nofun

variable [LinearOrder τ]

/-- What the page awaited has come. -/
theorem AudioPathInv.decoded (hw : w.Lawful) (hi : AudioPathInv w s) {text : String}
    {texts : List String} {k : Nat} {rest : List Nat} (htexts : s.page.decoding = text :: texts)
    (hdelivered : s.delivered = k :: rest) :
    AudioPathInv w { s with
      page := AudioPlayback.handleDecoded w.pf { s.page with decoding := texts } text
      delivered := rest
      decoded := k :: s.decoded } := by
  have hawaited := hi.awaited
  rw [htexts, hdelivered] at hawaited
  obtain ⟨⟨encoded, samples, hk, hencodes, rfl⟩, hrest⟩ := List.forall₂_cons.mp hawaited
  obtain ⟨hdecoding, hchunks⟩ :=
    handleDecoded_played hw hencodes { s.page with decoding := texts }
  obtain ⟨ks, hsub, hplayed⟩ := hi.played
  refine hi.fewer rfl rfl rfl rfl hi.flying ?_ ?_ ?_
  · show List.Forall₂ _ (AudioPlayback.handleDecoded _ _ _).decoding rest
    rw [hdecoding]
    exact hrest
  · rcases hchunks with hsame | ⟨c, hholds, hcons⟩
    · refine ⟨ks, hsub.cons k, ?_⟩
      show List.Forall₂ _ (AudioPlayback.handleDecoded _ _ _).played ks
      rw [hsame]
      exact hplayed
    · refine ⟨k :: ks, hsub.cons_cons k, ?_⟩
      show List.Forall₂ _ (AudioPlayback.handleDecoded _ _ _).played (k :: ks)
      rw [hcons]
      exact List.Forall₂.cons ⟨encoded, samples, hk, hencodes, hholds⟩ hplayed
  · have hnumbers : (s.flying.map Prod.fst ++ rest ++ k :: s.decoded).Perm s.numbers := by
      rw [AudioPath.numbers, hdelivered]
      exact List.perm_middle.trans (List.perm_middle.symm.append_right s.decoded)
    exact hnumbers.subperm

/-- The page does anything else. -/
theorem AudioPathInv.page (hi : AudioPathInv w s) {a : AudioAction τ} {page : AudioPlayback τ N φ}
    (hmessage : ∀ raw, a ≠ .message raw) (hdecoded : a ≠ .decoded)
    (hs : s.page.step w.pf a = some page) : AudioPathInv w { s with page := page } := by
  obtain ⟨hplayed, hdecoding⟩ := step_played hmessage hdecoded hs
  refine hi.fewer rfl rfl rfl rfl hi.flying ?_ ?_ (List.Subperm.refl _)
  · show List.Forall₂ _ page.decoding s.delivered
    rw [hdecoding]
    exact hi.awaited
  · obtain ⟨ks, hsub, hchunks⟩ := hi.played
    refine ⟨ks, hsub, ?_⟩
    show List.Forall₂ _ page.played ks
    rw [hplayed]
    exact hchunks

theorem step_page {a : AudioAction τ} (hmessage : ∀ raw, a ≠ .message raw)
    (hdecoded : a ≠ .decoded) :
    s.step w (.page a) = (s.page.step w.pf a).map fun page => { s with page := page } := by
  cases a with
  | message raw => exact absurd rfl (hmessage raw)
  | decoded => exact absurd rfl hdecoded
  | _ => rfl

theorem audioPathInv_step (hw : w.Lawful) (hi : AudioPathInv w s) {a : AudioPathAction τ}
    (hs : s.step w a = some s') : AudioPathInv w s' := by
  cases a with
  | sample left right capacity =>
    obtain ⟨s₁, hemit, rfl⟩ := Option.map_eq_some_iff.mp hs
    obtain ⟨pool, rfl⟩ := emitAudio_eq hemit
    exact hi.emit pool capacity (List.cons_ne_nil _ _) (Nat.mod_self 2)
  | batch frames capacity =>
    simp only [AudioPath.step] at hs
    split at hs
    · next hfew =>
      obtain ⟨s₁, hbatch, rfl⟩ := Option.map_eq_some_iff.mp hs
      rcases audioBatch_eq hfew hbatch with ⟨rfl, rfl⟩ | ⟨hne, pool, rfl⟩
      · have hnothing : s₁.produced ++ withSides (interleave []) = s₁.produced :=
          List.append_nil _
        rw [hnothing]
        exact hi
      · refine hi.emit pool capacity ?_ ?_
        · intro hnil
          have hlength := congrArg List.length hnil
          rw [length_interleave, List.length_nil] at hlength
          exact hne (List.length_eq_zero_iff.mp (by omega))
        · rw [length_interleave]
          omega
    · cases hs
  | sender =>
    simp only [AudioPath.step] at hs
    split at hs
    · cases hs
    · next frame rest hchannel =>
      cases hs
      exact hi.sendFrame hchannel
  | deliver i =>
    simp only [AudioPath.step] at hs
    split at hs
    · cases hs
    · next k text hflying =>
      cases hs
      exact hi.deliver hflying
  | lose i =>
    simp only [AudioPath.step] at hs
    split at hs
    · cases hs
      exact hi.lose i
    · cases hs
  | page a =>
    by_cases hmessage : ∃ raw, a = .message raw
    · obtain ⟨raw, rfl⟩ := hmessage
      cases hs
    · by_cases hdecoded : a = .decoded
      · subst hdecoded
        simp only [AudioPath.step] at hs
        split at hs
        · cases hs
        · next k rest hdelivered =>
          obtain ⟨page, hpage, rfl⟩ := Option.map_eq_some_iff.mp hs
          simp only [AudioPlayback.step] at hpage
          split at hpage
          · cases hpage
          · next text texts htexts =>
            cases hpage
            exact hi.decoded hw htexts hdelivered
      · rw [step_page (not_exists.mp hmessage) hdecoded] at hs
        obtain ⟨page, hpage, rfl⟩ := Option.map_eq_some_iff.mp hs
        exact hi.page (not_exists.mp hmessage) hdecoded hpage

end Invariant

/-! ## Every run -/

/-- The samples of one side. -/
def ofSide (side : Side) (samples : List (Int16 × Side)) : List Int16 :=
  (samples.filter fun e => e.2 = side).map Prod.fst

section Sides

open CloudGame.Worker (Interleaved)

variable {τ N φ : Type} (pf : AudioPlatform τ N φ)

theorem channelOut_cons_cons (left right : Int16) (samples : List Int16) :
    AudioPlayback.channelOut pf 2 0 (left :: right :: samples) =
        pf.level left :: AudioPlayback.channelOut pf 2 0 samples ∧
      AudioPlayback.channelOut pf 2 1 (left :: right :: samples) =
        pf.level right :: AudioPlayback.channelOut pf 2 1 samples := by
  have hframes : (left :: right :: samples).length / 2 = samples.length / 2 + 1 := by
    rw [List.length_cons, List.length_cons]
    omega
  have hnext : ∀ i c, (left :: right :: samples).getD (Nat.succ i * 2 + c) 0 =
      samples.getD (i * 2 + c) 0 := by
    intro i c
    have hindex : Nat.succ i * 2 + c = (i * 2 + c) + 2 := by omega
    rw [hindex]
    rfl
  simp only [AudioPlayback.channelOut, hframes, List.range_succ_eq_map, List.map_cons,
    List.map_map, Function.comp_def, hnext]
  exact ⟨rfl, rfl⟩

/-- What goes to the two channels of a buffer is left and right. -/
theorem channelOut_eq {samples : List (Int16 × Side)} (h : Interleaved samples)
    (heven : samples.length % 2 = 0) :
    AudioPlayback.channelOut pf 2 0 (samples.map Prod.fst) =
        (ofSide .left samples).map pf.level ∧
      AudioPlayback.channelOut pf 2 1 (samples.map Prod.fst) =
        (ofSide .right samples).map pf.level := by
  induction samples using List.twoStepInduction with
  | nil => exact ⟨rfl, rfl⟩
  | singleton e => cases heven
  | cons_cons e e' samples ih =>
    obtain ⟨left, side⟩ := e
    obtain ⟨right, side'⟩ := e'
    obtain rfl : side = .left := by simpa using h 0
    obtain rfl : side' = .right := by simpa using h 1
    have hrest : Interleaved samples := h.drop (n := 2) rfl
    have heven' : samples.length % 2 = 0 := by
      rw [List.length_cons, List.length_cons] at heven
      omega
    obtain ⟨hleft, hright⟩ := ih hrest heven'
    obtain ⟨hfirst, hsecond⟩ := channelOut_cons_cons pf left right (samples.map Prod.fst)
    rw [List.map_cons, List.map_cons, hfirst, hsecond, hleft, hright]
    exact ⟨rfl, rfl⟩

/-- The packets that were cut off are interleaved as what they were cut from. -/
theorem packets_interleaved {packets : List (List (Int16 × Side))}
    {waiting : List (Int16 × Side)} (h : Interleaved (packets.flatten ++ waiting))
    (heven : ∀ p ∈ packets, p.length % 2 = 0) : ∀ p ∈ packets, Interleaved p := by
  induction packets with
  | nil => exact nofun
  | cons first packets ih =>
    rw [List.flatten_cons, List.append_assoc] at h
    intro p hp
    rcases List.mem_cons.mp hp with rfl | hp
    · have htake := h.take p.length
      rw [List.take_left] at htake
      exact htake
    · refine ih ?_ (fun p hp => heven p (List.mem_cons_of_mem _ hp)) p hp
      have hdrop := h.drop (heven first List.mem_cons_self)
      rw [List.drop_left] at hdrop
      exact hdrop

end Sides

section Cut

open CloudGame.Worker (Cut cut_after decodePacket decodePacket_encode received
  Interleaved received_interleaved requiredSamples_eq)

variable {τ N φ : Type} {w : AudioWiring τ N φ} {s : AudioPath τ N φ}

/-- No frame is skipped: the core produces pairs. -/
theorem AudioPathInv.received_taken (hi : AudioPathInv w s) :
    received s.taken = s.taken.flatMap withSides := by
  rw [received, List.filter_eq_self.mpr]
  intro samples hmem
  exact decide_eq_true (hi.whole samples (List.mem_append_left _ hmem))

/-- A chunk with the samples of a packet that was broadcast has those of the packet that was cut
off at its place. -/
theorem AudioPath.PlaysPacket.packet (hw : w.Lawful) {size : Nat}
    {samples waiting : List (Int16 × Side)} {packets : List (List (Int16 × Side))}
    (hcut : Cut w.base64 size samples s.sender packets waiting) {c : AudioChunk τ N φ} {k : Nat}
    (h : s.PlaysPacket w c k) : ∃ p, packets[k]? = some p ∧ c.Holds w (p.map Prod.fst) := by
  obtain ⟨encoded, content, hk, ⟨-, rfl⟩, hholds⟩ := h
  have hdecoded := congrArg (·[k]?) hcut.decoded
  simp only [List.getElem?_map, hk, Option.map_some, decodePacket_encode hw.base64] at hdecoded
  obtain ⟨p, hp, hcontent⟩ := Option.map_eq_some_iff.mp hdecoded.symm
  exact ⟨p, hp, Option.some.inj hcontent ▸ hholds⟩

variable [LinearOrder τ]

/-- **What is heard is what the core produced.**  Whatever the core, the network, the browser and
the player do: the samples of the core, each with its side, are those of the packets, one after the
other, with fewer than a packet and what is in the channel behind them; a packet is twenty
milliseconds; and what the page has started are packets, no packet twice, each at the rate of the
core and with left and right on their own channels. -/
theorem played_from_core (hw : w.Lawful) {as : List (AudioPathAction τ)}
    (h : Run (AudioPath.step w) (AudioPath.init w) as s) :
    ∃ (packets : List (List (Int16 × Side))) (waiting : List (Int16 × Side)),
      s.produced =
        packets.flatten ++ waiting ++ (s.channel.map Buffer.items).flatMap withSides ∧
      (∀ p ∈ packets, p.length = 2 * max 1 (divCeil w.sampleRate.toNat 50)) ∧
      waiting.length < 2 * max 1 (divCeil w.sampleRate.toNat 50) ∧
      ∃ ks : List Nat, ks.Nodup ∧ List.Forall₂ (fun c k => ∃ p, packets[k]? = some p ∧
        c.sampleRate = w.pf.ofInt w.sampleRate.toNat ∧
        c.channelData = [(ofSide .left p).map w.pf.level, (ofSide .right p).map w.pf.level])
          s.page.played ks := by
  have hi : AudioPathInv w s :=
    h.invariant audioPathInv_init fun _ _ _ hi _ hs => audioPathInv_step hw hi hs
  obtain ⟨packets, waiting, hcut, hshort⟩ := cut_after hw.base64 w.sampleRate s.taken
  rw [← hi.sender, requiredSamples_eq] at hcut hshort
  have hsizes : ∀ p ∈ packets, p.length = 2 * max 1 (divCeil w.sampleRate.toNat 50) :=
    fun p hp => (hcut.sizes p hp).1
  have hsides : ∀ p ∈ packets, Interleaved p := by
    refine packets_interleaved (hcut.split ▸ received_interleaved s.taken) fun p hp => ?_
    rw [hsizes p hp]
    exact Nat.mul_mod_right 2 _
  refine ⟨packets, waiting, ?_, hsizes, ?_, ?_⟩
  · rw [hi.produced, List.flatMap_append, ← hi.received_taken, ← hcut.split]
  · rw [← hcut.pending, List.length_map] at hshort
    exact hshort
  · obtain ⟨ks, hsub, hplayed⟩ := hi.played
    have hnodup : s.decoded.Nodup := (List.nodup_append.mp hi.once).2.1
    refine ⟨ks, hnodup.sublist hsub, hplayed.imp fun c k hplays => ?_⟩
    obtain ⟨p, hp, hrate, hchannels⟩ := hplays.packet hw hcut
    have hmem : p ∈ packets := List.mem_of_getElem? hp
    have heven : p.length % 2 = 0 := by
      rw [hsizes p hmem]
      exact Nat.mul_mod_right 2 _
    obtain ⟨hleft, hright⟩ := channelOut_eq w.pf (hsides p hmem) heven
    refine ⟨p, hp, hrate, ?_⟩
    rw [hchannels, hleft, hright]

/-- A packet is a pair of samples. -/
def pairWiring : AudioWiring Nat Int Int16 where
  pf := millisecondPlatform
  base64 := Base64Codec.standard
  sampleRate := 50

theorem pairWiring_lawful : pairWiring.Lawful where
  base64 := Base64Codec.standard_lawful
  atob := Base64Codec.standard_lawful.decode_encode
  rate := by decide

/-- Of three packets the second one is lost, and the third one comes before the first. -/
def overtaken : List (AudioPathAction Nat) :=
  [.page (.gesture (some .running)), .sample 1 2 2, .batch [(3, 4), (5, 6)] 4, .sender, .sender,
    .lose 1, .deliver 1, .page .decoded, .deliver 0, .page .decoded]

theorem played_from_core_overtaken :
    ∃ (s : AudioPath Nat Int Int16) (packets : List (List (Int16 × Side))) (ks : List Nat),
      s.page.played.map AudioChunk.channelData = [[[1], [2]], [[5], [6]]] ∧ ks.Nodup ∧
        (∀ p ∈ packets, p.length = 2) ∧
        List.Forall₂ (fun c k => ∃ p, packets[k]? = some p ∧
          c.channelData = [ofSide .left p, ofSide .right p]) s.page.played ks := by
  have heval : (exec (AudioPath.step pairWiring) (AudioPath.init pairWiring) overtaken).map
      (fun s => s.page.played.map AudioChunk.channelData) = some [[[1], [2]], [[5], [6]]] := by
    decide +kernel
  obtain ⟨s, hexec, hchunks⟩ := Option.map_eq_some_iff.mp heval
  obtain ⟨packets, -, -, hsizes, -, ks, hnodup, hplayed⟩ :=
    played_from_core pairWiring_lawful (execWhen_run hexec).run
  refine ⟨s, packets, ks, hchunks, hnodup, hsizes, hplayed.imp ?_⟩
  rintro c k ⟨p, hp, -, hchannels⟩
  refine ⟨p, hp, ?_⟩
  rw [hchannels]
  exact congrArg₂ (fun left right => [left, right]) (List.map_id _) (List.map_id _)

end Cut

end CloudGame.Portal
