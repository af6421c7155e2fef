import CloudGame.Lib.Run
import CloudGame.Lib.Since
import CloudGame.Portal.GameAudioPacket
import CloudGame.Worker.AudioSender
import Mathlib.Order.Lattice

/-!
# Audio playback of the portal (`arcade-portal/src/hooks/webrtc/audioPlayback.js`)

The controller makes an `AudioContext` when it may, resumes it, and starts every packet where the
one before it ends.  Contexts are numbered as they are made; the browser changes their states and
lets their clocks go on, and a promise of `resume` may be kept when another context has taken over.

Times are doubles in the source.  Here they are any linear order, and the sums of the source are
functions of which only their order is known (`AudioPlatform.Paced`).

* `playback_paced`: a chunk starts at most a second after it came, and not before the end of the
  chunk before it unless more than a second was waiting; and while a resumption is in progress, some
  promise or the `finally` of one is pending.
-/

namespace CloudGame.Portal

open CloudGame.Lib
open CloudGame.Worker (samplesOf)

inductive ContextState where
  | suspended
  | running
  | interrupted
  | closed
deriving DecidableEq

/-- What the browser provides. -/
structure AudioPlatform (τ N φ : Type) where
  ofInt : Int → N
  /-- The bytes of `atob`. -/
  atob : String → Option (List UInt8)
  /-- `Math.max(-1, Math.min(1, sample / 32767))` -/
  level : Int16 → φ
  /-- The duration of a buffer of so many frames at a rate, or `createBuffer` throws. -/
  duration : Nat → N → Option τ
  zero : τ
  /-- `now + 0.02` -/
  lead : τ → τ
  /-- `now - 0.25` -/
  behind : τ → τ
  /-- `now + 1.0` -/
  ahead : τ → τ
  /-- `startTime + duration` -/
  endOf : τ → τ → τ

/-- What is known of the order of sums. -/
structure AudioPlatform.Paced {τ N φ : Type} [LinearOrder τ] (pf : AudioPlatform τ N φ) :
    Prop where
  behind_le : ∀ now, pf.behind now ≤ now
  le_lead : ∀ now, now ≤ pf.lead now
  lead_le_ahead : ∀ now, pf.lead now ≤ pf.ahead now

/-- A buffer that was started on a context. -/
structure AudioChunk (τ N φ : Type) where
  context : Nat
  /-- The time of the context when the chunk came. -/
  now : τ
  startTime : τ
  endTime : τ
  sampleRate : N
  channelData : List (List φ)

/-- A chunk was started, or `nextAudioStartTime` was set back to zero. -/
inductive PlaybackEntry (τ N φ : Type) where
  | played (chunk : AudioChunk τ N φ)
  | rebased

structure AudioPlayback (τ N φ : Type) where
  /-- How many contexts have been made. -/
  created : Nat
  state : Nat → ContextState
  currentTime : Nat → τ
  audioContext : Option Nat
  nextAudioStartTime : τ
  audioSampleRate : N
  audioResumeInProgress : Bool
  /-- The contexts whose promise of `resume` is pending. -/
  resuming : List Nat
  /-- How many promises are kept or broken, and have not come to `finally`. -/
  settling : Nat
  audioActivated : Bool
  audioStatus : String
  /-- The texts that `handleAudioMessage` awaits, oldest first. -/
  decoding : List String
  log : List (PlaybackEntry τ N φ)

def ContextState.name : ContextState → String
  | .suspended => "suspended"
  | .running => "running"
  | .interrupted => "interrupted"
  | .closed => "closed"

namespace AudioPlayback

variable {τ N φ : Type} (pf : AudioPlatform τ N φ)

def init : AudioPlayback τ N φ where
  created := 0
  state _ := .suspended
  currentTime _ := pf.zero
  audioContext := none
  nextAudioStartTime := pf.zero
  audioSampleRate := pf.ofInt 48000
  audioResumeInProgress := false
  resuming := []
  settling := 0
  audioActivated := false
  audioStatus := "unknown"
  decoding := []
  log := []

/-- The context of the controller, unless it is closed. -/
def openContext (s : AudioPlayback τ N φ) : Option Nat :=
  s.audioContext.filter fun k => s.state k ≠ .closed

/-- The rest of `requestAudioPlayback`, with a context that is not closed. -/
def resumePlayback (s : AudioPlayback τ N φ) (k : Nat) (allowCreate : Bool) :
    AudioPlayback τ N φ :=
  if s.state k = .running then { s with audioResumeInProgress := false, audioStatus := "running" }
  else if !allowCreate then { s with audioStatus := (s.state k).name }
  else if s.audioResumeInProgress then s
  else { s with
    audioStatus := (s.state k).name
    audioResumeInProgress := true
    resuming := s.resuming ++ [k] }

/-- `made` is the state of the context if one can be made. -/
def requestAudioPlayback (s : AudioPlayback τ N φ) (allowCreate fromUserGesture : Bool)
    (made : Option ContextState) : AudioPlayback τ N φ :=
  let s := { s with audioActivated := s.audioActivated || fromUserGesture }
  match s.openContext with
  | some k => s.resumePlayback k allowCreate
  | none =>
    if !allowCreate then { s with audioStatus := "blocked" }
    else
      match made with
      | none => { s with audioContext := none, audioStatus := "unavailable" }
      | some state =>
        resumePlayback { s with
          created := s.created + 1
          state := Function.update s.state s.created state
          currentTime := Function.update s.currentTime s.created pf.zero
          audioContext := some s.created
          nextAudioStartTime := pf.zero
          audioResumeInProgress := false
          log := .rebased :: s.log } s.created allowCreate

def resumeAudioFromGesture (s : AudioPlayback τ N φ) (made : Option ContextState) :
    AudioPlayback τ N φ := s.requestAudioPlayback pf true true made

def resumeAudioFromForeground (s : AudioPlayback τ N φ) (made : Option ContextState) :
    AudioPlayback τ N φ := s.requestAudioPlayback pf s.audioActivated false made

/-- The levels of one of the interleaved channels. -/
def channelOut (channels channel : Nat) (samples : List Int16) : List φ :=
  (List.range (samples.length / channels)).map fun i =>
    pf.level (samples.getD (i * channels + channel) 0)

variable [LinearOrder τ]

/-- The end of `playAudioChunk`. -/
def schedule (s : AudioPlayback τ N φ) (k : Nat) (sampleRate : N) (channelData : List (List φ))
    (duration : τ) : AudioPlayback τ N φ :=
  let now := s.currentTime k
  let next :=
    if s.nextAudioStartTime < pf.behind now ∨ pf.ahead now < s.nextAudioStartTime then now
    else s.nextAudioStartTime
  let startTime := max (pf.lead now) next
  let endTime := pf.endOf startTime duration
  { s with
    nextAudioStartTime := endTime
    log := .played ⟨k, now, startTime, endTime, sampleRate, channelData⟩ :: s.log }

def playAudioChunk (s : AudioPlayback τ N φ) (encoded : String) (sampleRate : N)
    (channels : Int) : AudioPlayback τ N φ :=
  match s.audioContext with
  | none => s
  | some k =>
    if encoded = "" ∨ s.state k ≠ .running then s
    else
      let decodedChannels := if 0 < channels ∧ channels ≤ 2 then channels.toNat else 2
      match pf.atob encoded with
      | none => s
      | some bytes =>
        if bytes.length = 0 ∨ bytes.length % 2 ≠ 0 ∨ bytes.length % (decodedChannels * 2) ≠ 0 then s
        else
          let samples := samplesOf bytes
          match pf.duration (samples.length / decodedChannels) sampleRate with
          | none => s
          | some duration =>
            s.schedule pf k sampleRate
              ((List.range decodedChannels).map fun c => channelOut pf decodedChannels c samples)
              duration

/-- `handleAudioMessage` up to its `await`. -/
def handleAudioMessage (s : AudioPlayback τ N φ) (raw : String) : AudioPlayback τ N φ :=
  let s := s.requestAudioPlayback pf false false none
  { s with decoding := s.decoding ++ [raw] }

/-- `handleAudioMessage` behind its `await`. -/
def handleDecoded (s : AudioPlayback τ N φ) (raw : String) : AudioPlayback τ N φ :=
  match parseGameAudioPacket pf.ofInt raw s.audioSampleRate with
  | none => s
  | some packet =>
    playAudioChunk pf { s with audioSampleRate := packet.sampleRate } packet.encoded
      packet.sampleRate packet.channels

def cleanup (s : AudioPlayback τ N φ) : AudioPlayback τ N φ := { s with audioContext := none }

end AudioPlayback

inductive AudioAction (τ : Type) where
  /-- A key, a click or a touch. -/
  | gesture (made : Option ContextState)
  /-- The page is visible again. -/
  | foreground (made : Option ContextState)
  /-- The input loop, the channel when it opens, or the button of the page. -/
  | request (allowCreate fromUserGesture : Bool) (made : Option ContextState)
  | message (raw : String)
  /-- What a message awaits has come. -/
  | decoded
  /-- A promise of `resume` is kept or broken. -/
  | resumed (context : Nat) (kept : Bool)
  /-- `finally` -/
  | settled
  | stateChange (context : Nat) (state : ContextState)
  | tick (context : Nat) (time : τ)
  | cleanup

namespace AudioPlayback

variable {τ N φ : Type} [LinearOrder τ] (pf : AudioPlatform τ N φ)

def step (s : AudioPlayback τ N φ) : AudioAction τ → Option (AudioPlayback τ N φ)
  | .gesture made => some (s.resumeAudioFromGesture pf made)
  | .foreground made => some (s.resumeAudioFromForeground pf made)
  | .request allowCreate fromUserGesture made =>
    some (s.requestAudioPlayback pf allowCreate fromUserGesture made)
  | .message raw => some (s.handleAudioMessage pf raw)
  | .decoded =>
    match s.decoding with
    | [] => none
    | raw :: rest => some (handleDecoded pf { s with decoding := rest } raw)
  | .resumed k kept =>
    if k ∈ s.resuming then
      let s := { s with resuming := s.resuming.erase k, settling := s.settling + 1 }
      some (if kept then { s with nextAudioStartTime := pf.zero, log := .rebased :: s.log } else s)
    else none
  | .settled =>
    if s.settling = 0 then none
    else some { s with
      settling := s.settling - 1
      audioStatus := (s.audioContext.map fun k => (s.state k).name).getD "unknown"
      audioResumeInProgress := false }
  | .stateChange k state =>
    if k < s.created ∧ s.state k ≠ .closed then
      some { s with state := Function.update s.state k state, audioStatus := state.name }
    else none
  | .tick k time =>
    if s.currentTime k ≤ time then
      some { s with currentTime := Function.update s.currentTime k time }
    else none
  | .cleanup => some s.cleanup

end AudioPlayback

/-! ## What is started when -/

/-- The chunks that were started, newest first. -/
def AudioPlayback.played {τ N φ : Type} (s : AudioPlayback τ N φ) : List (AudioChunk τ N φ) :=
  s.log.filterMap fun
    | .played c => some c
    | .rebased => none

/-- When an entry was made, with those before it. -/
def StartsInTime {τ N φ : Type} [LinearOrder τ] (pf : AudioPlatform τ N φ)
    (entry : PlaybackEntry τ N φ) (before : List (PlaybackEntry τ N φ)) : Prop :=
  match entry with
  | .rebased => True
  | .played c => pf.lead c.now ≤ c.startTime ∧ c.startTime ≤ pf.ahead c.now ∧
      ∀ c', before.head? = some (.played c') →
        c'.context = c.context ∧ (c'.endTime ≤ c.startTime ∨ pf.ahead c.now < c'.endTime)

/-- Where the next chunk starts, as the log has it. -/
def nextOf {τ N φ : Type} (pf : AudioPlatform τ N φ) : List (PlaybackEntry τ N φ) → τ
  | .played c :: _ => c.endTime
  | _ => pf.zero

structure PlaybackInv {τ N φ : Type} [LinearOrder τ] (pf : AudioPlatform τ N φ)
    (s : AudioPlayback τ N φ) : Prop where
  next : s.nextAudioStartTime = nextOf pf s.log
  context : ∀ c, s.log.head? = some (.played c) → ∀ k, s.audioContext = some k → c.context = k
  inTime : Throughout (StartsInTime pf) s.log
  resuming : s.audioResumeInProgress = true → s.resuming ≠ [] ∨ 0 < s.settling

section Steps

variable {τ N φ : Type} [LinearOrder τ] {pf : AudioPlatform τ N φ} {s s' : AudioPlayback τ N φ}

/-- The invariant speaks of these fields only. -/
theorem PlaybackInv.same (hi : PlaybackInv pf s) (hlog : s'.log = s.log)
    (hnext : s'.nextAudioStartTime = s.nextAudioStartTime)
    (hcontext : s'.audioContext = s.audioContext ∨ s'.audioContext = none)
    (hresuming : s'.audioResumeInProgress = true → s'.resuming ≠ [] ∨ 0 < s'.settling) :
    PlaybackInv pf s' := by
  refine ⟨by rw [hnext, hlog, hi.next], ?_, hlog ▸ hi.inTime, hresuming⟩
  rw [hlog]
  intro c hlast k hk
  rcases hcontext with hsame | hnone
  · exact hi.context c hlast k (hsame ▸ hk)
  · rw [hnone] at hk
    cases hk

theorem playbackInv_rebase (hi : PlaybackInv pf s) (hlog : s'.log = .rebased :: s.log)
    (hnext : s'.nextAudioStartTime = pf.zero)
    (hresuming : s'.audioResumeInProgress = true → s'.resuming ≠ [] ∨ 0 < s'.settling) :
    PlaybackInv pf s' := by
  refine ⟨by rw [hnext, hlog]; rfl, ?_, ?_, hresuming⟩
  · rw [hlog]
    rintro c ⟨⟩
  · rw [hlog]
    exact throughout_cons.mpr ⟨trivial, hi.inTime⟩

theorem playbackInv_schedule (hpf : pf.Paced) (hi : PlaybackInv pf s) {k : Nat}
    (hk : s.audioContext = some k) (sampleRate : N) (channelData : List (List φ)) (duration : τ) :
    PlaybackInv pf (s.schedule pf k sampleRate channelData duration) := by
  refine ⟨rfl, ?_, throughout_cons.mpr ⟨⟨le_max_left _ _, ?_, ?_⟩, hi.inTime⟩, hi.resuming⟩
  · rintro c ⟨⟩ k' hk'
    exact Option.some.inj (hk.symm.trans hk')
  · refine max_le (hpf.lead_le_ahead _) ?_
    split
    · exact (hpf.le_lead _).trans (hpf.lead_le_ahead _)
    · next hnear => exact le_of_not_gt (not_or.mp hnear).2
  · intro c' hlast
    refine ⟨hi.context c' hlast k hk, ?_⟩
    have hnext : s.nextAudioStartTime = c'.endTime := by
      rw [hi.next]
      cases hlog : s.log with
      | nil =>
        rw [hlog] at hlast
        cases hlast
      | cons entry log =>
        rw [hlog] at hlast
        cases hlast
        rfl
    show c'.endTime ≤ max _ _ ∨ _
    rw [hnext]
    split
    · next hfar =>
      rcases hfar with hlate | hfar
      · refine Or.inl (le_max_of_le_left ?_)
        exact (hlate.le.trans (hpf.behind_le _)).trans (hpf.le_lead _)
      · exact Or.inr hfar
    · exact Or.inl (le_max_right _ _)

/-- A chunk is not played, or started on the context, which is running. -/
theorem playAudioChunk_cases (pf : AudioPlatform τ N φ) (s : AudioPlayback τ N φ)
    (encoded : String) (sampleRate : N) (channels : Int) :
    s.playAudioChunk pf encoded sampleRate channels = s ∨
      ∃ k bytes duration decodedChannels, s.audioContext = some k ∧ s.state k = .running ∧
        pf.atob encoded = some bytes ∧
        decodedChannels = (if 0 < channels ∧ channels ≤ 2 then channels.toNat else 2) ∧
        s.playAudioChunk pf encoded sampleRate channels =
          s.schedule pf k sampleRate ((List.range decodedChannels).map fun c =>
            AudioPlayback.channelOut pf decodedChannels c (samplesOf bytes)) duration := by
  unfold AudioPlayback.playAudioChunk
  cases hcontext : s.audioContext with
  | none => exact Or.inl rfl
  | some k =>
    dsimp only
    split
    · exact Or.inl rfl
    · next hplays =>
      cases hbytes : pf.atob encoded with
      | none => exact Or.inl rfl
      | some bytes =>
        dsimp only
        generalize (if 0 < channels ∧ channels ≤ 2 then channels.toNat else 2) = decodedChannels
        split
        · exact Or.inl rfl
        · split
          · exact Or.inl rfl
          · next duration _ =>
            exact Or.inr ⟨k, bytes, duration, _, rfl, not_not.mp (not_or.mp hplays).2, rfl, rfl,
              rfl⟩

theorem playbackInv_decoded (hpf : pf.Paced) (hi : PlaybackInv pf s) (raw : String) :
    PlaybackInv pf (s.handleDecoded pf raw) := by
  unfold AudioPlayback.handleDecoded
  split
  · exact hi
  · next packet _ =>
    have hrate : PlaybackInv pf { s with audioSampleRate := packet.sampleRate } :=
      hi.same rfl rfl (Or.inl rfl) hi.resuming
    rcases playAudioChunk_cases pf { s with audioSampleRate := packet.sampleRate } packet.encoded
      packet.sampleRate packet.channels with hsame | ⟨k, _, _, _, hk, -, -, -, hplayed⟩
    · rw [hsame]
      exact hrate
    · rw [hplayed]
      exact playbackInv_schedule hpf hrate hk _ _ _

theorem playbackInv_resume (hi : PlaybackInv pf s) (k : Nat) (allowCreate : Bool) :
    PlaybackInv pf (s.resumePlayback k allowCreate) := by
  unfold AudioPlayback.resumePlayback
  split
  · exact hi.same rfl rfl (Or.inl rfl) nofun
  · split
    · exact hi.same rfl rfl (Or.inl rfl) hi.resuming
    · split
      · exact hi
      · exact hi.same rfl rfl (Or.inl rfl) fun _ => Or.inl (by simp)

theorem playbackInv_request (hi : PlaybackInv pf s) (allowCreate fromUserGesture : Bool)
    (made : Option ContextState) :
    PlaybackInv pf (s.requestAudioPlayback pf allowCreate fromUserGesture made) := by
  unfold AudioPlayback.requestAudioPlayback
  have hactivated : PlaybackInv pf
      { s with audioActivated := s.audioActivated || fromUserGesture } :=
    hi.same rfl rfl (Or.inl rfl) hi.resuming
  dsimp only
  split
  · exact playbackInv_resume hactivated _ _
  · split
    · exact hactivated.same rfl rfl (Or.inl rfl) hi.resuming
    · split
      · exact hactivated.same rfl rfl (Or.inr rfl) hi.resuming
      · refine playbackInv_resume ?_ _ _
        exact playbackInv_rebase hactivated rfl rfl nofun

theorem playbackInv_step (hpf : pf.Paced) (hi : PlaybackInv pf s) {a : AudioAction τ}
    (hs : s.step pf a = some s') : PlaybackInv pf s' := by
  cases a with
  | gesture made =>
    cases hs
    exact playbackInv_request hi true true made
  | foreground made =>
    cases hs
    exact playbackInv_request hi s.audioActivated false made
  | request allowCreate fromUserGesture made =>
    cases hs
    exact playbackInv_request hi allowCreate fromUserGesture made
  | message raw =>
    cases hs
    have hrequest := playbackInv_request hi false false none
    exact hrequest.same rfl rfl (Or.inl rfl) hrequest.resuming
  | decoded =>
    simp only [AudioPlayback.step] at hs
    split at hs
    · cases hs
    · next raw rest _ =>
      cases hs
      have hrest : PlaybackInv pf { s with decoding := rest } :=
        hi.same rfl rfl (Or.inl rfl) hi.resuming
      exact playbackInv_decoded hpf hrest raw
  | resumed k kept =>
    simp only [AudioPlayback.step] at hs
    split at hs
    · cases hs
      split
      · exact playbackInv_rebase hi rfl rfl fun _ => Or.inr (Nat.succ_pos _)
      · exact hi.same rfl rfl (Or.inl rfl) fun _ => Or.inr (Nat.succ_pos _)
    · cases hs
  | settled =>
    simp only [AudioPlayback.step] at hs
    split at hs
    · cases hs
    · cases hs
      exact hi.same rfl rfl (Or.inl rfl) nofun
  | stateChange k state =>
    simp only [AudioPlayback.step] at hs
    split at hs
    · cases hs
      exact hi.same rfl rfl (Or.inl rfl) hi.resuming
    · cases hs
  | tick k time =>
    simp only [AudioPlayback.step] at hs
    split at hs
    · cases hs
      exact hi.same rfl rfl (Or.inl rfl) hi.resuming
    · cases hs
  | cleanup =>
    cases hs
    exact hi.same rfl rfl (Or.inr rfl) hi.resuming

end Steps

/-! ## Every run -/

/-- **Chunks are paced.**  Whatever the browser and the messages do: a chunk starts a little after
it came and at most a second later; when the entry before it is a chunk, that was on the same
context, and it has ended by then or more than a second was still waiting.  And while a resumption
is in progress, some promise of a `resume`, or the `finally` of one, is pending. -/
theorem playback_paced {τ N φ : Type} [LinearOrder τ] {pf : AudioPlatform τ N φ} (hpf : pf.Paced)
    {as : List (AudioAction τ)} {s : AudioPlayback τ N φ}
    (h : Run (AudioPlayback.step pf) (AudioPlayback.init pf) as s) :
    (∀ newer c older, s.log = newer ++ .played c :: older →
      pf.lead c.now ≤ c.startTime ∧ c.startTime ≤ pf.ahead c.now ∧
      ∀ c', older.head? = some (.played c') →
        c'.context = c.context ∧ (c'.endTime ≤ c.startTime ∨ pf.ahead c.now < c'.endTime)) ∧
    (s.audioResumeInProgress = true → s.resuming ≠ [] ∨ 0 < s.settling) := by
  have hinit : PlaybackInv pf (AudioPlayback.init pf) :=
    ⟨rfl, nofun, throughout_nil _, nofun⟩
  have hi : PlaybackInv pf s := h.invariant hinit fun _ _ _ hi _ hs => playbackInv_step hpf hi hs
  exact ⟨fun newer c older hlog => hi.inTime newer (.played c) older hlog, hi.resuming⟩

/-- Times in milliseconds, and levels that are the samples. -/
def millisecondPlatform : AudioPlatform Nat Int Int16 where
  ofInt n := n
  atob := Base64Codec.standard.decode
  level sample := sample
  duration frames sampleRate := some (1000 * frames / sampleRate.toNat)
  zero := 0
  lead now := now + 20
  behind now := now - 250
  ahead now := now + 1000
  endOf startTime duration := startTime + duration

theorem millisecondPlatform_paced : millisecondPlatform.Paced where
  behind_le now := Nat.sub_le now 250
  le_lead now := Nat.le_add_right now 20
  lead_le_ahead now := Nat.add_le_add_left (by decide) now

/-- Two packets of a pair of samples at 50 Hz, one soon after the other. -/
def twoPackets : List (AudioAction Nat) :=
  [.gesture (some .running), .tick 0 5,
    .message (audioPayload 50 (Base64Codec.standard.encode [1, 0, 2, 0])), .decoded, .tick 0 9,
    .message (audioPayload 50 (Base64Codec.standard.encode [3, 0, 4, 0])), .decoded]

/-- The second packet starts where the first ends, which was to start after twenty milliseconds. -/
theorem playback_paced_two :
    ∃ s : AudioPlayback Nat Int Int16,
      s.played.map AudioChunk.startTime = [45, 25] ∧
        ∀ newer c older, s.log = newer ++ .played c :: older → c.startTime ≤ c.now + 1000 := by
  have heval : (exec (AudioPlayback.step millisecondPlatform)
      (AudioPlayback.init millisecondPlatform) twoPackets).map
        (fun s => s.played.map AudioChunk.startTime) = some [45, 25] := by decide +kernel
  obtain ⟨s, hexec, hstarts⟩ := Option.map_eq_some_iff.mp heval
  have hpaced := playback_paced millisecondPlatform_paced (execWhen_run hexec).run
  exact ⟨s, hstarts, fun newer c older hlog => (hpaced.1 newer c older hlog).2.1⟩

end CloudGame.Portal
