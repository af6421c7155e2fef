import CloudGame.Lib.Base64
import CloudGame.Lib.JsText

/-!
# Audio packets (`arcade-portal/src/hooks/webrtc/gameAudioPacket.js`, `arcade-worker/src/room.rs`)

`audioPayload` is the text the worker sends for a frame of audio and `parseGameAudioPacket` reads
it: the kind, fields that are told by how they begin, and base64 of the samples, all between bars.
`ofInt` makes a number of the portal from an integer.

* `audio_round_trip`: what the worker sends is read back, and the order of the fields and further
  fields make no difference.
-/

namespace CloudGame.Portal

open CloudGame.Lib

namespace AudioProto

def kind : String := "audio"
def version : Nat := 1
def channels : Nat := 2

end AudioProto

/-! ## The worker -/

/-- The text of `Room::broadcast_audio_frame`. -/
def audioPayload (sampleRate : Nat) (encoded : String) : String :=
  AudioProto.kind ++ "|v=" ++ toString AudioProto.version ++ "|sr=" ++ toString sampleRate ++
    "|ch=" ++ toString AudioProto.channels ++ "|" ++ encoded

/-! ## The portal -/

structure GameAudioPacket (N : Type) where
  sampleRate : N
  channels : Int
  encoded : String
deriving DecidableEq

variable {N : Type} (ofInt : Int → N)

def parseLegacyAudioPacket (raw : String) (fallbackSampleRate : N) : Option (GameAudioPacket N) :=
  if Js.startsWith raw "audio-pcm16le|" then
    match (Js.split (Js.remove raw "audio-pcm16le|") '|').take 2 with
    | [rate, encoded] =>
      if encoded = "" then none
      else
        let sampleRate :=
          match Js.parseInt (Js.remove rate "sr=") with
          | some parsedRate => if 0 < parsedRate then ofInt parsedRate else fallbackSampleRate
          | none => fallbackSampleRate
        some ⟨sampleRate, AudioProto.channels, encoded⟩
    | _ => none
  else none

/-- What the loop over the fields has read. -/
structure PacketFields (N : Type) where
  version : Option Int
  sampleRate : N
  channels : Int

/-- The body of the loop over the fields. -/
def readField (s : PacketFields N) (field : String) : PacketFields N :=
  if Js.startsWith field "v=" then { s with version := Js.parseInt (Js.remove field "v=") }
  else if Js.startsWith field "sr=" then
    match Js.parseInt (Js.remove field "sr=") with
    | some parsed => if 0 < parsed then { s with sampleRate := ofInt parsed } else s
    | none => s
  else if Js.startsWith field "ch=" then
    match Js.parseInt (Js.remove field "ch=") with
    | some parsed => if 0 < parsed then { s with channels := parsed } else s
    | none => s
  else s

def parseGameAudioPacket (raw : String) (fallbackSampleRate : N) : Option (GameAudioPacket N) :=
  if raw = "" then none
  else if Js.startsWith raw (AudioProto.kind ++ "|") then
    let parts := Js.split raw '|'
    if parts.length < 5 then none
    else
      let payload := parts.getLast?.getD ""
      if payload = "" then none
      else
        let s := parts.tail.dropLast.foldl (readField ofInt)
          ⟨none, fallbackSampleRate, AudioProto.channels⟩
        if s.version ≠ some AudioProto.version then none
        else some ⟨s.sampleRate, s.channels, payload⟩
  else parseLegacyAudioPacket ofInt raw fallbackSampleRate

/-! ## Fields -/

/-- The fields of the worker, in its order. -/
def workerFields (sampleRate : Nat) : List String :=
  ["v=" ++ toString AudioProto.version, "sr=" ++ toString sampleRate,
    "ch=" ++ toString AudioProto.channels]

/-- A field that the portal does not know. -/
structure Unknown (field : String) : Prop where
  bar : '|' ∉ field.toList
  version : Js.startsWith field "v=" = false
  sampleRate : Js.startsWith field "sr=" = false
  channels : Js.startsWith field "ch=" = false

/-- The kind, the fields and the payload, between bars. -/
def packetText (fields : List String) (payload : String) : String :=
  "|".intercalate (AudioProto.kind :: (fields ++ [payload]))

theorem audioPayload_eq (sampleRate : Nat) (encoded : String) :
    audioPayload sampleRate encoded = packetText (workerFields sampleRate) encoded := by
  apply String.toList_inj.mp
  simp [audioPayload, packetText, workerFields, String.intercalate_cons_cons]

section Fields

variable {ofInt} {sampleRate : Nat}

theorem readField_version (s : PacketFields N) :
    readField ofInt s ("v=" ++ toString AudioProto.version) =
      { s with version := some AudioProto.version } := by
  unfold readField
  rw [if_pos (Js.startsWith_append _ _), Js.remove_append (by decide),
    Js.parseInt_toString (by decide)]

/-- A text that begins with another character begins with no such field. -/
theorem startsWith_eq_false {c d : Char} {cs ds : List Char} {field pre : String}
    (hfield : field.toList = c :: cs) (hpre : pre.toList = d :: ds) (hne : d ≠ c) :
    Js.startsWith field pre = false := by
  rw [Js.startsWith, hfield, hpre, List.isPrefixOf_cons_cons, beq_false_of_ne hne, Bool.false_and]

theorem readField_sampleRate (s : PacketFields N) (hpos : 0 < sampleRate)
    (hrate : sampleRate < 2 ^ 53) :
    readField ofInt s ("sr=" ++ toString sampleRate) =
      { s with sampleRate := ofInt sampleRate } := by
  have hlist : ("sr=" ++ toString sampleRate).toList =
      's' :: ("r=" ++ toString sampleRate).toList := by
    simp only [String.toList_append]
    rfl
  have hversion : ¬ Js.startsWith ("sr=" ++ toString sampleRate) "v=" = true := by
    rw [startsWith_eq_false hlist (d := 'v') rfl (by decide)]
    exact Bool.false_ne_true
  have hpos' : (0 : Int) < sampleRate := Int.natCast_pos.mpr hpos
  unfold readField
  rw [if_neg hversion, if_pos (Js.startsWith_append _ _), Js.remove_append (by decide),
    Js.parseInt_toString hrate]
  exact if_pos hpos'

theorem readField_channels (s : PacketFields N) :
    readField ofInt s ("ch=" ++ toString AudioProto.channels) =
      { s with channels := AudioProto.channels } := by
  have hversion : ¬ Js.startsWith ("ch=" ++ toString AudioProto.channels) "v=" = true := by decide
  have hrate : ¬ Js.startsWith ("ch=" ++ toString AudioProto.channels) "sr=" = true := by decide
  unfold readField
  rw [if_neg hversion, if_neg hrate, if_pos (Js.startsWith_append _ _),
    Js.remove_append (by decide), Js.parseInt_toString (by decide)]
  rfl

theorem readField_unknown (s : PacketFields N) {field : String} (h : Unknown field) :
    readField ofInt s field = s := by
  unfold readField
  rw [h.version, h.sampleRate, h.channels]
  rfl

/-- The fields of the worker can be told apart. -/
theorem workerFields_ne (sampleRate : Nat) :
    "v=" ++ toString AudioProto.version ≠ "sr=" ++ toString sampleRate ∧
      "v=" ++ toString AudioProto.version ≠ "ch=" ++ toString AudioProto.channels ∧
      "sr=" ++ toString sampleRate ≠ "ch=" ++ toString AudioProto.channels := by
  have hfirst : ∀ {a b : String}, a = b → a.toList.head? = b.toList.head? := fun h => by rw [h]
  have hsr : ("sr=" ++ toString sampleRate).toList.head? = some 's' := by
    rw [String.toList_append]
    rfl
  refine ⟨fun h => ?_, fun h => absurd h (by decide), fun h => ?_⟩
  · have hhead := hfirst h
    rw [hsr] at hhead
    exact absurd hhead (by decide)
  · have hhead := hfirst h
    rw [hsr] at hhead
    exact absurd hhead (by decide)

/-- Each field of the worker has been read or is among those to come. -/
structure ReadOrComing (ofInt : Int → N) (sampleRate : Nat) (s : PacketFields N)
    (coming : List String) : Prop where
  version : s.version = some (AudioProto.version : Int) ∨
    "v=" ++ toString AudioProto.version ∈ coming
  sampleRate : s.sampleRate = ofInt sampleRate ∨ "sr=" ++ toString sampleRate ∈ coming
  channels : s.channels = AudioProto.channels ∨ "ch=" ++ toString AudioProto.channels ∈ coming

theorem readOrComing_step {s : PacketFields N} {field : String} {coming : List String}
    (hpos : 0 < sampleRate) (hrate : sampleRate < 2 ^ 53)
    (hfield : field ∈ workerFields sampleRate ∨ Unknown field)
    (h : ReadOrComing ofInt sampleRate s (field :: coming)) :
    ReadOrComing ofInt sampleRate (readField ofInt s field) coming := by
  obtain ⟨hvs, hvc, hsc⟩ := workerFields_ne sampleRate
  have hlater : ∀ {P : Prop} {f : String}, P ∨ f ∈ field :: coming → f ≠ field → P ∨ f ∈ coming :=
    fun h hne => h.imp_right fun hmem => (List.mem_cons.mp hmem).resolve_left hne
  rcases hfield with hfield | hunknown
  · simp only [workerFields, List.mem_cons, List.not_mem_nil, or_false] at hfield
    rcases hfield with rfl | rfl | rfl
    · rw [readField_version]
      exact ⟨Or.inl rfl, hlater h.sampleRate hvs.symm, hlater h.channels hvc.symm⟩
    · rw [readField_sampleRate s hpos hrate]
      exact ⟨hlater h.version hvs, Or.inl rfl, hlater h.channels hsc.symm⟩
    · rw [readField_channels]
      exact ⟨hlater h.version hvc, hlater h.sampleRate hsc, Or.inl rfl⟩
  · rw [readField_unknown s hunknown]
    refine ⟨hlater h.version ?_, hlater h.sampleRate ?_, hlater h.channels ?_⟩
    · rintro rfl
      have hknown := Js.startsWith_append "v=" (toString AudioProto.version)
      rw [hunknown.version] at hknown
      cases hknown
    · rintro rfl
      have hknown := Js.startsWith_append "sr=" (toString sampleRate)
      rw [hunknown.sampleRate] at hknown
      cases hknown
    · rintro rfl
      have hknown := Js.startsWith_append "ch=" (toString AudioProto.channels)
      rw [hunknown.channels] at hknown
      cases hknown

/-- The fields are read in any order, by induction on them. -/
theorem readFields {fields : List String} (hpos : 0 < sampleRate) (hrate : sampleRate < 2 ^ 53)
    (hfields : ∀ f ∈ fields, f ∈ workerFields sampleRate ∨ Unknown f) {s : PacketFields N}
    (h : ReadOrComing ofInt sampleRate s fields) :
    fields.foldl (readField ofInt) s =
      ⟨some AudioProto.version, ofInt sampleRate, AudioProto.channels⟩ := by
  induction fields generalizing s with
  | nil =>
    obtain ⟨version, rate, channels⟩ := s
    obtain ⟨hversion, hsampleRate, hchannels⟩ := h
    have hnone : ∀ {P : Prop} {f : String}, P ∨ f ∈ ([] : List String) → P := fun h =>
      h.resolve_right List.not_mem_nil
    cases hnone hversion
    cases hnone hsampleRate
    cases hnone hchannels
    rfl
  | cons f fields ih =>
    have hstep := readOrComing_step hpos hrate (hfields f List.mem_cons_self) h
    exact ih (fun g hg => hfields g (List.mem_cons_of_mem _ hg)) hstep

end Fields

/-! ## Packets -/

section Packets

variable {ofInt} {sampleRate : Nat} {fields : List String} {payload : String}

/-- No field of the worker has a bar. -/
theorem bar_workerFields {f : String} (hf : f ∈ workerFields sampleRate) : '|' ∉ f.toList := by
  simp only [workerFields, List.mem_cons, List.not_mem_nil, or_false] at hf
  rcases hf with rfl | rfl | rfl
  · decide
  · rw [String.toList_append, List.mem_append]
    rintro (hpre | hdigits)
    · exact absurd hpre (by decide)
    · rw [Nat.toString_eq_ofList_toDigits, String.toList_ofList] at hdigits
      exact absurd (Nat.isDigit_of_mem_toDigits (by decide) (by decide) hdigits) (by decide)
  · decide

/-- A packet comes apart at its bars. -/
theorem split_packetText (hfields : ∀ f ∈ fields, '|' ∉ f.toList)
    (hpayload : '|' ∉ payload.toList) :
    Js.split (packetText fields payload) '|' = AudioProto.kind :: (fields ++ [payload]) := by
  have hall : ∀ cs ∈ (AudioProto.kind :: (fields ++ [payload])).map String.toList, '|' ∉ cs := by
    intro cs hcs
    obtain ⟨f, hf, rfl⟩ := List.mem_map.mp hcs
    simp only [List.mem_cons, List.mem_append, List.not_mem_nil, or_false] at hf
    rcases hf with rfl | hf | rfl
    · decide
    · exact hfields f hf
    · exact hpayload
  have hbar : ("|" : String).toList = ['|'] := rfl
  unfold Js.split packetText
  rw [String.toList_intercalate, hbar, List.splitOn_intercalate _ hall (by simp), List.map_map]
  simp

theorem packetText_eq : packetText fields payload =
    AudioProto.kind ++ "|" ++ "|".intercalate (fields ++ [payload]) :=
  String.intercalate_cons_of_ne_nil (by simp)

/-- A packet whose fields are those of the worker and unknown ones. -/
theorem parse_packetText {others : List String} (hpos : 0 < sampleRate)
    (hrate : sampleRate < 2 ^ 53) (hperm : fields.Perm (workerFields sampleRate ++ others))
    (hothers : ∀ f ∈ others, Unknown f) (hne : payload ≠ "") (hpayload : '|' ∉ payload.toList)
    (fallback : N) :
    parseGameAudioPacket ofInt (packetText fields payload) fallback =
      some ⟨ofInt sampleRate, AudioProto.channels, payload⟩ := by
  have hknown : ∀ f ∈ fields, f ∈ workerFields sampleRate ∨ Unknown f := fun f hf =>
    (List.mem_append.mp (hperm.mem_iff.mp hf)).imp_right (hothers f)
  have hmem : ∀ f ∈ workerFields sampleRate, f ∈ fields := fun f hf =>
    hperm.mem_iff.mpr (List.mem_append_left _ hf)
  have hbars : ∀ f ∈ fields, '|' ∉ f.toList := fun f hf =>
    (hknown f hf).elim bar_workerFields Unknown.bar
  have hlen : ¬ (AudioProto.kind :: (fields ++ [payload])).length < 5 := by
    have hcount := hperm.length_eq
    simp only [workerFields, List.length_append, List.length_cons, List.length_nil] at hcount ⊢
    omega
  have hlast : (AudioProto.kind :: (fields ++ [payload])).getLast?.getD "" = payload := by
    rw [← List.cons_append, List.getLast?_append]
    rfl
  have hmiddle : (AudioProto.kind :: (fields ++ [payload])).tail.dropLast = fields := by
    rw [List.tail_cons, List.dropLast_concat]
  have hstart : Js.startsWith (packetText fields payload) (AudioProto.kind ++ "|") = true := by
    rw [packetText_eq]
    exact Js.startsWith_append _ _
  have hraw : packetText fields payload ≠ "" := by
    intro hempty
    rw [hempty] at hstart
    exact absurd hstart (by decide)
  have hcoming : ReadOrComing ofInt sampleRate ⟨none, fallback, AudioProto.channels⟩ fields :=
    ⟨Or.inr (hmem _ (by simp [workerFields])), Or.inr (hmem _ (by simp [workerFields])),
      Or.inl rfl⟩
  have hread := readFields hpos hrate hknown hcoming
  unfold parseGameAudioPacket
  simp only [if_neg hraw, if_pos hstart, split_packetText hbars hpayload, if_neg hlen, hlast,
    if_neg hne, hmiddle, hread]
  exact if_neg fun h => h rfl

end Packets

/-! ## The result -/

/-- **Audio packets.**  The portal reads the rate, two channels and the payload of every packet that
the worker builds, and the same from packets with the worker's fields in any order and unknown ones
between them. -/
theorem audio_round_trip (ofInt : Int → N) {base64 : Base64Codec} (hbase64 : base64.Lawful)
    {sampleRate : Nat} (hpos : 1 ≤ sampleRate) (hrate : sampleRate ≤ 2 ^ 32 - 1) (fallback : N) :
    (∀ pcm : List UInt8, pcm ≠ [] →
      parseGameAudioPacket ofInt (audioPayload sampleRate (base64.encode pcm)) fallback =
        some ⟨ofInt sampleRate, 2, base64.encode pcm⟩) ∧
    ∀ (fields others : List String) (payload : String),
      fields.Perm (workerFields sampleRate ++ others) → (∀ f ∈ others, Unknown f) →
      payload ≠ "" → '|' ∉ payload.toList →
      parseGameAudioPacket ofInt (packetText fields payload) fallback =
        parseGameAudioPacket ofInt (packetText (workerFields sampleRate) payload) fallback := by
  have hrate' : sampleRate < 2 ^ 53 := by omega
  have hown : ∀ payload : String, payload ≠ "" → '|' ∉ payload.toList →
      parseGameAudioPacket ofInt (packetText (workerFields sampleRate) payload) fallback =
        some ⟨ofInt sampleRate, AudioProto.channels, payload⟩ := by
    intro payload hne hpayload
    have hperm : (workerFields sampleRate).Perm (workerFields sampleRate ++ []) := by
      rw [List.append_nil]
    exact parse_packetText hpos hrate' hperm (by simp) hne hpayload fallback
  constructor
  · intro pcm hpcm
    rw [audioPayload_eq]
    refine hown _ (hbase64.encode_ne_empty hpcm) fun hbar => ?_
    exact absurd (hbase64.encode_chars pcm _ hbar) (by decide)
  · intro fields others payload hperm hothers hne hpayload
    rw [hown payload hne hpayload]
    exact parse_packetText hpos hrate' hperm hothers hne hpayload fallback

/-- The rate comes first, with a field of a later version, and four bytes of samples. -/
theorem audio_round_trip_reordered :
    parseGameAudioPacket (fun n => n)
        (audioPayload 44100 (Base64Codec.standard.encode [1, 2, 3, 4])) 48000 =
          some ⟨44100, 2, Base64Codec.standard.encode [1, 2, 3, 4]⟩ ∧
      parseGameAudioPacket (fun n => n)
        (packetText ["sr=44100", "seq=7", "ch=2", "v=1"] "AQIDBA==") 48000 =
          parseGameAudioPacket (fun n => n)
            (packetText ["v=1", "sr=44100", "ch=2"] "AQIDBA==") 48000 := by
  have hpos : 1 ≤ 44100 := by decide
  have h := audio_round_trip (fun n : Int => n) Base64Codec.standard_lawful hpos (by decide) 48000
  refine ⟨h.1 [1, 2, 3, 4] (by decide), ?_⟩
  refine h.2 ["sr=44100", "seq=7", "ch=2", "v=1"] ["seq=7"] "AQIDBA==" (by decide) ?_ (by decide)
    (by decide)
  intro f hf
  obtain rfl := List.mem_singleton.mp hf
  exact ⟨by decide, by decide, by decide, by decide⟩

end CloudGame.Portal
