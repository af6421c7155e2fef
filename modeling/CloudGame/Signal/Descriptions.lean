import CloudGame.Signal.Envelope

/-!
# The encodings of a session description (`arcade-signal/src/protocol.rs`)

An `offer` or an `answer` may carry its SDP text `s` in six ways (`Encodes`): as it is, as a JSON
string, as an object with the field `sdp`, and as base64 of each of these.  They are told apart only
by what happens to decode and to parse.

* `encodings_agree`: they all mean the object of type and SDP, except that the data field is trimmed
  before it is known to be text: an SDP that comes as it is loses the white space at its end
  (`plain_loses_line_break`).
-/

namespace CloudGame.Signal

open CloudGame.Lib

variable {ν : Type}

structure WireCodecs.Strict (wire : WireCodecs ν) : Prop where
  json : wire.json.Strict
  base64 : wire.base64.Strict

/-- A JSON text of `v` without white space around it. -/
structure IsJsonText (wire : WireCodecs ν) (text : String) (first last : Char) (v : Json ν) :
    Prop where
  reads : wire.json.fromSlice (toBytes text) = .ok v
  opens : text.toList.head? = some first
  closes : text.toList.getLast? = some last

/-- The object with the field `sdp`. -/
def sdpObject (s : String) : JsonMap ν := .ofStrings [("sdp", s)]

/-- The ways to write the SDP `s` in the data field. -/
inductive Encodes (wire : WireCodecs ν) (s : String) : String → Prop
  | plain : Encodes wire s s
  | plainBase64 : Encodes wire s (wire.base64.encode (toBytes s))
  | literal {text : String} (h : IsJsonText wire text '"' '"' (.string s)) : Encodes wire s text
  | literalBase64 {text : String} (h : IsJsonText wire text '"' '"' (.string s)) :
      Encodes wire s (wire.base64.encode (toBytes text))
  | object {text : String} (h : IsJsonText wire text '\x7b' '\x7d' (.object (sdpObject s))) :
      Encodes wire s text
  | objectBase64 {text : String} (h : IsJsonText wire text '\x7b' '\x7d' (.object (sdpObject s))) :
      Encodes wire s (wire.base64.encode (toBytes text))

/-- The object of type and SDP. -/
def sessionDescription (id s : String) : JsonMap ν := .ofStrings [("type", id), ("sdp", s)]

/-- The value in the data field of a parsed message. -/
def decodedData (wire : WireCodecs ν) (parsed : Except EnvelopeError SignalMessage) :
    Option (Json ν) :=
  match parsed with
  | .ok m => (m.data.bind wire.base64.decode).bind fun bytes => (wire.json.fromSlice bytes).toOption
  | .error _ => none

/-! ## Payloads -/

section Payloads

variable {wire : WireCodecs ν} {s : String} {id : String}

/-- The type of a description is put beside its SDP. -/
theorem complete_sdpObject (id s : String) :
    (PayloadShape.sessionDescription id).complete (sdpObject s : JsonMap ν) =
      sessionDescription id s := by
  have hnone : (sdpObject s : JsonMap ν).containsKey "type" ≠ true := by
    rw [JsonMap.containsKey, sdpObject, JsonMap.get_ofStrings_none (by simp)]
    exact Bool.false_ne_true
  have hafter : ¬ "type" < "sdp" := by decide
  have hbefore : "sdp" < "type" := by decide
  have hne : "type" ≠ "sdp" := by decide
  have hinsert : (PayloadShape.sessionDescription id).complete (sdpObject s : JsonMap ν) =
      (sdpObject s).insertString "type" id := if_neg (t := sdpObject s) hnone
  rw [hinsert]
  refine JsonMap.ext ?_
  show insertEntry "type" _ [("sdp", _)] = insertEntry "sdp" _ [("type", _)]
  rw [insertEntry, if_neg hafter, if_neg hne, insertEntry, insertEntry, if_pos hbefore]

/-- The SDP of a description can be told from it. -/
theorem sessionDescription_injective {id s t : String}
    (h : (sessionDescription id s : JsonMap ν) = sessionDescription id t) : s = t := by
  have hnodup : ∀ t, (([("type", id), ("sdp", t)] : List (String × String)).map
      Prod.fst).Nodup := fun t => by simp
  have hs : (sessionDescription id s : JsonMap ν).get "sdp" = some (.string s) :=
    JsonMap.get_ofStrings (f := ("sdp", s)) (hnodup s) (by simp)
  have ht : (sessionDescription id t : JsonMap ν).get "sdp" = some (.string t) :=
    JsonMap.get_ofStrings (f := ("sdp", t)) (hnodup t) (by simp)
  rw [h, ht] at hs
  cases hs
  rfl

/-- An SDP text is not base64: its second character is a padding. -/
theorem decode_sdp (hstrict : wire.Strict) {cs : List Char} (hs : s.toList = 'v' :: '=' :: cs) :
    wire.base64.decode s = none := by
  cases h : wire.base64.decode s with
  | none => rfl
  | some bytes =>
    have hpad := hstrict.base64.padding s bytes h
    rw [hs] at hpad
    exact absurd rfl hpad

/-- Text that begins with a character outside the alphabet is not base64. -/
theorem decode_first (hstrict : wire.Strict) {c : Char} (hc : s.toList.head? = some c)
    (hchar : isBase64Char c = false) : wire.base64.decode s = none := by
  cases h : wire.base64.decode s with
  | none => rfl
  | some bytes =>
    have hall := hstrict.base64.alphabet s bytes h c (List.mem_of_head? hc)
    rw [hchar] at hall
    cases hall

theorem decodePayload_raw (h : wire.base64.decode s = none) :
    decodePayloadOrRaw wire s = toBytes s := by
  unfold decodePayloadOrRaw
  rw [h]

theorem decodePayload_base64 (hwire : wire.Lawful) (bytes : List UInt8) :
    decodePayloadOrRaw wire (wire.base64.encode bytes) = bytes := by
  unfold decodePayloadOrRaw
  rw [hwire.base64.decode_encode]

/-- What the bytes of a payload are normalized to. -/
theorem normalize_sdp (hstrict : wire.Strict) {cs : List Char}
    (hs : s.toList = 'v' :: '=' :: cs) (id : String) :
    normalizePayload wire (.sessionDescription id) id (toBytes s) =
      .ok (sessionDescription id s) := by
  unfold normalizePayload
  cases h : wire.json.fromSlice (toBytes s) with
  | ok v =>
    have hstart := hstrict.json.starts (c := 'v') h (by rw [hs]; rfl)
    exact absurd hstart (by decide)
  | error e =>
    rw [fromUtf8_toBytes]
    rfl

theorem normalize_literal {text : String}
    (h : IsJsonText wire text '"' '"' (.string s)) (id : String) :
    normalizePayload wire (.sessionDescription id) id (toBytes text) =
      .ok (sessionDescription id s) := by
  unfold normalizePayload
  rw [h.reads]
  rfl

theorem normalize_object {text : String}
    (h : IsJsonText wire text '\x7b' '\x7d' (.object (sdpObject s))) (id : String) :
    normalizePayload wire (.sessionDescription id) id (toBytes text) =
      .ok (sessionDescription id s) := by
  unfold normalizePayload
  rw [h.reads]
  exact congrArg Except.ok (complete_sdpObject id s)

/-! ## Messages -/

/-- A text field of an envelope is read trimmed. -/
theorem requiredJsonString_get {m : JsonMap ν} {key : String}
    (hget : m.get key = some (.string s)) (hne : trim s ≠ "") :
    requiredJsonString m key = some (trim s) := by
  unfold requiredJsonString
  rw [hget]
  simp [JsonValue.asStr, hne]

/-- What the data of a parsed offer or answer is, from what its payload is normalized to. -/
theorem decodedData_parse (hwire : wire.Lawful) (hstrict : wire.Strict)
    (hid : id = SignalIds.offer ∨ id = SignalIds.answer) {text idText payload t : String}
    {m : JsonMap ν} (htext : wire.json.fromStr text = .ok (.object m))
    (hmid : m.get "id" = some (.string idText)) (hidText : trim idText = id)
    (hdata : m.get "data" = some (.string payload)) (hne : trim payload ≠ "")
    (hnorm : normalizePayload wire (.sessionDescription id) id
      (decodePayloadOrRaw wire (trim payload)) = .ok (sessionDescription id t)) :
    decodedData wire (parseMessageText wire text) = some (.object (sessionDescription id t)) := by
  have hidne : trim idText ≠ "" := by
    rw [hidText]
    rcases hid with rfl | rfl <;> decide
  have hshape : payloadShape id = some (.sessionDescription id) := by
    rcases hid with rfl | rfl <;> rfl
  obtain ⟨jsonBytes, hbytes⟩ := hstrict.json.prints [("type", id), ("sdp", t)]
  have hcanon : canonicalizeShape wire (.sessionDescription id) id (trim payload) =
      .ok (wire.base64.encode jsonBytes) :=
    canonicalizeShape_eq_ok.mpr ⟨_, jsonBytes, hnorm, hbytes, rfl⟩
  have hdata' : canonicalizePayload wire id (some (trim payload)) =
      .ok (some (wire.base64.encode jsonBytes)) := by
    rw [canonicalizePayload_some, hshape]
    show some <$> canonicalizeShape wire _ id (trim payload) = _
    rw [hcanon]
    rfl
  have hfield : optionalJsonString m "data" = some (trim payload) :=
    requiredJsonString_get hdata hne
  unfold parseMessageText
  simp only [htext, Json.asObject_object, requiredJsonString_get hmid hidne, hidText, hfield,
    hdata']
  show ((some (wire.base64.encode jsonBytes)).bind wire.base64.decode).bind
    (fun bytes => (wire.json.fromSlice bytes).toOption) = _
  rw [Option.bind_some, hwire.base64.decode_encode, Option.bind_some]
  have hread := hwire.json.fromSlice_toVec hbytes
  rw [hread]
  rfl

/-- Every encoding but the plain one is trimmed, and is normalized to type and SDP. -/
theorem normalize_encoded (hwire : wire.Lawful) (hstrict : wire.Strict) {cs : List Char}
    (hs : s.toList = 'v' :: '=' :: cs) {payload : String} (he : Encodes wire s payload)
    (id : String) (hne : payload ≠ s) : trim payload = payload ∧
      normalizePayload wire (.sessionDescription id) id (decodePayloadOrRaw wire payload) =
        .ok (sessionDescription id s) := by
  have htrim : ∀ bytes, trim (wire.base64.encode bytes) = wire.base64.encode bytes := fun bytes =>
    trim_eq_self fun c hc => isWhitespace_of_isBase64Char (hwire.base64.encode_chars bytes c hc)
  cases he with
  | plain => exact absurd rfl hne
  | plainBase64 =>
    rw [decodePayload_base64 hwire]
    exact ⟨htrim _, normalize_sdp hstrict hs id⟩
  | literal h =>
    rw [decodePayload_raw (decode_first hstrict h.opens (by decide))]
    exact ⟨trim_eq_self_of_ends h.opens h.closes (by decide) (by decide), normalize_literal h id⟩
  | literalBase64 h =>
    rw [decodePayload_base64 hwire]
    exact ⟨htrim _, normalize_literal h id⟩
  | object h =>
    rw [decodePayload_raw (decode_first hstrict h.opens (by decide))]
    exact ⟨trim_eq_self_of_ends h.opens h.closes (by decide) (by decide), normalize_object h id⟩
  | objectBase64 h =>
    rw [decodePayload_base64 hwire]
    exact ⟨htrim _, normalize_object h id⟩

/-- A payload that is an encoding is not empty. -/
theorem Encodes.ne_empty (hwire : wire.Lawful) {cs : List Char} (hs : s.toList = 'v' :: '=' :: cs)
    {payload : String} (he : Encodes wire s payload) : payload ≠ "" := by
  have hlit : ∀ {text : String} {first last : Char} {v : Json ν},
      IsJsonText wire text first last v → text ≠ "" := by
    rintro text first last v h rfl
    have hopens := h.opens
    cases hopens
  have hplain : s ≠ "" := by
    rintro rfl
    cases hs
  cases he with
  | plain => exact hplain
  | plainBase64 => exact hwire.base64.encode_ne_empty (toBytes_ne_nil hplain)
  | literal h => exact hlit h
  | literalBase64 h => exact hwire.base64.encode_ne_empty (toBytes_ne_nil (hlit h))
  | object h => exact hlit h
  | objectBase64 h => exact hwire.base64.encode_ne_empty (toBytes_ne_nil (hlit h))

end Payloads

/-! ## The result -/

/-- **Encodings of one description.**  An offer or an answer whose data field encodes the SDP `s` is
parsed to the object of its type and `s`, exactly unless the field holds `s` itself and `s` ends
with white space. -/
theorem encodings_agree {wire : WireCodecs ν} (hwire : wire.Lawful) (hstrict : wire.Strict)
    {s id : String} {cs : List Char} (hs : s.toList = 'v' :: '=' :: cs)
    (hid : id = SignalIds.offer ∨ id = SignalIds.answer) {payload : String}
    (he : Encodes wire s payload) {text idText : String} {m : JsonMap ν}
    (htext : wire.json.fromStr text = .ok (.object m))
    (hmid : m.get "id" = some (.string idText)) (hidText : trim idText = id)
    (hdata : m.get "data" = some (.string payload)) :
    decodedData wire (parseMessageText wire text) = some (.object (sessionDescription id s)) ↔
      (payload = s → trim s = s) := by
  by_cases hplain : payload = s
  · subst hplain
    obtain ⟨ds, hds⟩ := trim_cons_cons hs (by decide) (by decide)
    have hne : trim payload ≠ "" := by
      intro hempty
      rw [hempty] at hds
      cases hds
    have hnorm := normalize_sdp hstrict hds id
    rw [← decodePayload_raw (decode_sdp hstrict hds)] at hnorm
    rw [decodedData_parse hwire hstrict hid htext hmid hidText hdata hne hnorm]
    constructor
    · intro h _
      have hview := congrArg (Option.map Json.view) h
      simp only [Option.map_some, Json.view_object, Option.some.injEq,
        Json.View.object.injEq] at hview
      exact sessionDescription_injective hview
    · intro h
      rw [h rfl]
  · obtain ⟨htrim, hnorm⟩ := normalize_encoded hwire hstrict hs he id hplain
    have hne : trim payload ≠ "" := by
      rw [htrim]
      exact he.ne_empty hwire hs
    have hnorm' : normalizePayload wire (.sessionDescription id) id
        (decodePayloadOrRaw wire (trim payload)) = .ok (sessionDescription id s) := by
      rw [htrim]
      exact hnorm
    rw [decodedData_parse hwire hstrict hid htext hmid hidText hdata hne hnorm']
    exact iff_of_true rfl fun h => absurd h hplain

theorem flatWire_strict : flatWire.Strict := ⟨JsonCodec.flat_strict, Base64Codec.standard_strict⟩

/-- The text of an answer with this data. -/
def answerText (data : String) : String :=
  flatWire.json.structToString [("id", "answer"), ("data", data)]

theorem answerText_parse (data : String) :
    ∃ m : JsonMap Empty, flatWire.json.fromStr (answerText data) = .ok (.object m) ∧
      m.get "id" = some (.string "answer") ∧ m.get "data" = some (.string data) := by
  let fields : List (String × String) := [("id", "answer"), ("data", data)]
  have hnodup : (fields.map Prod.fst).Nodup := by simp [fields]
  refine ⟨.ofStrings fields, flatWire_lawful.json.fromStr_structToString fields hnodup, ?_, ?_⟩
  · exact JsonMap.get_ofStrings (f := ("id", "answer")) hnodup (by simp [fields])
  · exact JsonMap.get_ofStrings (f := ("data", data)) hnodup (by simp [fields])

/-- Base64 of an SDP keeps its line break. -/
theorem encodings_agree_base64 :
    decodedData flatWire (parseMessageText flatWire
      (answerText (flatWire.base64.encode (toBytes "v=0\r\n")))) =
        some (.object (sessionDescription "answer" "v=0\r\n")) := by
  obtain ⟨m, htext, hid, hdata⟩ :=
    answerText_parse (flatWire.base64.encode (toBytes "v=0\r\n"))
  refine (encodings_agree flatWire_lawful flatWire_strict (s := "v=0\r\n") rfl (Or.inr rfl)
    .plainBase64 htext hid (by decide) hdata).mpr fun h => ?_
  revert h
  decide

/-- **A lost line break.**  The same SDP as it is arrives without the line break. -/
theorem plain_loses_line_break :
    Encodes flatWire "v=0\r\n" "v=0\r\n" ∧
      decodedData flatWire (parseMessageText flatWire (answerText "v=0\r\n")) =
        some (.object (sessionDescription "answer" "v=0")) ∧
      decodedData flatWire (parseMessageText flatWire (answerText "v=0\r\n")) ≠
        some (.object (sessionDescription "answer" "v=0\r\n")) := by
  obtain ⟨m, htext, hid, hdata⟩ := answerText_parse "v=0\r\n"
  have htrim : trim "v=0\r\n" = "v=0" := by decide
  have hnorm := normalize_sdp flatWire_strict (s := "v=0") rfl "answer"
  rw [← decodePayload_raw (decode_sdp flatWire_strict (s := "v=0") rfl), ← htrim] at hnorm
  have hparse := decodedData_parse flatWire_lawful flatWire_strict (Or.inr rfl) htext hid
    (by decide) hdata (by decide) hnorm
  rw [htrim] at hparse
  refine ⟨.plain, hparse, fun hkept => ?_⟩
  rw [hparse] at hkept
  have hview := congrArg (Option.map Json.view) hkept
  simp only [Option.map_some, Json.view_object, Option.some.injEq, Json.View.object.injEq] at hview
  exact absurd (sessionDescription_injective hview) (by decide)

end CloudGame.Signal
