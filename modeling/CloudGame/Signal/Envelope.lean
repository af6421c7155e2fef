import CloudGame.Lib.Base64
import CloudGame.Lib.JsonText
import CloudGame.Signal.Protocol

/-!
# Envelopes on the wire (`arcade-signal/src/protocol.rs`)

`parseMessageText` reads an envelope from text: the id, the data and the routing target are
trimmed, and the data of an `offer`, an `answer` or a `candidate` is rewritten to base64 of a JSON
object.  It may come as that, as base64 of a JSON string or of plain text, or as any of these
without base64.  The JSON and base64 libraries are parameters (`WireCodecs`).

* `canonicalPayload_fixed`: a rewritten payload is rewritten to itself.
* `parse_serialize`: an envelope that was parsed is what its serialization parses to.
-/

namespace CloudGame.Signal

open CloudGame.Lib

/-- The libraries the wire format rests on; `utf8Error` is the text of a `FromUtf8Error`. -/
structure WireCodecs (ν : Type) where
  json : JsonCodec ν
  base64 : Base64Codec
  utf8Error : List UInt8 → String

structure WireCodecs.Lawful {ν : Type} (wire : WireCodecs ν) : Prop where
  json : wire.json.Lawful
  base64 : wire.base64.Lawful

/-- The errors of `parse_message_text`, with the texts of `Display`. -/
inductive EnvelopeError where
  | invalidJson (reason : String)
  | invalidEnvelope
  | invalidPayload (id reason : String)
deriving DecidableEq

def EnvelopeError.display : EnvelopeError → String
  | .invalidJson reason => "invalid json payload: " ++ reason
  | .invalidEnvelope => "invalid signaling message envelope"
  | .invalidPayload id reason => "invalid payload for message '" ++ id ++ "': " ++ reason

variable {ν : Type}

/-! ## Payloads -/

/-- What the two rewritings of a payload differ in: the name they report, the field of a payload
that is text, and the `type` of a session description. -/
structure PayloadShape where
  name : String
  field : String
  expectedType : Option String
deriving DecidableEq

def PayloadShape.sessionDescription (expectedType : String) : PayloadShape where
  name := "session description"
  field := "sdp"
  expectedType := some expectedType

def PayloadShape.candidate : PayloadShape where
  name := "candidate"
  field := "candidate"
  expectedType := none

namespace PayloadShape

/-- A payload that is an object, with the type it lacks. -/
def complete (shape : PayloadShape) (obj : JsonMap ν) : JsonMap ν :=
  match shape.expectedType with
  | some expected =>
    if obj.containsKey "type" then obj else obj.insertString "type" expected
  | none => obj

/-- The object of a payload that is text. -/
def ofText (shape : PayloadShape) (text : String) : JsonMap ν :=
  match shape.expectedType with
  | some expected => .ofStrings [("type", expected), (shape.field, text)]
  | none => .ofStrings [(shape.field, text)]

/-- Objects that are canonical payloads. -/
def IsComplete (shape : PayloadShape) (obj : JsonMap ν) : Prop :=
  shape.expectedType ≠ none → obj.containsKey "type" = true

theorem complete_eq_self {shape : PayloadShape} {obj : JsonMap ν} (h : shape.IsComplete obj) :
    shape.complete obj = obj := by
  unfold complete
  split
  next expected hexp => rw [if_pos (h (by simp [hexp]))]
  next => rfl

theorem isComplete_complete (shape : PayloadShape) (obj : JsonMap ν) :
    shape.IsComplete (shape.complete obj) := by
  intro hne
  unfold complete
  split
  next expected _ =>
    split
    next h => exact h
    next => rw [JsonMap.containsKey, JsonMap.get_insertString, if_pos rfl]; rfl
  next hnone => exact absurd hnone hne

theorem isComplete_ofText (shape : PayloadShape) (text : String) :
    shape.IsComplete (shape.ofText text : JsonMap ν) := by
  intro hne
  unfold ofText
  split
  next expected _ =>
    show ((JsonMap.empty.insertString "type" expected).insertString shape.field text).containsKey
      "type" = true
    rw [JsonMap.containsKey, JsonMap.get_insertString, JsonMap.get_insertString, if_pos rfl]
    split <;> rfl
  next hnone => exact absurd hnone hne

end PayloadShape

section

variable (wire : WireCodecs ν)

def decodePayloadOrRaw (payload : String) : List UInt8 :=
  match wire.base64.decode payload with
  | some bytes => bytes
  | none => toBytes payload

/-- The object of a payload. -/
def normalizePayload (shape : PayloadShape) (id : String) (raw : List UInt8) :
    Except EnvelopeError (JsonMap ν) :=
  match wire.json.fromSlice raw with
  | .ok value =>
    match value.view with
    | .object obj => .ok (shape.complete obj)
    | .string text => .ok (shape.ofText text)
    | .other =>
      .error (.invalidPayload id
        ("expected " ++ shape.name ++ " object or string, got " ++ wire.json.display value))
  | .error _ =>
    match fromUtf8 raw with
    | some text => .ok (shape.ofText text)
    | none =>
      .error (.invalidPayload id
        ("payload is neither base64 json nor utf8 " ++ shape.field ++ ": " ++ wire.utf8Error raw))

def canonicalizeShape (shape : PayloadShape) (id payload : String) :
    Except EnvelopeError String := do
  let normalized ← normalizePayload wire shape id (decodePayloadOrRaw wire payload)
  match wire.json.toVec (.object normalized) with
  | .ok jsonBytes => return wire.base64.encode jsonBytes
  | .error err =>
    throw (.invalidPayload id ("failed to serialize normalized " ++ shape.name ++ ": " ++ err))

def canonicalizeSessionDescriptionPayload (id payload : String) : Except EnvelopeError String :=
  if id = SignalIds.offer then canonicalizeShape wire (.sessionDescription "offer") id payload
  else if id = SignalIds.answer then
    canonicalizeShape wire (.sessionDescription "answer") id payload
  else .error (.invalidPayload id "unsupported session description message")

def canonicalizeCandidatePayload (id payload : String) : Except EnvelopeError String :=
  canonicalizeShape wire .candidate id payload

def canonicalizePayload (id : String) (payload : Option String) :
    Except EnvelopeError (Option String) :=
  match payload with
  | none => .ok none
  | some payload =>
    some <$>
      if id = SignalIds.offer then canonicalizeSessionDescriptionPayload wire id payload
      else if id = SignalIds.answer then canonicalizeSessionDescriptionPayload wire id payload
      else if id = SignalIds.candidate then canonicalizeCandidatePayload wire id payload
      else .ok payload

/-! ## Envelopes -/

def requiredJsonString (object : JsonMap ν) (key : String) : Option String :=
  (((object.get key).bind JsonValue.asStr).map trim).filter fun value => value ≠ ""

def optionalJsonString (object : JsonMap ν) (key : String) : Option String :=
  requiredJsonString object key

def parseMessageText (text : String) : Except EnvelopeError SignalMessage :=
  match wire.json.fromStr text with
  | .error reason => .error (.invalidJson reason)
  | .ok value =>
    match value.asObject with
    | none => .error .invalidEnvelope
    | some object =>
      match requiredJsonString object "id" with
      | none => .error .invalidEnvelope
      | some id => do
        let data ← canonicalizePayload wire id (optionalJsonString object "data")
        let sessionId :=
          (optionalJsonString object "sessionID").or (optionalJsonString object "session_id")
        return ⟨id, data, sessionId⟩

/-- The fields that are serialized: those that are not `None`. -/
def SignalMessage.fields (m : SignalMessage) : List (String × String) :=
  ("id", m.id) :: (m.data.toList.map fun data => ("data", data)) ++
    m.sessionId.toList.map fun target => ("sessionID", target)

def SignalMessage.serialize (m : SignalMessage) : String := wire.json.structToString m.fields

end

/-! ## Canonical payloads -/

section

variable {wire : WireCodecs ν}

/-- Base64 of the serialization of a complete object. -/
def CanonicalPayload (wire : WireCodecs ν) (shape : PayloadShape) (data : String) : Prop :=
  ∃ obj jsonBytes, wire.json.toVec (.object obj) = .ok jsonBytes ∧ shape.IsComplete obj ∧
    data = wire.base64.encode jsonBytes

theorem isComplete_of_normalizePayload {shape : PayloadShape} {id : String} {raw : List UInt8}
    {obj : JsonMap ν} (h : normalizePayload wire shape id raw = .ok obj) :
    shape.IsComplete obj := by
  unfold normalizePayload at h
  split at h
  next value _ =>
    split at h
    next =>
      cases h
      exact shape.isComplete_complete _
    next =>
      cases h
      exact shape.isComplete_ofText _
    next => cases h
  next =>
    split at h
    next =>
      cases h
      exact shape.isComplete_ofText _
    next => cases h

theorem canonicalizeShape_eq_ok {shape : PayloadShape} {id payload data : String} :
    canonicalizeShape wire shape id payload = .ok data ↔
      ∃ obj jsonBytes, normalizePayload wire shape id (decodePayloadOrRaw wire payload) = .ok obj ∧
        wire.json.toVec (.object obj) = .ok jsonBytes ∧ wire.base64.encode jsonBytes = data := by
  unfold canonicalizeShape
  cases normalizePayload wire shape id (decodePayloadOrRaw wire payload) with
  | error e => simp [bind, Except.bind]
  | ok obj =>
    cases hv : wire.json.toVec (.object obj) with
    | error e => simp [bind, Except.bind, hv, throw, throwThe, MonadExceptOf.throw]
    | ok jsonBytes => simp [bind, Except.bind, hv, pure, Except.pure]

theorem canonicalPayload_of_canonicalize {shape : PayloadShape} {id payload data : String}
    (h : canonicalizeShape wire shape id payload = .ok data) :
    CanonicalPayload wire shape data := by
  obtain ⟨obj, jsonBytes, hnorm, hvec, rfl⟩ := canonicalizeShape_eq_ok.mp h
  exact ⟨obj, jsonBytes, hvec, isComplete_of_normalizePayload hnorm, rfl⟩

/-- **Canonical payloads are fixed**: they decode to an object that is complete. -/
theorem canonicalPayload_fixed (hwire : wire.Lawful) {shape : PayloadShape} {data : String}
    (h : CanonicalPayload wire shape data) (id : String) :
    canonicalizeShape wire shape id data = .ok data := by
  obtain ⟨obj, jsonBytes, hvec, hcomplete, rfl⟩ := h
  have hraw : decodePayloadOrRaw wire (wire.base64.encode jsonBytes) = jsonBytes := by
    unfold decodePayloadOrRaw
    rw [hwire.base64.decode_encode]
  have hnorm : normalizePayload wire shape id jsonBytes = .ok obj := by
    unfold normalizePayload
    simp only [hwire.json.fromSlice_toVec hvec, Json.view_object,
      PayloadShape.complete_eq_self hcomplete]
  refine canonicalizeShape_eq_ok.mpr ⟨obj, jsonBytes, ?_, hvec, rfl⟩
  rw [hraw, hnorm]

/-- Base64 has no white space. -/
theorem isWhitespace_of_isBase64Char {c : Char} (hc : isBase64Char c = true) :
    isWhitespace c = false := by
  simp only [isBase64Char, isWhitespace, Bool.or_eq_true, Bool.and_eq_true, decide_eq_true_eq,
    beq_iff_eq] at hc ⊢
  simp only [Bool.or_eq_false_iff, Bool.and_eq_false_iff, decide_eq_false_iff_not,
    beq_eq_false_iff_ne]
  omega

/-- A canonical payload is trimmed and not empty. -/
theorem trim_canonicalPayload (hwire : wire.Lawful) {shape : PayloadShape} {data : String}
    (h : CanonicalPayload wire shape data) : trim data = data ∧ data ≠ "" := by
  obtain ⟨obj, jsonBytes, hvec, -, rfl⟩ := h
  refine ⟨trim_eq_self fun c hc =>
    isWhitespace_of_isBase64Char (hwire.base64.encode_chars _ c hc), ?_⟩
  exact hwire.base64.encode_ne_empty (hwire.json.toVec_ne_nil hvec)

/-- The shape of the payloads of a message id, if they are rewritten. -/
def payloadShape (id : String) : Option PayloadShape :=
  if id = SignalIds.offer then some (.sessionDescription "offer")
  else if id = SignalIds.answer then some (.sessionDescription "answer")
  else if id = SignalIds.candidate then some .candidate
  else none

theorem canonicalizePayload_some (id payload : String) :
    canonicalizePayload wire id (some payload) =
      match payloadShape id with
      | some shape => some <$> canonicalizeShape wire shape id payload
      | none => .ok (some payload) := by
  unfold canonicalizePayload payloadShape canonicalizeSessionDescriptionPayload
    canonicalizeCandidatePayload
  by_cases ho : id = SignalIds.offer
  · simp only [if_pos ho]
  · by_cases ha : id = SignalIds.answer
    · simp only [if_neg ho, if_pos ha]
    · by_cases hc : id = SignalIds.candidate
      · simp only [if_neg ho, if_neg ha, if_pos hc]
      · simp only [if_neg ho, if_neg ha, if_neg hc]
        rfl

/-- Trimmed text that is not empty, or nothing. -/
def Trimmed (value : Option String) : Prop := ∀ s, value = some s → trim s = s ∧ s ≠ ""

theorem trimmed_requiredJsonString (object : JsonMap ν) (key : String) :
    Trimmed (requiredJsonString object key) := by
  intro s hs
  unfold requiredJsonString at hs
  obtain ⟨hmap, hne⟩ := Option.filter_eq_some_iff.mp hs
  obtain ⟨raw, _, rfl⟩ := Option.map_eq_some_iff.mp hmap
  exact ⟨trim_trim raw, by simpa using hne⟩

theorem trimmed_or {a b : Option String} (ha : Trimmed a) (hb : Trimmed b) : Trimmed (a.or b) := by
  intro s hs
  cases a with
  | none => exact hb s (by simpa using hs)
  | some a => exact ha s (by simpa using hs)

/-- What `canonicalizePayload` makes of trimmed data: trimmed data of the form of its id. -/
structure CanonicalData (wire : WireCodecs ν) (id : String) (data : Option String) : Prop where
  trimmed : Trimmed data
  canonical : ∀ s shape, data = some s → payloadShape id = some shape →
    CanonicalPayload wire shape s

theorem canonicalData_of_canonicalize (hwire : wire.Lawful) {id : String}
    {payload data : Option String} (hp : Trimmed payload)
    (h : canonicalizePayload wire id payload = .ok data) : CanonicalData wire id data := by
  cases payload with
  | none =>
    cases h
    exact ⟨by simp [Trimmed], by simp⟩
  | some payload =>
    rw [canonicalizePayload_some] at h
    cases hshape : payloadShape id with
    | none =>
      rw [hshape] at h
      cases h
      exact ⟨hp, by simp [hshape]⟩
    | some shape =>
      simp only [hshape] at h
      cases hc : canonicalizeShape wire shape id payload with
      | error e => rw [hc] at h; cases h
      | ok s =>
        rw [hc] at h
        cases h
        have hcanon := canonicalPayload_of_canonicalize hc
        constructor
        · rintro _ ⟨⟩
          exact trim_canonicalPayload hwire hcanon
        · rintro _ _ ⟨⟩ hshape'
          cases hshape.symm.trans hshape'
          exact hcanon

theorem canonicalizePayload_fixed (hwire : wire.Lawful) {id : String} {data : Option String}
    (h : CanonicalData wire id data) : canonicalizePayload wire id data = .ok data := by
  cases data with
  | none => rfl
  | some s =>
    rw [canonicalizePayload_some]
    cases hshape : payloadShape id with
    | none => rfl
    | some shape =>
      show some <$> canonicalizeShape wire shape id s = _
      rw [canonicalPayload_fixed hwire (h.canonical s shape rfl hshape)]
      rfl

/-! ## Canonical envelopes -/

/-- An envelope whose fields are trimmed and whose data is canonical. -/
structure CanonicalMessage (wire : WireCodecs ν) (m : SignalMessage) : Prop where
  id : Trimmed (some m.id)
  data : CanonicalData wire m.id m.data
  sessionId : Trimmed m.sessionId

theorem canonicalMessage_of_parse (hwire : wire.Lawful) {text : String} {m : SignalMessage}
    (h : parseMessageText wire text = .ok m) : CanonicalMessage wire m := by
  unfold parseMessageText at h
  split at h
  next => cases h
  next value _ =>
    split at h
    next => cases h
    next object _ =>
      split at h
      next => cases h
      next id hid =>
        cases hdata : canonicalizePayload wire id (optionalJsonString object "data") with
        | error e => rw [hdata] at h; cases h
        | ok data =>
          rw [hdata] at h
          cases h
          have htrim := trimmed_requiredJsonString object
          exact
            { id := hid ▸ htrim "id"
              data := canonicalData_of_canonicalize hwire (htrim "data") hdata
              sessionId := trimmed_or (htrim "sessionID") (htrim "session_id") }

theorem fields_nodup (m : SignalMessage) : (m.fields.map Prod.fst).Nodup := by
  obtain ⟨id, data, sessionId⟩ := m
  cases data <;> cases sessionId <;>
    simp [SignalMessage.fields]

/-- What a trimmed field is read back as. -/
theorem requiredJsonString_ofStrings {fields : List (String × String)}
    (hd : (fields.map Prod.fst).Nodup) {key s : String} (hf : (key, s) ∈ fields)
    (hs : trim s = s ∧ s ≠ "") :
    requiredJsonString (JsonMap.ofStrings fields : JsonMap ν) key = some s := by
  have hget : (JsonMap.ofStrings fields : JsonMap ν).get key = some (.string s) :=
    JsonMap.get_ofStrings hd hf
  unfold requiredJsonString
  rw [hget]
  simp [JsonValue.asStr, hs.1, hs.2]

theorem requiredJsonString_ofStrings_none {fields : List (String × String)} {key : String}
    (hk : key ∉ fields.map Prod.fst) :
    requiredJsonString (JsonMap.ofStrings fields : JsonMap ν) key = none := by
  unfold requiredJsonString
  rw [JsonMap.get_ofStrings_none hk]
  rfl

/-- The fields of a serialized envelope are read back as they were. -/
theorem read_fields {m : SignalMessage} (h : CanonicalMessage wire m) :
    let object : JsonMap ν := .ofStrings m.fields
    requiredJsonString object "id" = some m.id ∧ optionalJsonString object "data" = m.data ∧
      (optionalJsonString object "sessionID").or (optionalJsonString object "session_id") =
        m.sessionId := by
  intro object
  have hd := fields_nodup m
  have hid : requiredJsonString object "id" = some m.id :=
    requiredJsonString_ofStrings hd (by simp [SignalMessage.fields]) (h.id m.id rfl)
  have hlegacy : optionalJsonString object "session_id" = none :=
    requiredJsonString_ofStrings_none (by
      cases m.data <;> cases m.sessionId <;> simp [SignalMessage.fields])
  have hdata : optionalJsonString object "data" = m.data := by
    cases hm : m.data with
    | none =>
      exact requiredJsonString_ofStrings_none (by
        cases m.sessionId <;> simp [SignalMessage.fields, hm])
    | some data =>
      exact requiredJsonString_ofStrings hd (by simp [SignalMessage.fields, hm])
        (h.data.trimmed data hm)
  have htarget : optionalJsonString object "sessionID" = m.sessionId := by
    cases hm : m.sessionId with
    | none =>
      exact requiredJsonString_ofStrings_none (by
        cases m.data <;> simp [SignalMessage.fields, hm])
    | some target =>
      exact requiredJsonString_ofStrings hd (by simp [SignalMessage.fields, hm])
        (h.sessionId target hm)
  exact ⟨hid, hdata, by rw [htarget, hlegacy, Option.or_none]⟩

/-- A canonical envelope is what its serialization parses to. -/
theorem parse_serialize (hwire : wire.Lawful) {m : SignalMessage} (h : CanonicalMessage wire m) :
    parseMessageText wire (m.serialize wire) = .ok m := by
  obtain ⟨hid, hdata, htarget⟩ := read_fields h
  unfold parseMessageText SignalMessage.serialize
  simp only [hwire.json.fromStr_structToString _ (fields_nodup m), Json.asObject_object, hid,
    hdata, htarget, canonicalizePayload_fixed hwire h.data]
  rfl

/-- **Parsed envelopes are fixed points.**  What `parseMessageText` returns is what its
serialization parses to, and the data of an `offer`, an `answer` or a `candidate` is base64 of a
serialized object, with a `type` unless it is a candidate. -/
theorem envelope_fixed_point (wire : WireCodecs ν) (hwire : wire.Lawful) {text : String}
    {m : SignalMessage} (h : parseMessageText wire text = .ok m) :
    parseMessageText wire (m.serialize wire) = .ok m ∧
      ∀ data, m.data = some data →
        m.id = SignalIds.offer ∨ m.id = SignalIds.answer ∨ m.id = SignalIds.candidate →
        ∃ (obj : JsonMap ν) (jsonBytes : List UInt8),
          wire.json.toVec (.object obj) = .ok jsonBytes ∧ data = wire.base64.encode jsonBytes ∧
            (m.id ≠ SignalIds.candidate → obj.containsKey "type" = true) := by
  have hm := canonicalMessage_of_parse hwire h
  refine ⟨parse_serialize hwire hm, fun data hdata hid => ?_⟩
  have hshape : ∃ shape, payloadShape m.id = some shape ∧
      (m.id ≠ SignalIds.candidate → shape.expectedType ≠ none) := by
    rcases hid with hid | hid | hid <;> rw [hid]
    · exact ⟨.sessionDescription "offer", by decide, by decide⟩
    · exact ⟨.sessionDescription "answer", by decide, by decide⟩
    · exact ⟨.candidate, by decide, by decide⟩
  obtain ⟨shape, hshape, htyped⟩ := hshape
  obtain ⟨obj, jsonBytes, hvec, hcomplete, hencode⟩ := hm.data.canonical data shape hdata hshape
  exact ⟨obj, jsonBytes, hvec, hencode, fun hne => hcomplete (htyped hne)⟩

/-- Flat JSON and standard base64; `Empty` has no numbers. -/
def flatWire : WireCodecs Empty where
  json := .flat
  base64 := .standard
  utf8Error _ := "invalid utf-8 sequence"

theorem flatWire_lawful : flatWire.Lawful := ⟨JsonCodec.flat_lawful, Base64Codec.standard_lawful⟩

/-- An answer with a plain SDP and the older field of the target. -/
def legacyAnswer : String :=
  "\x7b\"id\":\" answer\",\"session_id\":\"worker-1 \",\"data\":\"v=0\\r\\n\"\x7d"

def canonicalAnswer : SignalMessage :=
  ⟨"answer", some "eyJzZHAiOiJ2PTAiLCJ0eXBlIjoiYW5zd2VyIn0=", some "worker-1"⟩

theorem envelope_fixed_point_answer :
    parseMessageText flatWire legacyAnswer = .ok canonicalAnswer ∧
      parseMessageText flatWire (canonicalAnswer.serialize flatWire) = .ok canonicalAnswer := by
  have h : parseMessageText flatWire legacyAnswer = .ok canonicalAnswer := by decide +kernel
  exact ⟨h, (envelope_fixed_point flatWire flatWire_lawful h).1⟩

end

end CloudGame.Signal
