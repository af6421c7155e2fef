import CloudGame.Lib.Latin1
import CloudGame.Portal.IceCandidates
import CloudGame.Portal.InputLoop
import CloudGame.Signal.Descriptions
import CloudGame.Signal.Forwarding

/-!
# Messages between the portal and the server (`store/protocol.js`, `store/signalingMessages.js`)

The scripts print a message with `JSON.stringify` and the server prints one with serde, which for
objects of strings is the same text (`PrintsAlike`).

* `request_understood`: the server reads every request as the command that was meant, with the bytes
  of the input as they were.
* `serverMessage_understood`: the portal reads every message of the server as it was.
* `answer_arrives`, `offer_arrives`: what becomes of a session description on its way.
-/

namespace CloudGame.Portal

open CloudGame.Lib
open CloudGame.Signal

/-! ## The messages of the scripts -/

def buildSignalingMessage (id : String) (data targetID : Option String) : SignalMessage :=
  ⟨id, data, targetID⟩

def controllerHostMessage (workerId : String) : SignalMessage :=
  buildSignalingMessage SignalIds.controllerHost none (some workerId)

def controllerJoinMessage (code : String) : SignalMessage :=
  buildSignalingMessage SignalIds.controllerJoin (some code) none

def controllerInputMessage (hostClientId payload : String) : SignalMessage :=
  buildSignalingMessage SignalIds.controllerInput (some payload) (some hostClientId)

def controllerAudioMessage (hostClientId : String) : SignalMessage :=
  buildSignalingMessage SignalIds.controllerAudio (some "enable") (some hostClientId)

/-- `btoa(String.fromCharCode(mask & 0xff, (mask >>> 8) & 0xff))` -/
def encodeMaskBase64 (mask : UInt32) : String := Base64Codec.standard.encode (inputPacket mask)

/-- `btoa`, which throws beyond Latin-1. -/
def btoa (text : String) : Option String :=
  if text.toList.all (fun c => c.toNat < 256) then
    some (Base64Codec.standard.encode (text.toList.map Char.toUInt8))
  else none

/-- `atob` -/
def atob (encoded : String) : Option String := (Base64Codec.standard.decode encoded).map latin1

/-- What the scripts of the portal send: the game session, the page of a phone, the page that hosts
phones and the connection itself. -/
inductive Request where
  | getGames
  | initWebrtc (workerID : String)
  | input (workerID : String) (packetValue : UInt32)
  | terminateSession (workerID : String)
  | controllerHost (workerID : String)
  | controllerJoin (code : String)
  | controllerInput (hostClientId : String) (mask : UInt32)
  | controllerAudio (hostClientId : String)
deriving DecidableEq

namespace Request

def message : Request → SignalMessage
  | .getGames => buildSignalingMessage SignalIds.getGames none none
  | .initWebrtc workerID => buildSignalingMessage SignalIds.initWebrtc none (some workerID)
  | .input workerID packetValue =>
    buildSignalingMessage SignalIds.input (some (encodeMaskBase64 packetValue)) (some workerID)
  | .terminateSession workerID =>
    buildSignalingMessage SignalIds.terminateSession none (some workerID)
  | .controllerHost workerID => controllerHostMessage workerID
  | .controllerJoin code => controllerJoinMessage code
  | .controllerInput hostClientId mask =>
    controllerInputMessage hostClientId (encodeMaskBase64 mask)
  | .controllerAudio hostClientId => controllerAudioMessage hostClientId

/-- Whom or what a request names: its target, or the code of a phone. -/
def names : Request → Option String
  | .getGames => none
  | .initWebrtc workerID | .input workerID _ | .terminateSession workerID
  | .controllerHost workerID => some workerID
  | .controllerJoin code => some code
  | .controllerInput hostClientId _ | .controllerAudio hostClientId => some hostClientId

/-- The command a request means, to the server that knows its name by `name`. -/
def command (name : String) : Request → BrowserCommand
  | .getGames => .requestGames
  | .initWebrtc _ => .forwardToWorker name .initWebrtc none true
  | .input _ packetValue =>
    .forwardToWorker name .input (some (encodeMaskBase64 packetValue)) false
  | .terminateSession _ => .terminateSession (some name)
  | .controllerHost _ => .controllerHost name
  | .controllerJoin _ => .controllerJoin name
  | .controllerInput _ mask => .controllerInput name (encodeMaskBase64 mask)
  | .controllerAudio _ => .controllerAudio name "enable"

theorem message_id_mem (r : Request) : r.message.id ∈ knownMessageIds := by
  cases r <;>
    simp [message, buildSignalingMessage, controllerHostMessage, controllerJoinMessage,
      controllerInputMessage, controllerAudioMessage, knownMessageIds, SignalIds.getGames,
      SignalIds.initWebrtc, SignalIds.input, SignalIds.terminateSession, SignalIds.controllerHost,
      SignalIds.controllerJoin, SignalIds.controllerInput, SignalIds.controllerAudio]

end Request

variable {ν μ : Type}

/-- `JSON.stringify(message)` -/
def messageText (printNumber : μ → List Char) (m : SignalMessage) : String :=
  Js.jsonStringify printNumber (Js.stringObject m.fields)

/-- The two orders in which the fields of a description can be printed. -/
def descriptionFields (typeFirst : Bool) (type sdp : String) : List (String × String) :=
  if typeFirst then [("type", type), ("sdp", sdp)] else [("sdp", sdp), ("type", type)]

/-- `JSON.stringify` of a session description. -/
def descriptionText (printNumber : μ → List Char) (typeFirst : Bool) (type sdp : String) : String :=
  Js.jsonStringify printNumber (Js.stringObject (descriptionFields typeFirst type sdp))

/-- The server's library prints and reads objects of strings as the scripts do. -/
structure PrintsAlike (wire : WireCodecs ν) (printNumber : μ → List Char) : Prop where
  structToString : ∀ fields,
    wire.json.structToString fields = Js.jsonStringify printNumber (Js.stringObject fields)
  fromSlice : ∀ fields : List (String × String), (fields.map Prod.fst).Nodup →
    wire.json.fromSlice (toBytes (Js.jsonStringify printNumber (Js.stringObject fields))) =
      .ok (.object (.ofStrings fields))
  toVec : ∀ fields : List (String × String), fields.Pairwise (fun e f => e.1 < f.1) →
    wire.json.toVec (.object (.ofStrings fields)) =
      .ok (toBytes (Js.jsonStringify printNumber (Js.stringObject fields)))

/-- The libraries that can be run print alike: no numbers are printed. -/
theorem printsAlike_flat (printNumber : μ → List Char) : PrintsAlike flatWire printNumber := by
  have htext : ∀ fields, Js.jsonStringify printNumber (Js.stringObject fields) =
      String.ofList (JsonText.printObject fields) := fun fields => by
    rw [Js.jsonStringify, Js.printValue_stringObject]
  constructor
  · intro fields
    rw [htext]
    rfl
  · intro fields _
    rw [htext]
    simp only [flatWire, JsonCodec.flat, fromUtf8_toBytes, JsonCodec.flatFromStr,
      String.toList_ofList, JsonText.parse_printObject]
  · intro fields hsorted
    have hflat : JsonCodec.flatText (.object (.ofStrings fields) : Json Empty) =
        some (JsonText.printObject fields) := by
      show (JsonText.stringFields (JsonMap.ofStrings fields : JsonMap Empty).entries).map _ = _
      rw [JsonMap.ofStrings_entries hsorted, JsonText.stringFields_map]
      rfl
    simp only [flatWire, JsonCodec.flat, hflat, htext]

/-! ## Requests -/

section Requests

variable {wire : WireCodecs ν} {printNumber : μ → List Char}

/-- A field of text is read trimmed, and not at all if it is blank. -/
theorem requiredJsonString_field {fields : List (String × String)}
    (hd : (fields.map Prod.fst).Nodup) {key s : String} (hf : (key, s) ∈ fields) :
    requiredJsonString (JsonMap.ofStrings fields : JsonMap ν) key = optionalTrimmed (some s) := by
  have hget : (JsonMap.ofStrings fields : JsonMap ν).get key = some (.string s) :=
    JsonMap.get_ofStrings hd hf
  unfold requiredJsonString
  rw [hget]
  by_cases hblank : trim s = ""
  · simp [JsonValue.asStr, optionalTrimmed, hblank]
  · simp [JsonValue.asStr, optionalTrimmed, hblank]

/-- A field that may be missing is read in the same way. -/
theorem optionalJsonString_fields {m : SignalMessage} :
    optionalJsonString (JsonMap.ofStrings m.fields : JsonMap ν) "data" = optionalTrimmed m.data ∧
      optionalJsonString (JsonMap.ofStrings m.fields : JsonMap ν) "sessionID" =
        optionalTrimmed m.sessionId ∧
      optionalJsonString (JsonMap.ofStrings m.fields : JsonMap ν) "session_id" = none := by
  have hd := fields_nodup m
  refine ⟨?_, ?_, ?_⟩
  · cases hdata : m.data with
    | none =>
      exact requiredJsonString_ofStrings_none (by
        cases m.sessionId <;> simp [SignalMessage.fields, hdata])
    | some data =>
      exact requiredJsonString_field hd (by simp [SignalMessage.fields, hdata])
  · cases htarget : m.sessionId with
    | none =>
      exact requiredJsonString_ofStrings_none (by
        cases m.data <;> simp [SignalMessage.fields, htarget])
    | some target =>
      exact requiredJsonString_field hd (by simp [SignalMessage.fields, htarget])
  · exact requiredJsonString_ofStrings_none (by
      cases m.data <;> cases m.sessionId <;> simp [SignalMessage.fields])

/-- What the server reads of a message of the scripts. -/
theorem parse_messageText (hwire : wire.Lawful) (halike : PrintsAlike wire printNumber)
    {id : String} {sent data target : Option String} (hid : optionalTrimmed (some id) = some id)
    (hdata : canonicalizePayload wire id (optionalTrimmed sent) = .ok data) :
    parseMessageText wire (messageText printNumber ⟨id, sent, target⟩) =
      .ok ⟨id, data, optionalTrimmed target⟩ := by
  let m : SignalMessage := ⟨id, sent, target⟩
  have hread : wire.json.fromStr (messageText printNumber m) =
      .ok (.object (.ofStrings m.fields)) := by
    rw [messageText, ← halike.structToString]
    exact hwire.json.fromStr_structToString m.fields (fields_nodup m)
  have hname : requiredJsonString (JsonMap.ofStrings m.fields : JsonMap ν) "id" = some id := by
    rw [requiredJsonString_field (fields_nodup m) (s := id) (by simp [SignalMessage.fields, m]),
      hid]
  obtain ⟨hd, htarget, hlegacy⟩ := optionalJsonString_fields (ν := ν) (m := m)
  have hdata' : canonicalizePayload wire id (optionalTrimmed m.data) = .ok data := hdata
  show parseMessageText wire (messageText printNumber m) = _
  unfold parseMessageText
  simp only [hread, Json.asObject_object, hname, hd, htarget, hlegacy, hdata', Option.or_none]
  rfl

/-- Base64 is read as it was sent. -/
theorem optionalTrimmed_encode {bytes : List UInt8} (h : bytes ≠ []) :
    optionalTrimmed (some (Base64Codec.standard.encode bytes)) =
      some (Base64Codec.standard.encode bytes) := by
  have hne : Base64Codec.standard.encode bytes ≠ "" :=
    Base64Codec.standard_lawful.encode_ne_empty h
  have htrim : trim (Base64Codec.standard.encode bytes) = Base64Codec.standard.encode bytes :=
    trim_eq_self fun c hc =>
      isWhitespace_of_isBase64Char (Base64Codec.standard_lawful.encode_chars bytes c hc)
  rw [optionalTrimmed, htrim, if_neg hne]

theorem optionalTrimmed_encodeMask (mask : UInt32) :
    optionalTrimmed (some (encodeMaskBase64 mask)) = some (encodeMaskBase64 mask) :=
  optionalTrimmed_encode (List.cons_ne_nil _ _)

/-- What is read trimmed is read as it is. -/
theorem optionalTrimmed_self {value : Option String} {s : String}
    (h : optionalTrimmed value = some s) : optionalTrimmed (some s) = some s := by
  unfold optionalTrimmed at h
  split at h
  · cases h
  · split at h
    · cases h
    · next hblank =>
      cases h
      rw [optionalTrimmed, trim_trim, if_neg hblank]

theorem requiredTarget_some {id t : String} {target : Option String}
    (h : optionalTrimmed target = some t) : requiredTarget id target = .ok t := by
  rw [requiredTarget, h]

theorem requiredPayload_some {id t : String} {data : Option String}
    (h : optionalTrimmed data = some t) : requiredPayload id data = .ok t := by
  rw [requiredPayload, h]

/-! What the server makes of the envelopes with these ids. -/

theorem parse_terminateSession (data target : Option String) :
    parseBrowserCommand ⟨SignalIds.terminateSession, data, target⟩ =
      .ok (.terminateSession (optionalTrimmed target)) := rfl

theorem parse_controllerHost (data target : Option String) :
    parseBrowserCommand ⟨SignalIds.controllerHost, data, target⟩ = (do
      let workerId ← requiredTarget SignalIds.controllerHost target
      return .controllerHost workerId) := rfl

theorem parse_controllerJoin (data target : Option String) :
    parseBrowserCommand ⟨SignalIds.controllerJoin, data, target⟩ = (do
      let code ← requiredPayload SignalIds.controllerJoin data
      return .controllerJoin code) := rfl

theorem parse_controllerInput (data target : Option String) :
    parseBrowserCommand ⟨SignalIds.controllerInput, data, target⟩ = (do
      let hostClientId ← requiredTarget SignalIds.controllerInput target
      let data ← requiredPayload SignalIds.controllerInput data
      return .controllerInput hostClientId data) := rfl

theorem parse_controllerAudio (data target : Option String) :
    parseBrowserCommand ⟨SignalIds.controllerAudio, data, target⟩ = (do
      let hostClientId ← requiredTarget SignalIds.controllerAudio target
      let action ← requiredPayload SignalIds.controllerAudio data
      return .controllerAudio hostClientId action) := rfl

/-- What the server reads of a request: the command with the name that it reads, and an error where
the name is blank. -/
theorem parse_request (hwire : wire.Lawful) (halike : PrintsAlike wire printNumber) (r : Request) :
    ∃ m, parseMessageText wire (messageText printNumber r.message) = .ok m ∧
      (r.names = none → parseBrowserCommand m = .ok .requestGames) ∧
      (∀ name, optionalTrimmed r.names = some name →
        parseBrowserCommand m = .ok (r.command name)) ∧
      (r.names ≠ none → optionalTrimmed r.names = none → (∀ w, r ≠ .terminateSession w) →
        ∃ e, parseBrowserCommand m = .error e) := by
  -- the name of a request, read by the envelope and once more by the command
  have hagain : ∀ value name, optionalTrimmed value = some name →
      optionalTrimmed (some name) = some name := fun _ _ => optionalTrimmed_self
  have hmask := optionalTrimmed_encodeMask
  have henable : optionalTrimmed (some "enable") = some "enable" := by decide
  -- the id is known and its data is not rewritten
  have hid : optionalTrimmed (some r.message.id) = some r.message.id := by
    have hknown : ∀ id ∈ knownMessageIds, optionalTrimmed (some id) = some id := by decide
    exact hknown _ r.message_id_mem
  have hdata : canonicalizePayload wire r.message.id (optionalTrimmed r.message.data) =
      .ok (optionalTrimmed r.message.data) := by
    cases hd : optionalTrimmed r.message.data with
    | none => rfl
    | some payload =>
      rw [canonicalizePayload_some]
      cases r <;> rfl
  refine ⟨⟨r.message.id, optionalTrimmed r.message.data, optionalTrimmed r.message.sessionId⟩,
    parse_messageText hwire halike hid hdata, ?_⟩
  cases r with
  | getGames => exact ⟨fun _ => rfl, nofun, fun h => absurd rfl h⟩
  | initWebrtc w =>
    refine ⟨nofun,
      fun name (hname : optionalTrimmed (some w) = some name) => ?_,
      fun _ (hnone : optionalTrimmed (some w) = none) _ => ?_⟩
    · show forwardCommand ⟨_, none, optionalTrimmed (some w)⟩ .initWebrtc true = _
      rw [forwardCommand, hname, requiredTarget_some (hagain _ _ hname)]
      rfl
    · refine ⟨.missingTarget SignalIds.initWebrtc, ?_⟩
      show forwardCommand ⟨_, none, optionalTrimmed (some w)⟩ .initWebrtc true = _
      rw [forwardCommand, hnone]
      rfl
  | input w mask =>
    refine ⟨nofun,
      fun name (hname : optionalTrimmed (some w) = some name) => ?_,
      fun _ (hnone : optionalTrimmed (some w) = none) _ => ?_⟩
    · show forwardCommand ⟨_, optionalTrimmed (some _), optionalTrimmed (some w)⟩ .input false = _
      rw [forwardCommand, hname, hmask, requiredTarget_some (hagain _ _ hname)]
      rfl
    · refine ⟨.missingTarget SignalIds.input, ?_⟩
      show forwardCommand ⟨_, optionalTrimmed (some _), optionalTrimmed (some w)⟩ .input false = _
      rw [forwardCommand, hnone]
      rfl
  | terminateSession w =>
    refine ⟨nofun,
      fun name (hname : optionalTrimmed (some w) = some name) => ?_, fun _ _ h => absurd rfl (h w)⟩
    refine (parse_terminateSession none (optionalTrimmed (some w))).trans ?_
    rw [hname, hagain _ _ hname]
    rfl
  | controllerHost w =>
    refine ⟨nofun,
      fun name (hname : optionalTrimmed (some w) = some name) => ?_,
      fun _ (hnone : optionalTrimmed (some w) = none) _ =>
        ⟨.missingTarget SignalIds.controllerHost, ?_⟩⟩
    · refine (parse_controllerHost none (optionalTrimmed (some w))).trans ?_
      rw [hname, requiredTarget_some (hagain _ _ hname)]
      rfl
    · refine (parse_controllerHost none (optionalTrimmed (some w))).trans ?_
      rw [hnone]
      rfl
  | controllerJoin code =>
    refine ⟨nofun,
      fun name (hname : optionalTrimmed (some code) = some name) => ?_,
      fun _ (hnone : optionalTrimmed (some code) = none) _ =>
        ⟨.missingPayload SignalIds.controllerJoin, ?_⟩⟩
    · refine (parse_controllerJoin (optionalTrimmed (some code)) none).trans ?_
      rw [hname, requiredPayload_some (hagain _ _ hname)]
      rfl
    · refine (parse_controllerJoin (optionalTrimmed (some code)) none).trans ?_
      rw [hnone]
      rfl
  | controllerInput host mask =>
    refine ⟨nofun,
      fun name (hname : optionalTrimmed (some host) = some name) => ?_,
      fun _ (hnone : optionalTrimmed (some host) = none) _ =>
        ⟨.missingTarget SignalIds.controllerInput, ?_⟩⟩
    · refine (parse_controllerInput (optionalTrimmed (some (encodeMaskBase64 mask)))
        (optionalTrimmed (some host))).trans ?_
      rw [hname, requiredTarget_some (hagain _ _ hname), hmask, requiredPayload_some (hmask mask)]
      rfl
    · refine (parse_controllerInput (optionalTrimmed (some (encodeMaskBase64 mask)))
        (optionalTrimmed (some host))).trans ?_
      rw [hnone]
      rfl
  | controllerAudio host =>
    refine ⟨nofun,
      fun name (hname : optionalTrimmed (some host) = some name) => ?_,
      fun _ (hnone : optionalTrimmed (some host) = none) _ =>
        ⟨.missingTarget SignalIds.controllerAudio, ?_⟩⟩
    · refine (parse_controllerAudio (optionalTrimmed (some "enable"))
        (optionalTrimmed (some host))).trans ?_
      rw [hname, requiredTarget_some (hagain _ _ hname), henable, requiredPayload_some henable]
      rfl
    · refine (parse_controllerAudio (optionalTrimmed (some "enable"))
        (optionalTrimmed (some host))).trans ?_
      rw [hnone]
      rfl

/-- **Requests are understood.**  A request that names no one, or someone by a name that is not
blank, is read as the command it means, with the name trimmed; the bytes of an input are those that
the data channel would carry. -/
theorem request_understood (hwire : wire.Lawful) (halike : PrintsAlike wire printNumber)
    (r : Request) (hname : ∀ s, r.names = some s → trim s ≠ "") :
    (parseMessageText wire (messageText printNumber r.message)).toOption.map parseBrowserCommand =
        some (.ok (r.command (trim (r.names.getD "")))) ∧
      ∀ mask, Base64Codec.standard.decode (encodeMaskBase64 mask) = some (inputPacket mask) := by
  refine ⟨?_, fun mask => Base64Codec.standard_lawful.decode_encode _⟩
  obtain ⟨m, hread, hnone, hsome, -⟩ := parse_request hwire halike r
  rw [hread]
  refine congrArg some ?_
  cases hn : r.names with
  | none =>
    rw [hnone hn]
    cases r <;> first | rfl | cases hn
  | some s =>
    rw [hsome (trim s) (by rw [hn, optionalTrimmed, if_neg (hname s hn)]), Option.getD_some]

end Requests

/-- The mask of a phone is read as such. -/
theorem request_understood_mask :
    (parseMessageText flatWire (messageText (fun _ : Unit => [])
      (Request.controllerInput " h" 5).message)).toOption.map parseBrowserCommand =
        some (.ok (.controllerInput "h" "BQA=")) :=
  (request_understood flatWire_lawful (printsAlike_flat _) (.controllerInput " h" 5)
    (by rintro s ⟨⟩; decide)).1

/-! ## Messages of the server -/

section ServerMessages

variable {fields : List (String × String)}

theorem jsField_stringObject (hd : (fields.map Prod.fst).Nodup) {key s : String}
    (hf : (key, s) ∈ fields) :
    jsField key (Js.stringObject fields : JsonValue μ) = some (.string s) := by
  refine jsField_eq_some (List.mem_map.mpr ⟨(key, s), hf, rfl⟩) fun w hw => ?_
  obtain ⟨⟨key', t⟩, hmem, heq⟩ := List.mem_map.mp hw
  obtain ⟨rfl, rfl⟩ : key' = key ∧ w = .string t := by
    cases heq
    exact ⟨rfl, rfl⟩
  have hsame := List.inj_on_of_nodup_map hd hmem hf rfl
  rw [(Prod.mk.inj hsame).2]

theorem jsField_stringObject_none {key : String} (hk : key ∉ fields.map Prod.fst) :
    jsField key (Js.stringObject fields : JsonValue μ) = none := by
  refine jsField_eq_none fun w hw => ?_
  obtain ⟨f, hmem, heq⟩ := List.mem_map.mp hw
  exact hk (List.mem_map.mpr ⟨f, hmem, congrArg Prod.fst heq⟩)

/-- The portal reads a message of the server as its id, its data, or the empty text, and its
target. -/
theorem parseSignalMessage_serialize (pf : RtcPlatform) {readNumber : List Char → pf.Number}
    {printNumber : pf.Number → List Char} (hparse : pf.jsonParse = Js.jsonParse readNumber)
    {wire : WireCodecs ν} (halike : PrintsAlike wire printNumber) {m : SignalMessage}
    (hid : m.id ∈ knownMessageIds) :
    parseSignalMessage pf (.text (m.serialize wire)) =
      some ⟨m.id, m.data.getD "", m.sessionId⟩ := by
  have hd := fields_nodup m
  have hread : pf.jsonParse (m.serialize wire) = some (Js.stringObject m.fields) := by
    rw [hparse, SignalMessage.serialize, halike.structToString]
    exact Js.jsonParse_jsonStringify readNumber printNumber (Js.plain_stringObject m.fields)
  have hname : jsField "id" (Js.stringObject m.fields : JsonValue pf.Number) =
      some (.string m.id) := jsField_stringObject hd (by simp [SignalMessage.fields])
  have hdata : ((jsField "data" (Js.stringObject m.fields : JsonValue pf.Number)).bind
      JsonValue.asStr) = m.data := by
    cases h : m.data with
    | none =>
      rw [jsField_stringObject_none (by cases m.sessionId <;> simp [SignalMessage.fields, h])]
      rfl
    | some data =>
      rw [jsField_stringObject hd (s := data) (by simp [SignalMessage.fields, h])]
      rfl
  have htarget : ((jsField "sessionID" (Js.stringObject m.fields : JsonValue pf.Number)).bind
      JsonValue.asStr) = m.sessionId := by
    cases h : m.sessionId with
    | none =>
      rw [jsField_stringObject_none (by cases m.data <;> simp [SignalMessage.fields, h])]
      rfl
    | some target =>
      rw [jsField_stringObject hd (s := target) (by simp [SignalMessage.fields, h])]
      rfl
  have hasStr : (some (.string m.id : JsonValue pf.Number)).bind JsonValue.asStr = some m.id := rfl
  simp only [parseSignalMessage, Option.bind_eq_bind, Option.bind_some, hread, hname, hasStr,
    if_pos hid, hdata, htarget]

/-- Scripts whose numbers all look alike. -/
def plainPlatform : RtcPlatform where
  Number := Unit
  Description := JsonValue Unit
  Candidate := JsonValue Unit
  jsonParse := Js.jsonParse fun _ => ()
  textDecode bytes := (fromUtf8 bytes).getD ""
  sessionDescription data := (atob data).bind (Js.jsonParse fun _ => ())
  iceCandidate data := (atob data).bind (Js.jsonParse fun _ => ())
  answerData sdp := btoa (descriptionText (fun _ : Unit => []) true "answer" sdp)

theorem onBehalf_known {log : List ServerEvent} {m : SignalMessage} (h : OnBehalf log m) :
    m.id ∈ knownMessageIds := by
  rcases h with hserver | ⟨c, cmd, event, data, -, -, rfl⟩
  · have hknown : ∀ id ∈ serverIds, id ∈ knownMessageIds := by decide
    exact hknown _ hserver
  · show event.signalId ∈ knownMessageIds
    cases event <;> decide

/-- **Messages of the server are understood.**  Whatever the tasks of the connections do, the portal
reads every message on a queue as the id, the data, or the empty text, and the target it has. -/
theorem serverMessage_understood (pf : RtcPlatform) {readNumber : List Char → pf.Number}
    {printNumber : pf.Number → List Char} (hparse : pf.jsonParse = Js.jsonParse readNumber)
    {wire : WireCodecs ν} (halike : PrintsAlike wire printNumber) {cfg : Config}
    {as : List ServerAction} {s : Server} (h : Run (Server.step cfg) Server.init as s) {tx : Tx}
    {m : SignalMessage} (hmem : .message m ∈ s.shared.queues tx) :
    parseSignalMessage pf (.text (m.serialize wire)) =
      some ⟨m.id, m.data.getD "", m.sessionId⟩ :=
  parseSignalMessage_serialize pf hparse halike
    (onBehalf_known ((forwardInv_run h).queues tx m hmem))

/-- A worker reads the input that is relayed to it, and so would the portal. -/
theorem serverMessage_understood_relayed :
    parseSignalMessage plainPlatform
        (.text ((⟨"input", some "1", some "browser"⟩ : SignalMessage).serialize flatWire)) =
      some ⟨"input", "1", some "browser"⟩ := by
  have hrun : ∃ s, Run (Server.step plainConfig) Server.init relayRun s ∧
      .message ⟨"input", some "1", some "browser"⟩ ∈ s.shared.queues "worker" :=
    execWhen_any (by decide +kernel)
  obtain ⟨s, hs, hmem⟩ := hrun
  exact serverMessage_understood plainPlatform rfl (printsAlike_flat fun _ => []) hs hmem

end ServerMessages

/-! ## Session descriptions on their way -/

section Descriptions

theorem descriptionFields_nodup (typeFirst : Bool) (type sdp : String) :
    ((descriptionFields typeFirst type sdp).map Prod.fst).Nodup := by
  cases typeFirst <;> simp [descriptionFields]

theorem ofStrings_descriptionFields (typeFirst : Bool) (type sdp : String) :
    (JsonMap.ofStrings (descriptionFields typeFirst type sdp) : JsonMap ν) =
      JsonMap.ofStrings (descriptionFields false type sdp) := by
  have hafter : ¬ "type" < "sdp" := by decide
  have hbefore : "sdp" < "type" := by decide
  have hne : "type" ≠ "sdp" := by decide
  cases typeFirst with
  | false => rfl
  | true =>
    refine JsonMap.ext ?_
    show insertEntry "sdp" _ [("type", _)] = insertEntry "type" _ [("sdp", _)]
    rw [insertEntry, if_pos hbefore, insertEntry, if_neg hafter, if_neg hne, insertEntry]

variable {wire : WireCodecs ν} {printNumber : μ → List Char}

/-- The payload of a description is rewritten to the one whose fields are in order. -/
theorem canonicalize_description (hwire : wire.Lawful) (halike : PrintsAlike wire printNumber)
    (typeFirst : Bool) (id type sdp : String)
    (hid : payloadShape id = some (.sessionDescription type)) :
    canonicalizePayload wire id (some (wire.base64.encode
        (toBytes (descriptionText printNumber typeFirst type sdp)))) =
      .ok (some (wire.base64.encode
        (toBytes (descriptionText printNumber false type sdp)))) := by
  have hread := halike.fromSlice _ (descriptionFields_nodup typeFirst type sdp)
  have htyped : (PayloadShape.sessionDescription type).IsComplete
      (JsonMap.ofStrings (descriptionFields typeFirst type sdp) : JsonMap ν) := by
    intro _
    have hmem : ("type", type) ∈ descriptionFields typeFirst type sdp := by
      cases typeFirst <;> simp [descriptionFields]
    rw [JsonMap.containsKey,
      JsonMap.get_ofStrings (f := ("type", type)) (descriptionFields_nodup typeFirst type sdp) hmem]
    rfl
  have hnorm : normalizePayload wire (.sessionDescription type) id (decodePayloadOrRaw wire
      (wire.base64.encode (toBytes (descriptionText printNumber typeFirst type sdp)))) =
      .ok (.ofStrings (descriptionFields typeFirst type sdp)) := by
    rw [decodePayload_base64 hwire]
    unfold normalizePayload descriptionText
    simp only [hread, Json.view_object, PayloadShape.complete_eq_self htyped]
  have hprint : wire.json.toVec (.object (.ofStrings (descriptionFields typeFirst type sdp))) =
      .ok (toBytes (descriptionText printNumber false type sdp)) := by
    rw [ofStrings_descriptionFields]
    exact halike.toVec _ (List.pairwise_pair.mpr (by decide : "sdp" < "type"))
  rw [canonicalizePayload_some, hid]
  show some <$> canonicalizeShape wire (.sessionDescription type) id _ = _
  rw [canonicalizeShape_eq_ok.mpr ⟨_, _, hnorm, hprint, rfl⟩]
  rfl

/-! ### From the worker to the portal -/

/-- The offer that `create_session` sends. -/
def offerMessage (wire : WireCodecs ν) (clientId sdp : String) : SignalMessage :=
  ⟨SignalIds.offer, some (wire.base64.encode
    (toBytes (wire.json.structToString (descriptionFields true "offer" sdp)))), some clientId⟩

/-- What the server sends on of a message of a worker. -/
def relayToClient (wire : WireCodecs ν) (text : String) : Option String := do
  let m ← (parseMessageText wire text).toOption
  match parseWorkerCommand m with
  | .ok (.forwardToClient clientId event data) =>
    some ((forwardToClientMessage event clientId data).serialize wire)
  | _ => none

/-- `JSON.parse(atob(data))` -/
def readDescription (pf : RtcPlatform) (data : String) : Option (JsonValue pf.Number) :=
  (atob data).bind pf.jsonParse

/-- **An offer crosses.**  The portal reads an offer of the worker for a client as an object of the
type `offer`, whose SDP is that of the worker exactly if that is ASCII. -/
theorem offer_arrives (pf : RtcPlatform) {readNumber : List Char → pf.Number}
    {printNumber : pf.Number → List Char} (hparse : pf.jsonParse = Js.jsonParse readNumber)
    {wire : WireCodecs ν} (hwire : wire.Lawful) (halike : PrintsAlike wire printNumber)
    (hbase64 : wire.base64 = .standard) {clientId : String}
    (hclient : optionalTrimmed (some clientId) = some clientId) (sdp : String) :
    ∃ text data description,
      relayToClient wire ((offerMessage wire clientId sdp).serialize wire) = some text ∧
      parseSignalMessage pf (.text text) = some ⟨SignalIds.offer, data, some clientId⟩ ∧
      readDescription pf data = some description ∧
      jsField "type" description = some (.string "offer") ∧
      (jsField "sdp" description = some (.string sdp) ↔ ∀ c ∈ sdp.toList, IsAscii c) := by
  have hne : ∀ typeFirst, toBytes (descriptionText printNumber typeFirst "offer" sdp) ≠ [] :=
    fun _ => toBytes_ne_nil (Js.jsonStringify_ne_empty printNumber (Js.plain_stringObject _))
  have hcanon := canonicalize_description hwire halike true SignalIds.offer "offer" sdp rfl
  rw [hbase64] at hcanon
  let data := Base64Codec.standard.encode
    (toBytes (descriptionText printNumber false "offer" sdp))
  -- the server reads the offer with its payload rewritten
  have hoffer : (offerMessage wire clientId sdp).serialize wire =
      messageText printNumber ⟨SignalIds.offer, some (Base64Codec.standard.encode
        (toBytes (descriptionText printNumber true "offer" sdp))), some clientId⟩ := by
    rw [SignalMessage.serialize, offerMessage, halike.structToString, halike.structToString,
      hbase64]
    rfl
  have hserver : parseMessageText wire ((offerMessage wire clientId sdp).serialize wire) =
      .ok ⟨SignalIds.offer, some data, some clientId⟩ := by
    have hid : optionalTrimmed (some SignalIds.offer) = some SignalIds.offer := by decide
    have hdata : canonicalizePayload wire SignalIds.offer (optionalTrimmed (some
        (Base64Codec.standard.encode (toBytes (descriptionText printNumber true "offer" sdp))))) =
          .ok (some data) := by
      rw [optionalTrimmed_encode (hne true), hcanon]
    rw [hoffer, parse_messageText hwire halike hid hdata, hclient]
  have hcommand : parseWorkerCommand ⟨SignalIds.offer, some data, some clientId⟩ =
      .ok (.forwardToClient clientId .offer (some data)) := by
    show (requiredTarget SignalIds.offer (some clientId) >>= fun _ => _) = _
    rw [requiredTarget_some hclient]
    rfl
  -- the portal decodes it byte by byte
  have hdecode : atob data = some (Js.jsonStringify printNumber
      (Js.stringObject [("sdp", latin1 (toBytes sdp)), ("type", "offer")])) := by
    have hkeys : latin1Fields (descriptionFields false "offer" sdp) =
        [("sdp", latin1 (toBytes sdp)), ("type", "offer")] := by
      have hsdp : latin1 (toBytes "sdp") = "sdp" :=
        latin1_toBytes_eq_self.mpr (ascii_of_all (by decide))
      have htype : latin1 (toBytes "type") = "type" :=
        latin1_toBytes_eq_self.mpr (ascii_of_all (by decide))
      have hoffer : latin1 (toBytes "offer") = "offer" :=
        latin1_toBytes_eq_self.mpr (ascii_of_all (by decide))
      simp [latin1Fields, descriptionFields, hsdp, htype, hoffer]
    rw [atob, Base64Codec.standard_lawful.decode_encode, Option.map_some, descriptionText,
      latin1_jsonStringify, hkeys]
  have hd : ([("sdp", latin1 (toBytes sdp)), ("type", "offer")].map Prod.fst).Nodup := by simp
  refine ⟨_, data, Js.stringObject [("sdp", latin1 (toBytes sdp)), ("type", "offer")], ?_,
    parseSignalMessage_serialize pf hparse halike
      (m := forwardToClientMessage .offer clientId (some data))
      (by decide : SignalIds.offer ∈ knownMessageIds), ?_,
    jsField_stringObject hd (by simp), ?_⟩
  · unfold relayToClient
    rw [hserver]
    simp only [Except.toOption, Option.bind_eq_bind, Option.bind_some, hcommand]
  · rw [readDescription, hdecode, Option.bind_some, hparse]
    exact Js.jsonParse_jsonStringify readNumber printNumber (Js.plain_stringObject _)
  · rw [jsField_stringObject hd (s := latin1 (toBytes sdp)) (by simp), ← latin1_toBytes_eq_self]
    simp

theorem offer_arrives_sdp :
    ∃ text data description,
      relayToClient flatWire ((offerMessage flatWire "c" "v=0\r\n").serialize flatWire) =
        some text ∧
      parseSignalMessage plainPlatform (.text text) = some ⟨SignalIds.offer, data, some "c"⟩ ∧
      readDescription plainPlatform data = some description ∧
      jsField "type" description = some (.string "offer") ∧
      jsField "sdp" description = some (.string "v=0\r\n") := by
  have hclient : optionalTrimmed (some "c") = some "c" := by decide
  obtain ⟨text, data, description, hrelay, hread, hdecode, htype, hsdp⟩ :=
    offer_arrives plainPlatform rfl flatWire_lawful (printsAlike_flat fun _ => []) rfl hclient
      "v=0\r\n"
  exact ⟨text, data, description, hrelay, hread, hdecode, htype,
    hsdp.mpr (ascii_of_all (by decide))⟩

/-! ### From the portal to the worker -/

/-- The answer that the runtime sends, unless `btoa` throws. -/
def answerMessage (printNumber : μ → List Char) (typeFirst : Bool) (workerID sdp : String) :
    Option SignalMessage :=
  (btoa (descriptionText printNumber typeFirst "answer" sdp)).map fun data =>
    buildSignalingMessage SignalIds.answer (some data) (some workerID)

/-- What the server sends on of a message of a browser, and to which worker. -/
def relayToWorker (wire : WireCodecs ν) (clientId text : String) : Option (String × String) := do
  let m ← (parseMessageText wire text).toOption
  match parseBrowserCommand m with
  | .ok (.forwardToWorker workerId event data _) =>
    some (workerId, (forwardToWorkerMessage event clientId data).serialize wire)
  | _ => none

/-- A field that may be missing or null; the value is `none` where it is anything else. -/
def optionalField (object : JsonMap ν) (key : String) : Option (Option String) :=
  match object.get key with
  | none => some none
  | some .null => some none
  | some (.string s) => some (some s)
  | some _ => none

/-- `serde_json::from_str::<SignalMessage>`, of an object. -/
def readSignalMessage (wire : WireCodecs ν) (text : String) : Option SignalMessage := do
  let value ← (wire.json.fromStr text).toOption
  let object ← value.asObject
  let id ← (object.get "id").bind JsonValue.asStr
  let data ← optionalField object "data"
  let target ← optionalField object "sessionID"
  return ⟨id, data, target⟩

/-- The type and the SDP of a payload.  Any text is taken for a type: which of them `RTCSdpType` of
the crate `webrtc` reads is outside, and `answer` is the one the portal sends. -/
def decodeSessionDescriptionPayload (wire : WireCodecs ν) (payload : String) :
    Option (String × String) := do
  let raw ← wire.base64.decode payload
  let value ← (wire.json.fromSlice raw).toOption
  let object ← value.asObject
  let type ← (object.get "type").bind JsonValue.asStr
  let sdp ← (object.get "sdp").bind JsonValue.asStr
  return (type, sdp)

theorem optionalField_fields {m : SignalMessage} {key : String} {value : Option String}
    (hsome : ∀ s, value = some s → (key, s) ∈ m.fields)
    (hnone : value = none → key ∉ m.fields.map Prod.fst) :
    optionalField (JsonMap.ofStrings m.fields : JsonMap ν) key = some value := by
  cases value with
  | none => rw [optionalField, JsonMap.get_ofStrings_none (hnone rfl)]
  | some s =>
    rw [optionalField, JsonMap.get_ofStrings (f := (key, s)) (fields_nodup m) (hsome s rfl)]

/-- What the server serializes the worker reads as it was. -/
theorem readSignalMessage_serialize (hwire : wire.Lawful) (m : SignalMessage) :
    readSignalMessage wire (m.serialize wire) = some m := by
  have hid : (JsonMap.ofStrings m.fields : JsonMap ν).get "id" = some (.string m.id) :=
    JsonMap.get_ofStrings (f := ("id", m.id)) (fields_nodup m) (by simp [SignalMessage.fields])
  have hdata : optionalField (JsonMap.ofStrings m.fields : JsonMap ν) "data" = some m.data := by
    refine optionalField_fields (fun s hs => by simp [SignalMessage.fields, hs]) fun hnone => ?_
    cases m.sessionId <;> simp [SignalMessage.fields, hnone]
  have htarget : optionalField (JsonMap.ofStrings m.fields : JsonMap ν) "sessionID" =
      some m.sessionId := by
    refine optionalField_fields (fun s hs => by simp [SignalMessage.fields, hs]) fun hnone => ?_
    cases m.data <;> simp [SignalMessage.fields, hnone]
  have hasStr : (some (.string m.id : JsonValue ν)).bind JsonValue.asStr = some m.id := rfl
  unfold readSignalMessage SignalMessage.serialize
  rw [hwire.json.fromStr_structToString m.fields (fields_nodup m)]
  simp only [Except.toOption, Option.bind_eq_bind, Option.bind_some, Json.asObject_object, hid,
    hasStr, hdata, htarget]
  rfl

theorem decodeSessionDescription_text (hwire : wire.Lawful) (halike : PrintsAlike wire printNumber)
    (type sdp : String) :
    decodeSessionDescriptionPayload wire (wire.base64.encode
      (toBytes (descriptionText printNumber false type sdp))) = some (type, sdp) := by
  have hd := descriptionFields_nodup false type sdp
  have htype : (JsonMap.ofStrings (descriptionFields false type sdp) : JsonMap ν).get "type" =
      some (.string type) := JsonMap.get_ofStrings (f := ("type", type)) hd (by
    simp [descriptionFields])
  have hsdp : (JsonMap.ofStrings (descriptionFields false type sdp) : JsonMap ν).get "sdp" =
      some (.string sdp) := JsonMap.get_ofStrings (f := ("sdp", sdp)) hd (by
    simp [descriptionFields])
  have hasStr : ∀ s : String, (some (.string s : JsonValue ν)).bind JsonValue.asStr = some s :=
    fun _ => rfl
  unfold decodeSessionDescriptionPayload descriptionText
  rw [hwire.base64.decode_encode]
  simp only [Option.bind_eq_bind, Option.bind_some, halike.fromSlice _ hd, Except.toOption,
    Json.asObject_object, htype, hsdp, hasStr]
  rfl

/-- **An answer crosses.**  An answer with an ASCII SDP is sent, in whatever order its fields are
printed, and the worker reads it as it was. -/
theorem answer_arrives (hwire : wire.Lawful) (halike : PrintsAlike wire printNumber)
    (hbase64 : wire.base64 = .standard) (typeFirst : Bool) {workerID sdp : String}
    (hworker : trim workerID ≠ "") (hsdp : ∀ c ∈ sdp.toList, IsAscii c) (clientId : String) :
    ∃ sent text received payload,
      answerMessage printNumber typeFirst workerID sdp = some sent ∧
      relayToWorker wire clientId (messageText printNumber sent) = some (trim workerID, text) ∧
      readSignalMessage wire text = some received ∧
      received = ⟨SignalIds.answer, some payload, some clientId⟩ ∧
      decodeSessionDescriptionPayload wire payload = some ("answer", sdp) := by
  have hascii : ∀ c ∈ (descriptionText printNumber typeFirst "answer" sdp).toList, IsAscii c := by
    refine isAscii_jsonStringify printNumber fun f hf => ?_
    have hf' : f = ("type", "answer") ∨ f = ("sdp", sdp) := by
      cases typeFirst
      · exact (List.mem_pair.mp hf).symm
      · exact List.mem_pair.mp hf
    rcases hf' with rfl | rfl
    · exact ⟨ascii_of_all (by decide), ascii_of_all (by decide)⟩
    · have hname : ∀ c ∈ "sdp".toList, IsAscii c := ascii_of_all (by decide)
      exact ⟨hname, hsdp⟩
  let sent := Base64Codec.standard.encode
    (toBytes (descriptionText printNumber typeFirst "answer" sdp))
  let payload := Base64Codec.standard.encode
    (toBytes (descriptionText printNumber false "answer" sdp))
  have hbtoa : btoa (descriptionText printNumber typeFirst "answer" sdp) = some sent := by
    have hlatin : (descriptionText printNumber typeFirst "answer" sdp).toList.all
        (fun c => c.toNat < 256) = true :=
      List.all_eq_true.mpr fun c hc =>
        decide_eq_true (Nat.lt_trans (hascii c hc) (by decide))
    rw [btoa, if_pos hlatin, ← toBytes_ascii hascii]
  have hcanon := canonicalize_description hwire halike typeFirst SignalIds.answer "answer" sdp rfl
  rw [hbase64] at hcanon
  have hid : optionalTrimmed (some SignalIds.answer) = some SignalIds.answer := by decide
  have hne : toBytes (descriptionText printNumber typeFirst "answer" sdp) ≠ [] :=
    toBytes_ne_nil (Js.jsonStringify_ne_empty printNumber (Js.plain_stringObject _))
  have hread : optionalTrimmed (some workerID) = some (trim workerID) := if_neg hworker
  have hagain := optionalTrimmed_self hread
  -- the server reads the answer with its payload rewritten
  have hserver : parseMessageText wire (messageText printNumber
      (buildSignalingMessage SignalIds.answer (some sent) (some workerID))) =
      .ok ⟨SignalIds.answer, some payload, some (trim workerID)⟩ := by
    have hdata : canonicalizePayload wire SignalIds.answer (optionalTrimmed (some sent)) =
        .ok (some payload) := by
      rw [optionalTrimmed_encode hne, hcanon]
    rw [buildSignalingMessage, parse_messageText hwire halike hid hdata, hread]
  have hcommand : parseBrowserCommand ⟨SignalIds.answer, some payload, some (trim workerID)⟩ =
      .ok (.forwardToWorker (trim workerID) .answer (some payload) false) := by
    show forwardCommand ⟨SignalIds.answer, some payload, some (trim workerID)⟩ .answer false = _
    rw [forwardCommand, requiredTarget_some hagain]
    rfl
  refine ⟨buildSignalingMessage SignalIds.answer (some sent) (some workerID), _, _, payload, ?_, ?_,
    readSignalMessage_serialize hwire (forwardToWorkerMessage .answer clientId (some payload)),
    rfl, ?_⟩
  · rw [answerMessage, hbtoa, Option.map_some]
  · unfold relayToWorker
    rw [hserver]
    simp only [Except.toOption, Option.bind_eq_bind, Option.bind_some, hcommand]
  · have hdecode := decodeSessionDescription_text hwire halike "answer" sdp
    rwa [hbase64] at hdecode

end Descriptions

theorem answer_arrives_sdp :
    ∃ sent text received payload,
      answerMessage (fun _ : Unit => []) true "w" "v=0\r\n" = some sent ∧
      relayToWorker flatWire "c" (messageText (fun _ : Unit => []) sent) = some ("w", text) ∧
      readSignalMessage flatWire text = some received ∧
      received = ⟨SignalIds.answer, some payload, some "c"⟩ ∧
      decodeSessionDescriptionPayload flatWire payload = some ("answer", "v=0\r\n") := by
  have hworker : trim "w" ≠ "" := by decide
  exact answer_arrives flatWire_lawful (printsAlike_flat _) rfl true hworker
    (ascii_of_all (by decide)) "c"

end CloudGame.Portal
