import CloudGame.Lib.Text

/-!
# Signaling messages and commands (`arcade-signal/src/protocol.rs`, `arcade-signal-protocol`)

An envelope `SignalMessage` has an id, optional data and an optional routing target (`sessionID` on
the wire).  `parseBrowserCommand` and `parseWorkerCommand` turn an envelope into the command of a
browser or of a worker, or into the error the server logs; the `…Message` functions build the
envelopes the server sends.
-/

namespace CloudGame.Signal

open CloudGame.Lib

structure SignalMessage where
  id : String
  data : Option String
  sessionId : Option String
deriving DecidableEq

/-! ## Message ids (`ids.rs`) -/

namespace SignalIds

def games : String := "games"
def getGames : String := "getGames"
def gameInfo : String := "gameInfo"
def updatePlayerCount : String := "updatePlayerCount"
def initWebrtc : String := "initwebrtc"
def offer : String := "offer"
def answer : String := "answer"
def candidate : String := "candidate"
def joinRoom : String := "joinRoom"
def terminateSession : String := "terminateSession"
def input : String := "input"
def controllerHost : String := "controllerHost"
def controllerReady : String := "controllerReady"
def controllerJoin : String := "controllerJoin"
def controllerJoined : String := "controllerJoined"
def controllerLeft : String := "controllerLeft"
def controllerRejected : String := "controllerRejected"
def controllerInput : String := "controllerInput"
def controllerAudio : String := "controllerAudio"

end SignalIds

/-! ## Commands -/

inductive WorkerEventKind where
  | initWebrtc
  | answer
  | candidate
  | joinRoom
  | input
deriving DecidableEq

def WorkerEventKind.signalId : WorkerEventKind → String
  | .initWebrtc => SignalIds.initWebrtc
  | .answer => SignalIds.answer
  | .candidate => SignalIds.candidate
  | .joinRoom => SignalIds.joinRoom
  | .input => SignalIds.input

inductive ClientEventKind where
  | offer
  | candidate
deriving DecidableEq

def ClientEventKind.signalId : ClientEventKind → String
  | .offer => SignalIds.offer
  | .candidate => SignalIds.candidate

inductive BrowserCommand where
  | requestGames
  | forwardToWorker (workerId : String) (event : WorkerEventKind) (data : Option String)
      (bindClient : Bool)
  | terminateSession (workerId : Option String)
  | controllerHost (workerId : String)
  | controllerJoin (code : String)
  | controllerInput (hostClientId data : String)
  | controllerAudio (hostClientId action : String)
deriving DecidableEq

inductive WorkerCommand where
  | gameInfo (gameName : Option String)
  | forwardToClient (clientId : String) (event : ClientEventKind) (data : Option String)
  | updatePlayerCount (count : Nat)
deriving DecidableEq

/-- The errors of the two command parsers. -/
inductive ProtocolError where
  | unknownBrowserMessage (id : String)
  | unknownWorkerMessage (id : String)
  | missingTarget (id : String)
  | missingPayload (id : String)
  | invalidPlayerCount (raw : Option String)
deriving DecidableEq

/-- `optional_target` and `optional_payload`: the trimmed text, if any is left. -/
def optionalTrimmed (value : Option String) : Option String :=
  match value with
  | none => none
  | some value => if trim value = "" then none else some (trim value)

def requiredTarget (id : String) (sessionId : Option String) : Except ProtocolError String :=
  match optionalTrimmed sessionId with
  | some target => .ok target
  | none => .error (.missingTarget id)

def requiredPayload (id : String) (payload : Option String) : Except ProtocolError String :=
  match optionalTrimmed payload with
  | some payload => .ok payload
  | none => .error (.missingPayload id)

/-- A message of the browser to its worker. -/
def forwardCommand (req : SignalMessage) (event : WorkerEventKind) (bindClient : Bool) :
    Except ProtocolError BrowserCommand := do
  let workerId ← requiredTarget req.id req.sessionId
  return .forwardToWorker workerId event req.data bindClient

def parseBrowserCommand (req : SignalMessage) : Except ProtocolError BrowserCommand :=
  if req.id = SignalIds.getGames then .ok .requestGames
  else if req.id = SignalIds.initWebrtc then forwardCommand req .initWebrtc true
  else if req.id = SignalIds.answer then forwardCommand req .answer false
  else if req.id = SignalIds.candidate then forwardCommand req .candidate false
  else if req.id = SignalIds.joinRoom then forwardCommand req .joinRoom true
  else if req.id = SignalIds.input then forwardCommand req .input false
  else if req.id = SignalIds.terminateSession then
    .ok (.terminateSession (optionalTrimmed req.sessionId))
  else if req.id = SignalIds.controllerHost then do
    let workerId ← requiredTarget req.id req.sessionId
    return .controllerHost workerId
  else if req.id = SignalIds.controllerJoin then do
    let code ← requiredPayload req.id req.data
    return .controllerJoin code
  else if req.id = SignalIds.controllerInput then do
    let hostClientId ← requiredTarget req.id req.sessionId
    let data ← requiredPayload req.id req.data
    return .controllerInput hostClientId data
  else if req.id = SignalIds.controllerAudio then do
    let hostClientId ← requiredTarget req.id req.sessionId
    let action ← requiredPayload req.id req.data
    return .controllerAudio hostClientId action
  else .error (.unknownBrowserMessage req.id)

def forwardToClientCommand (req : SignalMessage) (event : ClientEventKind) :
    Except ProtocolError WorkerCommand := do
  let clientId ← requiredTarget req.id req.sessionId
  return .forwardToClient clientId event req.data

def parseWorkerCommand (req : SignalMessage) : Except ProtocolError WorkerCommand :=
  if req.id = SignalIds.gameInfo then .ok (.gameInfo req.data)
  else if req.id = SignalIds.offer then forwardToClientCommand req .offer
  else if req.id = SignalIds.candidate then forwardToClientCommand req .candidate
  else if req.id = SignalIds.updatePlayerCount then
    match req.data.bind fun raw => parseUsize (trim raw) with
    | some count => .ok (.updatePlayerCount count)
    | none => .error (.invalidPlayerCount req.data)
  else .error (.unknownWorkerMessage req.id)

/-! ## Which commands bind -/

/-- A result that is no command to bind, or binds for `initwebrtc` or `joinRoom`. -/
def BindsForInit (result : Except ProtocolError BrowserCommand) : Prop :=
  ∀ w event data, result = .ok (.forwardToWorker w event data true) →
    event = .initWebrtc ∨ event = .joinRoom

theorem BindsForInit.ite {p : Prop} [Decidable p] {a b : Except ProtocolError BrowserCommand}
    (ha : BindsForInit a) (hb : BindsForInit b) : BindsForInit (if p then a else b) := by
  split
  · exact ha
  · exact hb

theorem bindsForInit_forwardCommand {req : SignalMessage} {event : WorkerEventKind}
    {bindClient : Bool} (hb : bindClient = true → event = .initWebrtc ∨ event = .joinRoom) :
    BindsForInit (forwardCommand req event bindClient) := by
  intro w event' data h
  unfold forwardCommand at h
  cases ht : requiredTarget req.id req.sessionId with
  | error e => rw [ht] at h; cases h
  | ok w' => rw [ht] at h; cases h; exact hb rfl

/-- A command made of fields that are present. -/
theorem bindsForInit_bind {α : Type} {field : Except ProtocolError α}
    {f : α → Except ProtocolError BrowserCommand} (hf : ∀ a, BindsForInit (f a)) :
    BindsForInit (field >>= f) := by
  cases field with
  | error e => intro w event data h; cases h
  | ok a => exact hf a

/-- Only `initwebrtc` and `joinRoom` bind the client. -/
theorem bindsForInit_parse (req : SignalMessage) : BindsForInit (parseBrowserCommand req) := by
  have hother : ∀ cmd : BrowserCommand, (∀ w event data, cmd ≠ .forwardToWorker w event data true) →
      BindsForInit (.ok cmd) := by
    intro cmd hne w event data h
    cases h
    exact absurd rfl (hne w event data)
  unfold parseBrowserCommand
  refine .ite (hother _ fun _ _ _ => by simp) ?_
  refine .ite (bindsForInit_forwardCommand fun _ => Or.inl rfl) ?_
  refine .ite (bindsForInit_forwardCommand fun h => by cases h) ?_
  refine .ite (bindsForInit_forwardCommand fun h => by cases h) ?_
  refine .ite (bindsForInit_forwardCommand fun _ => Or.inr rfl) ?_
  refine .ite (bindsForInit_forwardCommand fun h => by cases h) ?_
  refine .ite (hother _ fun _ _ _ => by simp) ?_
  refine .ite (bindsForInit_bind fun w => hother _ fun _ _ _ => by simp) ?_
  refine .ite (bindsForInit_bind fun code => hother _ fun _ _ _ => by simp) ?_
  refine .ite
    (bindsForInit_bind fun h => bindsForInit_bind fun d => hother _ fun _ _ _ => by simp) ?_
  refine .ite
    (bindsForInit_bind fun h => bindsForInit_bind fun d => hother _ fun _ _ _ => by simp) ?_
  intro w event data h
  cases h

/-! ## Messages of the server -/

def gamesMessage (payload : String) : SignalMessage := ⟨SignalIds.games, some payload, none⟩

def terminateSessionMessage (clientId : String) : SignalMessage :=
  ⟨SignalIds.terminateSession, none, some clientId⟩

def forwardToWorkerMessage (event : WorkerEventKind) (clientId : String) (data : Option String) :
    SignalMessage :=
  ⟨event.signalId, data, some clientId⟩

def forwardToClientMessage (event : ClientEventKind) (clientId : String) (data : Option String) :
    SignalMessage :=
  ⟨event.signalId, data, some clientId⟩

def updatePlayerCountMessage (workerId : String) (count : Nat) : SignalMessage :=
  ⟨SignalIds.updatePlayerCount, some (toString count), some workerId⟩

def controllerReadyMessage (payload : String) : SignalMessage :=
  ⟨SignalIds.controllerReady, some payload, none⟩

def controllerJoinedMessage (peerClientId : String) : SignalMessage :=
  ⟨SignalIds.controllerJoined, none, some peerClientId⟩

def controllerLeftMessage (peerClientId : String) : SignalMessage :=
  ⟨SignalIds.controllerLeft, none, some peerClientId⟩

def controllerRejectedMessage (reason : String) : SignalMessage :=
  ⟨SignalIds.controllerRejected, some reason, none⟩

def controllerAudioMessage (controllerClientId action : String) : SignalMessage :=
  ⟨SignalIds.controllerAudio, some action, some controllerClientId⟩

inductive OutboundEvent where
  | message (msg : SignalMessage)
  | close
deriving DecidableEq

/-- The sending end of a connection's queue, named by the connection. -/
abbrev Tx : Type := String

end CloudGame.Signal
