import CloudGame.Lib.Run
import CloudGame.Worker.Room

/-!
# The tasks of a worker (`signal_router.rs`, `webrtc_session.rs`, `emulator_thread.rs`)

The signal router handles one message after the other.  A session instance has the callbacks of its
peer connection (state changes, messages on the input channel) and its video task, which leaves its
loop when the queue is closed or a write fails; an instance whose registration was refused has them
too.  The emulator thread takes inputs from the channel.

`WorkerState` is the room with all tasks, each the program it has still to run.  An action starts
the program of an idle task or lets a task perform its next operation.  What is assumed of the peer
connections is only that a state callback reports `Closed` after `close` was called, at any later
time, and `Failed` at any time.
-/

namespace CloudGame.Worker

open CloudGame.Lib CloudGame.Signal

/-- The library functions the worker uses: Base64 decoding, and the encoded local description of a
session's offer. -/
structure Codec where
  decode : String → Option Payload
  description : Session → String

/-! ## Sessions -/

/-- `create_session`; `ready` says whether the peer connection and its offer could be made.  When
the offer cannot be sent, the session stays registered. -/
def createSession (ready : Bool) (clientId : String) : RoomM Bool := do
  if ready then
    let session ← Call.newSession clientId
    if ← registerClientSession clientId session then
      let _slot ← Call.slotForClient session.id
      let sent ← Call.sendOffer session
      return sent
    else
      Call.closePeer session
      return false
  else
    return false

inductive PeerConnectionState where
  | new
  | connecting
  | connected
  | disconnected
  | failed
  | closed
deriving DecidableEq

/-- Closes the peer of a session that was taken out; the source spawns a task for it. -/
def closeRemoved (removed : Option Session) : RoomM Unit :=
  Prog.whenSome removed fun session => Call.closePeer session

/-- The callback for state changes of the peer connection. -/
def onPeerStateChange (session : Session) (state : PeerConnectionState) : RoomM Unit := do
  if state = .failed ∨ state = .closed then
    let removed ← unregisterClientSession session.id
    closeRemoved removed

/-- The callback for messages on the input channel. -/
def onInputMessage (session : Session) (data : Payload) : RoomM Unit := do
  if data ≠ [] then
    bufferOrSendInput session.id data

/-- The video task once it has left its loop. -/
def videoTaskEnd (session : Session) : RoomM Unit := do
  Call.closeQueue session
  let _removed ← unregisterClientSession session.id
  Call.closePeer session

/-! ## The signal router -/

/-- What `handle_answer` and `handle_candidate` do: the session is handed the signal, or the signal
waits for it. -/
def handleSessionSignal (msg : SignalMessage) : RoomM Unit :=
  Prog.whenSome (signalClientId msg) fun clientId =>
    Prog.whenSome (signalPayload msg) fun _ => do
      match ← Call.withClientSession clientId with
      | some session => Call.applySignal session msg
      | none => Call.enqueueSignal msg

def handleAnswer (msg : SignalMessage) : RoomM Unit := handleSessionSignal msg

def handleCandidate (msg : SignalMessage) : RoomM Unit := handleSessionSignal msg

def handleJoinRoom (msg : SignalMessage) : RoomM Unit :=
  Prog.whenSome (signalClientId msg) fun clientId => do
    let _index ← joinRoom clientId

/-- An input that does not decode is only logged. -/
def handleInput (codec : Codec) (msg : SignalMessage) : RoomM Unit :=
  Prog.whenSome (signalClientId msg) fun clientId =>
    Prog.whenSome (signalPayload msg) fun payload =>
      Prog.whenSome (codec.decode payload) fun values => bufferOrSendInput clientId values

def handleNonInitMessage (codec : Codec) (msg : SignalMessage) : RoomM Unit :=
  if msg.id = SignalIds.answer then handleAnswer msg
  else if msg.id = SignalIds.candidate then handleCandidate msg
  else if msg.id = SignalIds.joinRoom then handleJoinRoom msg
  else if msg.id = SignalIds.input then handleInput codec msg
  else return ()

def replayPendingSignals (codec : Codec) (clientId : String) : RoomM Unit := do
  let pending ← Call.drainSignals clientId
  Prog.each pending (handleNonInitMessage codec)

def handleInitWebrtc (codec : Codec) (ready : Bool) (msg : SignalMessage) : RoomM Unit :=
  Prog.whenSome (signalClientId msg) fun clientId => do
    if ← createSession ready clientId then
      replayPendingSignals codec clientId

def handleTerminateSession (msg : SignalMessage) : RoomM Unit :=
  Prog.whenSome (signalClientId msg) fun clientId => do
    Call.clearSignals clientId
    releaseInputSource clientId
    let removed ← unregisterClientSession clientId
    closeRemoved removed

def handleMessage (codec : Codec) (ready : Bool) (msg : SignalMessage) : RoomM Unit :=
  if msg.id = SignalIds.initWebrtc then handleInitWebrtc codec ready msg
  else if msg.id = SignalIds.terminateSession then handleTerminateSession msg
  else handleNonInitMessage codec msg

/-! ## The emulator thread -/

/-- What the emulator thread does with an input it took from the channel. -/
def handleInputEvent (input : InputEvent) : RoomM Unit := do
  match ← Call.slotForClient input.clientId with
  | some player => Call.updateInput player input.data
  | none => Call.queueClient input.clientId input.data

/-! ## The worker -/

inductive TaskId where
  | router
  | emulator
  | video (session : Session)
  /-- The `n`-th state callback of a session that may be running at a time. -/
  | peerState (session : Session) (n : Nat)
  /-- The `n`-th input callback of a session that may be running at a time. -/
  | channel (session : Session) (n : Nat)
deriving DecidableEq

structure WorkerState where
  room : RoomState
  tasks : TaskId → RoomM Unit
  /-- The sessions whose video task has left its loop. -/
  ended : List Session
  /-- The messages the router was handed, newest first; no step reads them. -/
  handled : List SignalMessage

inductive WorkerAction where
  | receive (msg : SignalMessage) (ready : Bool)
  | peerState (session : Session) (n : Nat) (state : PeerConnectionState)
  | inputMessage (session : Session) (n : Nat) (data : Payload)
  | videoEnds (session : Session) (writeFailed : Bool)
  | poll
  | run (id : TaskId)
  | emulatorFails
  /-- The task that writes the outbound queue to the socket ends. -/
  | outboundCloses
  | rehash (pendingSignals : PendingSessionSignals)

namespace WorkerState

def init : WorkerState := ⟨RoomState.init, fun _ => .ret (), [], []⟩

def setTask (w : WorkerState) (id : TaskId) (prog : RoomM Unit) : WorkerState :=
  { w with tasks := Function.update w.tasks id prog }

/-- The task an action starts and its program, with the worker the action leaves otherwise. -/
def starts (codec : Codec) (w : WorkerState) :
    WorkerAction → Option (TaskId × RoomM Unit × WorkerState)
  | .receive msg ready =>
    some (.router, handleMessage codec ready msg, { w with handled := msg :: w.handled })
  | .peerState session n state =>
    if session ∈ w.room.created ∧ (state = .closed → session ∈ w.room.closedPeers) then
      some (.peerState session n, onPeerStateChange session state, w)
    else none
  | .inputMessage session n data =>
    if session ∈ w.room.created then some (.channel session n, onInputMessage session data, w)
    else none
  | .videoEnds session writeFailed =>
    if session ∈ w.room.created ∧ session ∉ w.ended ∧
        (writeFailed = true ∨ session ∈ w.room.closedQueues) then
      some (.video session, videoTaskEnd session, { w with ended := session :: w.ended })
    else none
  | .poll =>
    match w.room.inputs with
    | some (input :: rest) =>
      some (.emulator, handleInputEvent input,
        { w with room := { w.room with inputs := some rest } })
    | _ => none
  | _ => none

def step (codec : Codec) (w : WorkerState) : WorkerAction → Option WorkerState
  | .run id =>
    ((w.tasks id).advance (RoomState.perform codec.description) w.room).map fun out =>
      { w.setTask id out.2 with room := out.1 }
  | .emulatorFails =>
    if (w.tasks .emulator).isDone then some { w with room := { w.room with inputs := none } }
    else none
  | .outboundCloses => some { w with room := { w.room with outboundClosed := true } }
  | .rehash pendingSignals =>
    if w.room.pendingSignals.Rehashed pendingSignals then
      some { w with room := { w.room with pendingSignals := pendingSignals } }
    else none
  | a =>
    (w.starts codec a).bind fun (id, prog, w') =>
      if (w.tasks id).isDone then some (w'.setTask id prog) else none

end WorkerState

/-! ## Concrete runs -/

/-- A codec for runs in which no text matters. -/
def plainCodec : Codec := ⟨fun _ => none, fun _ => ""⟩

/-- The task performs its next `n` operations. -/
def runs (id : TaskId) (n : Nat) : List WorkerAction := List.replicate n (.run id)

end CloudGame.Worker
