import CloudGame.Lib.Json
import CloudGame.Lib.Prog
import CloudGame.Lib.Run
import CloudGame.Signal.Controllers
import CloudGame.Signal.Registry
import Mathlib.Logic.Function.Basic

/-!
# The signaling server (`arcade-signal/src/ws.rs`)

Every connection has one task, `run_peer_socket`: it registers the peer (and sends a browser its
initial state), then handles one message after the other, and cleans up when the socket ends.  The
tasks run concurrently over the shared registry, the controller directory and the peers' queues.

A task is the program it has still to run (`Lib.Prog`); its atomic operations `Op` are the methods
of `Registry` and `Controllers` (each runs under its lock) and the send on a queue.  The handlers
below are the source's, operation by operation.  A `Server` is the shared state with all tasks; its
steps (`ServerAction`) connect a peer under a fresh id, hand a message to an idle task, end a
socket, and let one task perform its next operation.  `rehash` changes the iteration order of the
hash maps, which is unspecified.

A queue is modelled by everything ever placed on it, newest first; what the writer task takes from
it changes nothing here.  `Server.log` and `Peer.handling` are read by no step: they record the
operations performed and the command being handled.
-/

namespace CloudGame.Signal

open CloudGame.Lib

/-! ## Atomic operations -/

inductive Op where
  | registerClient (clientId : String) (tx : Tx)
  | registerWorker (workerId : String) (tx : Tx)
  | unregisterClient (clientId : String)
  | unregisterWorker (workerId : String)
  | bindClientToWorker (clientId workerId : String)
  | unbindClient (clientId : String)
  | workerForClient (clientId : String)
  | isClientBoundToWorker (clientId workerId : String)
  | clientSender (clientId : String)
  | workerSender (workerId : String)
  | allClients
  | setWorkerGame (workerId : String) (gameName : Option String)
  | gamesPayload
  | setWorkerPlayerCount (workerId : String) (count : Nat)
  | playerCountsSnapshot
  | registerHost (hostClientId workerId : String)
  | join (controllerClientId code : String)
  | workerForInput (controllerClientId hostClientId : String)
  | cleanupPeer (clientId : String)
  | send (tx : Tx) (event : OutboundEvent)
deriving DecidableEq

/-- What each operation returns. -/
@[reducible] def Op.Reply : Op → Type
  | .registerClient .. => Unit
  | .registerWorker .. => Unit
  | .unregisterClient .. => Option String
  | .unregisterWorker .. => List (String × Tx)
  | .bindClientToWorker .. => Unit
  | .unbindClient .. => Unit
  | .workerForClient .. => Option String
  | .isClientBoundToWorker .. => Bool
  | .clientSender .. => Option Tx
  | .workerSender .. => Option Tx
  | .allClients => List (String × Tx)
  | .setWorkerGame .. => Bool
  | .gamesPayload => String
  | .setWorkerPlayerCount .. => Unit
  | .playerCountsSnapshot => List (String × Nat)
  | .registerHost .. => String
  | .join .. => Except String ControllerJoinTarget
  | .workerForInput .. => Option String
  | .cleanupPeer .. => ControllerCleanup
  | .send .. => Unit

/-- A program of the server. -/
abbrev ServerM (α : Type) : Type := Prog Op Op.Reply α

namespace Call

abbrev registerClient (clientId : String) (tx : Tx) : ServerM Unit :=
  Prog.call (Op.registerClient clientId tx)
abbrev registerWorker (workerId : String) (tx : Tx) : ServerM Unit :=
  Prog.call (Op.registerWorker workerId tx)
abbrev unregisterClient (clientId : String) : ServerM (Option String) :=
  Prog.call (Op.unregisterClient clientId)
abbrev unregisterWorker (workerId : String) : ServerM (List (String × Tx)) :=
  Prog.call (Op.unregisterWorker workerId)
abbrev bindClientToWorker (clientId workerId : String) : ServerM Unit :=
  Prog.call (Op.bindClientToWorker clientId workerId)
abbrev unbindClient (clientId : String) : ServerM Unit := Prog.call (Op.unbindClient clientId)
abbrev workerForClient (clientId : String) : ServerM (Option String) :=
  Prog.call (Op.workerForClient clientId)
abbrev isClientBoundToWorker (clientId workerId : String) : ServerM Bool :=
  Prog.call (Op.isClientBoundToWorker clientId workerId)
abbrev clientSender (clientId : String) : ServerM (Option Tx) :=
  Prog.call (Op.clientSender clientId)
abbrev workerSender (workerId : String) : ServerM (Option Tx) :=
  Prog.call (Op.workerSender workerId)
abbrev allClients : ServerM (List (String × Tx)) := Prog.call Op.allClients
abbrev setWorkerGame (workerId : String) (gameName : Option String) : ServerM Bool :=
  Prog.call (Op.setWorkerGame workerId gameName)
abbrev gamesPayload : ServerM String := Prog.call Op.gamesPayload
abbrev setWorkerPlayerCount (workerId : String) (count : Nat) : ServerM Unit :=
  Prog.call (Op.setWorkerPlayerCount workerId count)
abbrev playerCountsSnapshot : ServerM (List (String × Nat)) := Prog.call Op.playerCountsSnapshot
abbrev registerHost (hostClientId workerId : String) : ServerM String :=
  Prog.call (Op.registerHost hostClientId workerId)
abbrev join (controllerClientId code : String) : ServerM (Except String ControllerJoinTarget) :=
  Prog.call (Op.join controllerClientId code)
abbrev workerForInput (controllerClientId hostClientId : String) : ServerM (Option String) :=
  Prog.call (Op.workerForInput controllerClientId hostClientId)
abbrev cleanupPeer (clientId : String) : ServerM ControllerCleanup :=
  Prog.call (Op.cleanupPeer clientId)
abbrev send (tx : Tx) (event : OutboundEvent) : ServerM Unit := Prog.call (Op.send tx event)

end Call

/-- What the server is started with, and the library functions it uses. -/
structure Config where
  dedupeRoomsByGame : Bool
  caseMap : CaseMap
  json : SerdeJson

/-! ## Handlers -/

section Handlers

variable (cfg : Config)

def sendToWorker (workerId : String) (msg : SignalMessage) : ServerM Unit := do
  let sender ← Call.workerSender workerId
  Prog.whenSome sender fun tx => Call.send tx (.message msg)

def sendToClient (clientId : String) (msg : SignalMessage) : ServerM Unit := do
  let sender ← Call.clientSender clientId
  Prog.whenSome sender fun tx => Call.send tx (.message msg)

def broadcastToClients (msg : SignalMessage) : ServerM Unit := do
  let clients ← Call.allClients
  Prog.each clients fun client => Call.send client.2 (.message msg)

def broadcastGames : ServerM Unit := do
  let payload ← Call.gamesPayload
  broadcastToClients (gamesMessage payload)

/-- The games of `browser_snapshot_payload`, the part of it that the initial state uses. -/
def browserSnapshotGames : ServerM (List (String × String)) := do
  let gamesRaw ← Call.gamesPayload
  let _playerCounts ← Call.playerCountsSnapshot
  return (cfg.json.fromStr gamesRaw).getD []

def sendBrowserInitialState (tx : Tx) : ServerM Unit := do
  let games ← browserSnapshotGames cfg
  Call.send tx (.message (gamesMessage (cfg.json.strings games)))
  let counts ← Call.playerCountsSnapshot
  Prog.each counts fun count =>
    Call.send tx (.message (updatePlayerCountMessage count.1 count.2))

def handleForwardToWorker (clientId workerId : String) (event : WorkerEventKind)
    (data : Option String) (bindClient : Bool) : ServerM Unit := do
  if bindClient then
    if (← Call.workerSender workerId).isSome then
      Call.bindClientToWorker clientId workerId
      sendToWorker workerId (forwardToWorkerMessage event clientId data)
  else
    if ← Call.isClientBoundToWorker clientId workerId then
      sendToWorker workerId (forwardToWorkerMessage event clientId data)

/-- The worker a `terminateSession` goes to, from the target it names and the binding. -/
def terminateTarget (workerId boundWorkerId : Option String) : Option String :=
  match workerId, boundWorkerId with
  | some workerId, some boundWorkerId =>
    if workerId = boundWorkerId then some boundWorkerId else none
  | some _, none => none
  | none, boundWorkerId => boundWorkerId

def handleTerminateSession (clientId : String) (workerId : Option String) : ServerM Unit := do
  let boundWorkerId ← Call.workerForClient clientId
  Prog.whenSome (terminateTarget workerId boundWorkerId) fun workerId => do
    sendToWorker workerId (terminateSessionMessage clientId)
    Call.unbindClient clientId

/-- The payload of `controllerReady`, its keys in the order `serde_json` prints them. -/
def controllerReadyPayload (code workerId : String) : String :=
  cfg.json.toString [("code", .string code), ("expiresInSeconds", .number (joinCodeTtl / 10 ^ 9)),
    ("workerID", .string workerId)]

def handleControllerHost (clientId workerId : String) : ServerM Unit := do
  if ← Call.isClientBoundToWorker clientId workerId then
    let code ← Call.registerHost clientId workerId
    sendToClient clientId (controllerReadyMessage (controllerReadyPayload cfg code workerId))

def handleControllerJoin (clientId code : String) : ServerM Unit := do
  match ← Call.join clientId code with
  | .ok target =>
    sendToClient clientId (controllerJoinedMessage target.hostClientId)
    sendToClient target.hostClientId (controllerJoinedMessage clientId)
    sendToWorker target.workerId (forwardToWorkerMessage .joinRoom clientId none)
  | .error reason => sendToClient clientId (controllerRejectedMessage reason)

def handleControllerInput (clientId hostClientId data : String) : ServerM Unit := do
  let workerId ← Call.workerForInput clientId hostClientId
  Prog.whenSome workerId fun workerId =>
    sendToWorker workerId (forwardToWorkerMessage .input clientId (some data))

def handleControllerAudio (clientId hostClientId action : String) : ServerM Unit := do
  let workerId ← Call.workerForInput clientId hostClientId
  Prog.whenSome workerId fun _ =>
    sendToClient hostClientId (controllerAudioMessage clientId action)

def handleBrowserCommand (clientId : String) : BrowserCommand → ServerM Unit
  | .requestGames => do
    let payload ← Call.gamesPayload
    sendToClient clientId (gamesMessage payload)
  | .forwardToWorker workerId event data bindClient =>
    handleForwardToWorker clientId workerId event data bindClient
  | .terminateSession workerId => handleTerminateSession clientId workerId
  | .controllerHost workerId => handleControllerHost cfg clientId workerId
  | .controllerJoin code => handleControllerJoin clientId code
  | .controllerInput hostClientId data => handleControllerInput clientId hostClientId data
  | .controllerAudio hostClientId action => handleControllerAudio clientId hostClientId action

/-- `handle_browser_message`; an invalid message is only logged. -/
def handleBrowserMessage (clientId : String) (req : SignalMessage) : ServerM Unit :=
  match parseBrowserCommand req with
  | .ok cmd => handleBrowserCommand cfg clientId cmd
  | .error _ => return ()

def handleWorkerCommand (workerId : String) : WorkerCommand → ServerM Unit
  | .gameInfo gameName => do
    if ← Call.setWorkerGame workerId gameName then broadcastGames
  | .forwardToClient clientId event data =>
    sendToClient clientId (forwardToClientMessage event clientId data)
  | .updatePlayerCount count => do
    Call.setWorkerPlayerCount workerId count
    broadcastToClients (updatePlayerCountMessage workerId count)

/-- `handle_worker_message`. -/
def handleWorkerMessage (workerId : String) (req : SignalMessage) : ServerM Unit :=
  match parseWorkerCommand req with
  | .ok cmd => handleWorkerCommand workerId cmd
  | .error _ => return ()

def cleanupBrowser (clientId : String) : ServerM Unit := do
  let controllerCleanup ← Call.cleanupPeer clientId
  let dropped ← Call.unregisterClient clientId
  Prog.whenSome dropped fun workerId =>
    sendToWorker workerId (terminateSessionMessage clientId)
  Prog.whenSome controllerCleanup.notifyHost fun hostClientId =>
    sendToClient hostClientId (controllerLeftMessage clientId)
  Prog.each controllerCleanup.notifyControllers fun controllerClientId =>
    sendToClient controllerClientId (controllerLeftMessage clientId)
  Prog.each controllerCleanup.workerTerminations fun termination =>
    sendToWorker termination.1 (terminateSessionMessage termination.2)

def cleanupWorker (workerId : String) : ServerM Unit := do
  let clientsToClose ← Call.unregisterWorker workerId
  Prog.each clientsToClose fun client => Call.send client.2 .close
  broadcastGames

end Handlers

/-! ## The system -/

inductive PeerRole where
  | browser
  | worker
deriving DecidableEq

structure Peer where
  role : PeerRole
  /-- The socket has not ended. -/
  isOpen : Bool
  /-- The browser command whose handler `prog` is. -/
  handling : Option BrowserCommand
  prog : ServerM Unit

/-- The beginning of `run_peer_socket`. -/
def startProg (cfg : Config) (role : PeerRole) (peerId : String) : ServerM Unit :=
  match role with
  | .browser => do
    Call.registerClient peerId peerId
    sendBrowserInitialState cfg peerId
  | .worker => Call.registerWorker peerId peerId

def messageProg (cfg : Config) (role : PeerRole) (peerId : String) (req : SignalMessage) :
    ServerM Unit :=
  match role with
  | .browser => handleBrowserMessage cfg peerId req
  | .worker => handleWorkerMessage peerId req

/-- The end of `run_peer_socket`. -/
def cleanupProg (role : PeerRole) (peerId : String) : ServerM Unit :=
  match role with
  | .browser => cleanupBrowser peerId
  | .worker => cleanupWorker peerId

/-- The browser command of a message, if it is one. -/
def commandOf (role : PeerRole) (req : SignalMessage) : Option BrowserCommand :=
  match role, parseBrowserCommand req with
  | .browser, .ok cmd => some cmd
  | _, _ => none

/-- The state the tasks share. -/
structure Shared where
  registry : RegistryState
  controllers : ControllerState
  clock : Nat
  /-- Everything placed on the queue of a peer, newest first. -/
  queues : Tx → List OutboundEvent

/-- The clock readings and the join-code seeds of one operation. -/
structure Choice where
  now : Nat
  later : Nat
  seeds : Nat → UInt64

namespace Shared

def init : Shared := ⟨RegistryState.new, ControllerState.empty, 0, fun _ => []⟩

def setRegistry (s : Shared) (registry : RegistryState) : Shared := { s with registry := registry }

def setControllers (s : Shared) (controllers : ControllerState) : Shared :=
  { s with controllers := controllers }

def perform (cfg : Config) (choice : Choice) (s : Shared) : (op : Op) → Option (op.Reply × Shared)
  | .registerClient c tx => some ((), s.setRegistry (s.registry.registerClient c tx))
  | .registerWorker w tx => some ((), s.setRegistry (s.registry.registerWorker w tx))
  | .unregisterClient c =>
    some ((s.registry.unregisterClient c).1, s.setRegistry (s.registry.unregisterClient c).2)
  | .unregisterWorker w =>
    some ((s.registry.unregisterWorker w).1, s.setRegistry (s.registry.unregisterWorker w).2)
  | .bindClientToWorker c w => some ((), s.setRegistry (s.registry.bindClientToWorker c w))
  | .unbindClient c => some ((), s.setRegistry (s.registry.unbindClient c))
  | .workerForClient c => some (s.registry.workerForClient c, s)
  | .isClientBoundToWorker c w => some (s.registry.isClientBoundToWorker c w, s)
  | .clientSender c => some (s.registry.clientSender c, s)
  | .workerSender w => some (s.registry.workerSender w, s)
  | .allClients => some (s.registry.allClients, s)
  | .setWorkerGame w game =>
    some ((s.registry.setWorkerGame cfg.caseMap w game).1,
      s.setRegistry (s.registry.setWorkerGame cfg.caseMap w game).2)
  | .gamesPayload =>
    some (cfg.json.strings (s.registry.gamesPayload cfg.caseMap cfg.dedupeRoomsByGame), s)
  | .setWorkerPlayerCount w n => some ((), s.setRegistry (s.registry.setWorkerPlayerCount w n))
  | .playerCountsSnapshot => some (s.registry.playerCountsSnapshot, s)
  | .registerHost h w =>
    (s.controllers.registerHost h w choice.now choice.later choice.seeds).map fun out =>
      (out.1, s.setControllers out.2)
  | .join c code =>
    some ((s.controllers.join cfg.caseMap c code choice.now).1,
      s.setControllers (s.controllers.join cfg.caseMap c code choice.now).2)
  | .workerForInput c h => some (s.controllers.workerForInput c h, s)
  | .cleanupPeer x =>
    some ((s.controllers.cleanupPeer x).1, s.setControllers (s.controllers.cleanupPeer x).2)
  | .send tx event =>
    some ((), { s with queues := Function.update s.queues tx (event :: s.queues tx) })

end Shared

/-- What a task did: it was handed a message, or performed an operation while it handled the
command `handling`. -/
inductive ServerEvent where
  | received (peer : String) (req : SignalMessage)
  | performed (peer : String) (handling : Option BrowserCommand) (op : Op) (reply : op.Reply)

structure Server where
  shared : Shared
  peers : String → Option Peer
  /-- What happened so far, newest first. -/
  log : List ServerEvent

inductive ServerAction where
  | connect (peerId : String) (role : PeerRole)
  | receive (peerId : String) (req : SignalMessage)
  | disconnect (peerId : String)
  | advance (peerId : String) (choice : Choice)
  | rehash (registry : RegistryState) (controllers : ControllerState)

namespace Server

def init : Server := ⟨Shared.init, fun _ => none, []⟩

def setPeer (s : Server) (peerId : String) (peer : Peer) : Server :=
  { s with peers := Function.update s.peers peerId (some peer) }

/-- The task of `peerId` performs its next operation. -/
def advance (cfg : Config) (s : Server) (peerId : String) (peer : Peer) (choice : Choice) :
    Option Server :=
  match peer.prog with
  | .ret _ => none
  | .op i k =>
    if s.shared.clock ≤ choice.now ∧ choice.now ≤ choice.later then
      (Shared.perform cfg choice s.shared i).map fun out =>
        { shared := { out.2 with clock := choice.later }
          peers := Function.update s.peers peerId (some { peer with prog := k out.1 })
          log := .performed peerId peer.handling i out.1 :: s.log }
    else none

def step (cfg : Config) (s : Server) : ServerAction → Option Server
  | .connect peerId role =>
    match s.peers peerId with
    | some _ => none
    | none => some (s.setPeer peerId ⟨role, true, none, startProg cfg role peerId⟩)
  | .receive peerId req =>
    match s.peers peerId with
    | none => none
    | some peer =>
      if peer.isOpen ∧ peer.prog.isDone then
        some { s.setPeer peerId ⟨peer.role, true, commandOf peer.role req,
            messageProg cfg peer.role peerId req⟩ with
          log := .received peerId req :: s.log }
      else none
  | .disconnect peerId =>
    match s.peers peerId with
    | none => none
    | some peer =>
      if peer.isOpen ∧ peer.prog.isDone then
        some (s.setPeer peerId ⟨peer.role, false, none, cleanupProg peer.role peerId⟩)
      else none
  | .advance peerId choice =>
    match s.peers peerId with
    | none => none
    | some peer => s.advance cfg peerId peer choice
  | .rehash registry controllers =>
    if RegistryState.Rehashed s.shared.registry registry ∧
        ControllerState.Rehashed s.shared.controllers controllers then
      some { s with shared := { s.shared with registry := registry, controllers := controllers } }
    else none

end Server

/-! ## Concrete runs -/

/-- The server as it starts by default, for names whose JSON text needs no escape. -/
def plainConfig : Config := ⟨false, CaseMap.ascii, SerdeJson.plain⟩

/-- The task performs its next `n` operations, at time zero. -/
def advances (peerId : String) (n : Nat) : List ServerAction :=
  List.replicate n (.advance peerId ⟨0, 0, fun _ => 0⟩)

end CloudGame.Signal
