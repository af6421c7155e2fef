import CloudGame.Lib.Prog
import CloudGame.Worker.Libretro
import CloudGame.Worker.PendingSignals

/-!
# The room of a worker (`arcade-worker/src/room.rs`)

The signal router, the callbacks of the peer connections, the video task of each session and the
emulator thread run concurrently over one `Room`.  A method of it is a program (`Lib.Prog`) whose
atomic operations `RoomOp` are the source's lock sections, atomic accesses and sends; `RoomState`
is what they share, and `RoomState.perform` says what each operation does.

A session instance is its client id and a serial number, which stand for the `Arc<Session>` with
its peer connection and its video queue.  `register_client_session` counts the session while it
still holds the lock of `sessions`; `sessionsLocked` is that lock.  `assign_player_slot` reads the
count and reports it while it holds the lock of the slots, so it is one section.
-/

namespace CloudGame.Worker

open CloudGame.Lib CloudGame.Signal

/-- A session instance: `id` is the client it was made for. -/
structure Session where
  id : String
  serial : Nat
deriving DecidableEq, Inhabited

structure InputEvent where
  clientId : String
  data : Payload
deriving DecidableEq

/-! ## Atomic operations -/

inductive RoomOp where
  /-- Creates the peer connection, installs its callbacks and spawns its video task. -/
  | newSession (clientId : String)
  /-- The map lookup and the insertion of `register_client_session`. -/
  | insertSession (clientId : String) (session : Session)
  /-- Its `fetch_add`, after which the lock is released. -/
  | countInserted
  | removeSession (clientId : String)
  /-- The `fetch_sub` of `unregister_client_session`. -/
  | countRemoved
  | closeQueue (session : Session)
  | closePeer (session : Session)
  | withClientSession (clientId : String)
  | slotForClient (clientId : String)
  | assignPlayerSlot (clientId : String)
  | releaseClient (clientId : String)
  | slotCount
  | queueClient (clientId : String) (payload : Payload)
  | drainClient (clientId : String)
  | sendPlayerCount (count : Nat)
  | sendInput (event : InputEvent)
  | sendOffer (session : Session)
  | enqueueSignal (msg : SignalMessage)
  | drainSignals (clientId : String)
  | clearSignals (clientId : String)
  /-- `apply_answer` and `apply_candidate` are handed a message. -/
  | applySignal (session : Session) (msg : SignalMessage)
  | updateInput (player : Nat) (data : Payload)
deriving DecidableEq

@[reducible] def RoomOp.Reply : RoomOp → Type
  | .newSession .. => Session
  | .insertSession .. => Bool
  | .countInserted => Unit
  | .removeSession .. => Option Session
  | .countRemoved => Unit
  | .closeQueue .. => Unit
  | .closePeer .. => Unit
  | .withClientSession .. => Option Session
  | .slotForClient .. => Option Nat
  | .assignPlayerSlot .. => Option Nat
  | .releaseClient .. => Bool
  | .slotCount => Nat
  | .queueClient .. => Unit
  | .drainClient .. => List Payload
  | .sendPlayerCount .. => Unit
  | .sendInput .. => Bool
  | .sendOffer .. => Bool
  | .enqueueSignal .. => Unit
  | .drainSignals .. => List SignalMessage
  | .clearSignals .. => Unit
  | .applySignal .. => Unit
  | .updateInput .. => Unit

/-- The operations that change which sessions are registered. -/
def RoomOp.registers : RoomOp → Bool
  | .insertSession .. => true
  | .removeSession .. => true
  | _ => false

/-- The operations that change who has a slot. -/
def RoomOp.seats : RoomOp → Bool
  | .assignPlayerSlot .. => true
  | .releaseClient .. => true
  | _ => false

/-- The operations that change the pending inputs. -/
def RoomOp.buffers : RoomOp → Bool
  | .queueClient .. => true
  | .drainClient .. => true
  | _ => false

abbrev RoomM (α : Type) : Type := Prog RoomOp RoomOp.Reply α

namespace Call

abbrev newSession (clientId : String) : RoomM Session := Prog.call (RoomOp.newSession clientId)
abbrev insertSession (clientId : String) (session : Session) : RoomM Bool :=
  Prog.call (RoomOp.insertSession clientId session)
abbrev countInserted : RoomM Unit := Prog.call RoomOp.countInserted
abbrev removeSession (clientId : String) : RoomM (Option Session) :=
  Prog.call (RoomOp.removeSession clientId)
abbrev countRemoved : RoomM Unit := Prog.call RoomOp.countRemoved
abbrev closeQueue (session : Session) : RoomM Unit := Prog.call (RoomOp.closeQueue session)
abbrev closePeer (session : Session) : RoomM Unit := Prog.call (RoomOp.closePeer session)
abbrev withClientSession (clientId : String) : RoomM (Option Session) :=
  Prog.call (RoomOp.withClientSession clientId)
abbrev slotForClient (clientId : String) : RoomM (Option Nat) :=
  Prog.call (RoomOp.slotForClient clientId)
abbrev assignPlayerSlot (clientId : String) : RoomM (Option Nat) :=
  Prog.call (RoomOp.assignPlayerSlot clientId)
abbrev releaseClient (clientId : String) : RoomM Bool := Prog.call (RoomOp.releaseClient clientId)
abbrev slotCount : RoomM Nat := Prog.call RoomOp.slotCount
abbrev queueClient (clientId : String) (payload : Payload) : RoomM Unit :=
  Prog.call (RoomOp.queueClient clientId payload)
abbrev drainClient (clientId : String) : RoomM (List Payload) :=
  Prog.call (RoomOp.drainClient clientId)
abbrev sendPlayerCount (count : Nat) : RoomM Unit := Prog.call (RoomOp.sendPlayerCount count)
abbrev sendInput (event : InputEvent) : RoomM Bool := Prog.call (RoomOp.sendInput event)
abbrev sendOffer (session : Session) : RoomM Bool := Prog.call (RoomOp.sendOffer session)
abbrev enqueueSignal (msg : SignalMessage) : RoomM Unit := Prog.call (RoomOp.enqueueSignal msg)
abbrev drainSignals (clientId : String) : RoomM (List SignalMessage) :=
  Prog.call (RoomOp.drainSignals clientId)
abbrev clearSignals (clientId : String) : RoomM Unit := Prog.call (RoomOp.clearSignals clientId)
abbrev applySignal (session : Session) (msg : SignalMessage) : RoomM Unit :=
  Prog.call (RoomOp.applySignal session msg)
abbrev updateInput (player : Nat) (data : Payload) : RoomM Unit :=
  Prog.call (RoomOp.updateInput player data)

end Call

/-! ## Methods of the room -/

/-- `register_client_session`: whether the session was registered. -/
def registerClientSession (clientId : String) (session : Session) : RoomM Bool := do
  if ← Call.insertSession clientId session then
    Call.countInserted
    return true
  else
    return false

/-- `join_room`; the request to refresh the encoder is left out. -/
def joinRoom (clientId : String) : RoomM (Option Nat) := do
  let _hadAssignment ← Call.slotForClient clientId
  Call.assignPlayerSlot clientId

def ensureSessionJoined (clientId : String) : RoomM (Option Nat) := do
  match ← Call.slotForClient clientId with
  | some existingSlot => return some existingSlot
  | none => joinRoom clientId

/-- Reports the count when a slot was released. -/
def reportRelease (released : Bool) : RoomM Unit := do
  if released then
    let count ← Call.slotCount
    Call.sendPlayerCount count

def unregisterClientSession (clientId : String) : RoomM (Option Session) := do
  let removed ← Call.removeSession clientId
  match removed with
  | none => return none
  | some session =>
    Call.countRemoved
    Call.closeQueue session
    let countChanged ← Call.releaseClient clientId
    reportRelease countChanged
    return some session

def releaseInputSource (clientId : String) : RoomM Unit := do
  let _pending ← Call.drainClient clientId
  let released ← Call.releaseClient clientId
  reportRelease released

/-- The loop of `flush_pending_inputs_to_sender`: it ends when the channel is disconnected. -/
def sendInputs (clientId : String) : List Payload → RoomM Unit
  | [] => return ()
  | payload :: rest => do
    if ← Call.sendInput ⟨clientId, payload⟩ then
      sendInputs clientId rest

def flushPendingInputsToSender (clientId : String) : RoomM Unit := do
  let pending ← Call.drainClient clientId
  sendInputs clientId pending

def bufferOrSendInput (clientId : String) (payload : Payload) : RoomM Unit := do
  let alreadyAssigned ← Call.slotForClient clientId
  match ← ensureSessionJoined clientId with
  | none =>
    let _players ← Call.slotCount
    Call.queueClient clientId payload
  | some _slot =>
    if alreadyAssigned.isNone then
      flushPendingInputsToSender clientId
    let _sent ← Call.sendInput ⟨clientId, payload⟩

/-! ## The shared state -/

structure RoomState where
  sessions : HashMap String Session
  sessionsLocked : Bool
  /-- `session_count`, a `usize`. -/
  sessionCount : UInt64
  /-- Every session instance made, newest first. -/
  created : List Session
  closedQueues : List Session
  closedPeers : List Session
  playerSlots : PlayerSlots
  pendingInputs : PendingInputs
  /-- The input channel, oldest first; `none` once its receiver is gone. -/
  inputs : Option (List InputEvent)
  /-- Everything placed on `signal_tx` and on the router's outbound queue, newest first. -/
  outbound : List SignalMessage
  /-- The receiver of the router's outbound queue is gone. -/
  outboundClosed : Bool
  pendingSignals : PendingSessionSignals
  /-- What `apply_answer` and `apply_candidate` were handed, newest first. -/
  appliedSignals : List (Session × SignalMessage)
  controllers : Controllers

/-- The message of `send_player_count_update`. -/
def playerCountMessage (count : Nat) : SignalMessage :=
  ⟨SignalIds.updatePlayerCount, some (toString count), none⟩

/-- The message of an offer; `description` is the encoded local description of the session. -/
def offerMessage (description : Session → String) (session : Session) : SignalMessage :=
  ⟨SignalIds.offer, some (description session), some session.id⟩

namespace RoomState

def init : RoomState where
  sessions := ∅
  sessionsLocked := false
  sessionCount := 0
  created := []
  closedQueues := []
  closedPeers := []
  playerSlots := PlayerSlots.new
  pendingInputs := PendingInputs.empty
  inputs := some []
  outbound := []
  outboundClosed := false
  pendingSignals := PendingSessionSignals.empty
  appliedSignals := []
  controllers := fun _ => ControllerState.default

def send (s : RoomState) (msg : SignalMessage) : RoomState :=
  { s with outbound := msg :: s.outbound }

/-- An offer is not placed on a queue whose receiver is gone. -/
def sendOffer (s : RoomState) (msg : SignalMessage) : RoomState :=
  { s with outbound := if s.outboundClosed then s.outbound else msg :: s.outbound }

/-- The section of `assign_player_slot`: only a client without a slot changes the count or is told
that there is none. -/
def assignPlayerSlot (s : RoomState) (clientId : String) : Option Nat × RoomState :=
  let out := s.playerSlots.assignClient clientId
  let s' := { s with playerSlots := out.2 }
  match out.1 with
  | (some slot, false) => (some slot, s')
  | (playerSlot, _) => (playerSlot, s'.send (playerCountMessage out.2.count))

/-- An input that `update_input_state` refuses is only logged. -/
def updateInput (s : RoomState) (player : Nat) (data : Payload) : RoomState :=
  match updateInputState s.controllers player data with
  | .ok controllers => { s with controllers := controllers }
  | .error _ => s

/-- One operation; those on `sessions` wait for its lock. -/
def perform (description : Session → String) (s : RoomState) :
    (i : RoomOp) → Option (i.Reply × RoomState)
  | .newSession c =>
    let session : Session := ⟨c, s.created.length⟩
    some (session, { s with created := session :: s.created })
  | .insertSession c session =>
    if s.sessionsLocked then none
    else if c ∈ s.sessions then some (false, s)
    else some (true, { s with sessions := s.sessions.insert c session, sessionsLocked := true })
  | .countInserted =>
    some ((), { s with sessionCount := s.sessionCount + 1, sessionsLocked := false })
  | .removeSession c =>
    if s.sessionsLocked then none
    else some (s.sessions.lookup c, { s with sessions := s.sessions.erase c })
  | .countRemoved => some ((), { s with sessionCount := s.sessionCount - 1 })
  | .closeQueue session => some ((), { s with closedQueues := session :: s.closedQueues })
  | .closePeer session => some ((), { s with closedPeers := session :: s.closedPeers })
  | .withClientSession c => if s.sessionsLocked then none else some (s.sessions.lookup c, s)
  | .slotForClient c => some (s.playerSlots.slotForClient c, s)
  | .assignPlayerSlot c => some (s.assignPlayerSlot c)
  | .releaseClient c =>
    some ((s.playerSlots.releaseClient c).1,
      { s with playerSlots := (s.playerSlots.releaseClient c).2 })
  | .slotCount => some (s.playerSlots.count, s)
  | .queueClient c payload =>
    some ((), { s with pendingInputs := s.pendingInputs.queueClient c payload })
  | .drainClient c =>
    some ((s.pendingInputs.drainClient c).1,
      { s with pendingInputs := (s.pendingInputs.drainClient c).2 })
  | .sendPlayerCount count => some ((), s.send (playerCountMessage count))
  | .sendInput event =>
    match s.inputs with
    | some events => some (true, { s with inputs := some (events ++ [event]) })
    | none => some (false, s)
  | .sendOffer session =>
    some (!s.outboundClosed, s.sendOffer (offerMessage description session))
  | .enqueueSignal msg => some ((), { s with pendingSignals := s.pendingSignals.enqueue msg })
  | .drainSignals c =>
    some ((s.pendingSignals.drain c).1, { s with pendingSignals := (s.pendingSignals.drain c).2 })
  | .clearSignals c => some ((), { s with pendingSignals := s.pendingSignals.clear c })
  | .applySignal session msg =>
    some ((), { s with appliedSignals := (session, msg) :: s.appliedSignals })
  | .updateInput player data => some ((), s.updateInput player data)

/-! ### What an operation does -/

variable {description : Session → String} {s s' : RoomState} {c : String}

theorem perform_removeSession {removed : Option Session}
    (h : s.perform description (.removeSession c) = some (removed, s')) :
    removed = s.sessions.lookup c ∧ s' = { s with sessions := s.sessions.erase c } := by
  simp only [perform] at h
  split at h
  · cases h
  · cases h; exact ⟨rfl, rfl⟩

theorem perform_insertSession {session : Session} {inserted : Bool}
    (h : s.perform description (.insertSession c session) = some (inserted, s')) :
    s' = s ∨ s' = { s with sessions := s.sessions.insert c session, sessionsLocked := true } := by
  simp only [perform] at h
  split at h
  · cases h
  split at h
  · cases h; exact Or.inl rfl
  · cases h; exact Or.inr rfl

theorem perform_withClientSession {session : Option Session}
    (h : s.perform description (.withClientSession c) = some (session, s')) :
    session = s.sessions.lookup c ∧ s' = s := by
  simp only [perform] at h
  split at h
  · cases h
  · cases h; exact ⟨rfl, rfl⟩

theorem perform_assignPlayerSlot {slot : Option Nat}
    (h : s.perform description (.assignPlayerSlot c) = some (slot, s')) :
    ∃ outbound,
      s' = { s with playerSlots := (s.playerSlots.assignClient c).2, outbound := outbound } := by
  have hs' : (s.assignPlayerSlot c).2 = s' := congrArg Prod.snd (Option.some.inj h)
  rw [← hs']
  unfold assignPlayerSlot
  dsimp only
  split
  · exact ⟨s.outbound, rfl⟩
  · exact ⟨_, rfl⟩

theorem perform_sendInput {event : InputEvent} {sent : Bool}
    (h : s.perform description (.sendInput event) = some (sent, s')) :
    ∃ inputs, s' = { s with inputs := inputs } := by
  simp only [perform] at h
  split at h
  · cases h; exact ⟨_, rfl⟩
  · cases h; exact ⟨s.inputs, rfl⟩

theorem updateInput_eq (s : RoomState) (player : Nat) (data : Payload) :
    ∃ controllers, s.updateInput player data = { s with controllers := controllers } := by
  unfold updateInput
  split
  · exact ⟨_, rfl⟩
  · exact ⟨s.controllers, rfl⟩

theorem perform_updateInput {player : Nat} {data : Payload} {reply : Unit}
    (h : s.perform description (.updateInput player data) = some (reply, s')) :
    ∃ controllers, s' = { s with controllers := controllers } := by
  obtain rfl : s.updateInput player data = s' := congrArg Prod.snd (Option.some.inj h)
  exact s.updateInput_eq player data

/-- Who is registered, who has a slot and what is pending change by their own operations only. -/
theorem perform_frame {i : RoomOp} {r : i.Reply} (h : s.perform description i = some (r, s')) :
    (i.registers = false → s'.sessions = s.sessions) ∧
      (i.seats = false → s'.playerSlots = s.playerSlots) ∧
      (i.buffers = false → s'.pendingInputs = s.pendingInputs) := by
  cases i with
  | insertSession c session =>
    refine ⟨nofun, ?_⟩
    rcases perform_insertSession h with rfl | rfl <;> exact ⟨fun _ => rfl, fun _ => rfl⟩
  | removeSession c =>
    obtain ⟨_, rfl⟩ := perform_removeSession h
    exact ⟨nofun, fun _ => rfl, fun _ => rfl⟩
  | withClientSession c =>
    obtain ⟨_, rfl⟩ := perform_withClientSession h
    exact ⟨fun _ => rfl, fun _ => rfl, fun _ => rfl⟩
  | assignPlayerSlot c =>
    obtain ⟨_, rfl⟩ := perform_assignPlayerSlot h
    exact ⟨fun _ => rfl, nofun, fun _ => rfl⟩
  | releaseClient c => cases h; exact ⟨fun _ => rfl, nofun, fun _ => rfl⟩
  | queueClient c payload => cases h; exact ⟨fun _ => rfl, fun _ => rfl, nofun⟩
  | drainClient c => cases h; exact ⟨fun _ => rfl, fun _ => rfl, nofun⟩
  | sendInput event =>
    obtain ⟨_, rfl⟩ := perform_sendInput h
    exact ⟨fun _ => rfl, fun _ => rfl, fun _ => rfl⟩
  | updateInput player data =>
    obtain ⟨_, rfl⟩ := perform_updateInput h
    exact ⟨fun _ => rfl, fun _ => rfl, fun _ => rfl⟩
  | _ => cases h; exact ⟨fun _ => rfl, fun _ => rfl, fun _ => rfl⟩

end RoomState

end CloudGame.Worker
