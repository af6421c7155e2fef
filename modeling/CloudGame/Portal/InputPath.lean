import CloudGame.Portal.InputLoop
import CloudGame.Worker.Sessions

/-!
# From the input loop to the core

The packets of one client that holds a slot throughout: sent by the input loop on the data channel
or the signaling path, buffered by the room of the worker, and applied by the emulator thread.  The
data channel is unordered and does not retransmit (`ordered: false`, `max_retransmits: 0`), so it
may drop any packet and deliver any other next; the signaling path is a queue of its own.  What the
worker does with a packet is the room's program run in one go: while the client keeps its slot, the
only operation of it that matters is the one that places the packet on the input channel.

A packet carries no sequence number and is not repeated, so the state of the port is that of the
packet that reached the worker last (`port_follows_arrived`).  It is the client's mask when that is
the packet sent last (`input_converges`), and not otherwise (`input_sticks`).
-/

namespace CloudGame.Portal

open CloudGame.Lib CloudGame.Worker

/-- The client, its port, and the indices the input loop reads. -/
structure Player where
  clientId : String
  port : Fin maxPlayers
  joypadKeys : List Nat

/-- A packet by the number of packets sent before it. -/
structure Packet where
  serial : Nat
  value : UInt32
deriving DecidableEq

structure InputPath where
  lastInputPacketValue : Option UInt32
  /-- The mask at the last tick. -/
  mask : UInt32
  /-- Every packet sent, newest first. -/
  sent : List Packet
  dataChannel : List Packet
  /-- The signaling path, oldest first. -/
  signal : List Packet
  room : RoomState
  /-- The packet that reached the worker last; no step reads it. -/
  arrived : Option Packet

inductive InputAction where
  | tick (buttons : ButtonState) (links : Links)
  | deliver (index : Nat)
  | drop (index : Nat)
  | relay
  | poll
  /-- An input of another client. -/
  | otherInput (event : InputEvent)
  /-- Other clients join or leave. -/
  | reseat (slots : PlayerSlots)

/-- A program of the room without interruption; no offer is made here. -/
def execRoom (prog : RoomM Unit) (room : RoomState) : Option RoomState :=
  (prog.exec (RoomState.perform fun _ => "") room).map Prod.snd

namespace InputPath

def init (room : RoomState) : InputPath := ⟨none, 0, [], [], [], room, none⟩

/-- A packet of the client reaches the worker. -/
def arrive (player : Player) (s : InputPath) (packet : Packet) : Option InputPath :=
  (execRoom (bufferOrSendInput player.clientId (inputPacket packet.value)) s.room).map fun room =>
    { s with room := room, arrived := some packet }

def step (player : Player) (s : InputPath) : InputAction → Option InputPath
  | .tick buttons links =>
    let value := packetValue player.joypadKeys buttons
    let packet : Packet := ⟨s.sent.length, value⟩
    let out := tick s.lastInputPacketValue value links
    let s' := { s with lastInputPacketValue := out.1, mask := value }
    match out.2 with
    | none => some s'
    | some .dataChannel =>
      some { s' with sent := packet :: s.sent, dataChannel := packet :: s.dataChannel }
    | some .signal => some { s' with sent := packet :: s.sent, signal := s.signal ++ [packet] }
  | .deliver index =>
    match s.dataChannel[index]? with
    | none => none
    | some packet => { s with dataChannel := s.dataChannel.eraseIdx index }.arrive player packet
  | .drop index => some { s with dataChannel := s.dataChannel.eraseIdx index }
  | .relay =>
    match s.signal with
    | [] => none
    | packet :: rest => { s with signal := rest }.arrive player packet
  | .poll =>
    match s.room.inputs with
    | some (input :: rest) =>
      (execRoom (handleInputEvent input) { s.room with inputs := some rest }).map fun room =>
        { s with room := room }
    | _ => none
  | .otherInput event =>
    match s.room.inputs with
    | some events =>
      if event.clientId ≠ player.clientId then
        some { s with room := { s.room with inputs := some (events ++ [event]) } }
      else none
    | none => none
  | .reseat slots =>
    if slots.slotForClient player.clientId = some player.port.val then
      some { s with room := { s.room with playerSlots := slots } }
    else none

end InputPath

/-! ## The room while the client has a slot -/

section Room

variable {room : RoomState}

/-- With a slot, an input goes straight to the input channel. -/
theorem execRoom_bufferOrSendInput {c : String} {port : Nat} {events : List InputEvent}
    (payload : Payload) (hslot : room.playerSlots.slotForClient c = some port)
    (hinputs : room.inputs = some events) :
    execRoom (bufferOrSendInput c payload) room =
      some { room with inputs := some (events ++ [⟨c, payload⟩]) } := by
  unfold execRoom bufferOrSendInput ensureSessionJoined
  simp only [Prog.call_bind, Prog.op_bind, Prog.exec, RoomState.perform, Option.bind, hslot,
    Prog.pure_bind_eq, Option.isNone_some, Bool.false_eq_true, if_false, hinputs]
  rfl

/-- The emulator applies an input at the slot of its client, and puts it back among the pending
ones when the client has none. -/
theorem execRoom_handleInputEvent (input : InputEvent) :
    execRoom (handleInputEvent input) room = some
      (match room.playerSlots.slotForClient input.clientId with
      | some port => room.updateInput port input.data
      | none => { room with
          pendingInputs := room.pendingInputs.queueClient input.clientId input.data }) := by
  unfold execRoom handleInputEvent
  simp only [Prog.call_bind, Prog.exec, RoomState.perform, Option.bind_some]
  cases room.playerSlots.slotForClient input.clientId <;> rfl

theorem updateInput_frame (room : RoomState) (port : Nat) (data : Payload) :
    (room.updateInput port data).inputs = room.inputs ∧
      (room.updateInput port data).playerSlots = room.playerSlots := by
  unfold RoomState.updateInput
  split <;> exact ⟨rfl, rfl⟩

theorem updateInput_controllers_of_ne (room : RoomState) {port : Nat} (data : Payload)
    {q : Fin maxPlayers} (hq : q.val ≠ port) :
    (room.updateInput port data).controllers q = room.controllers q := by
  unfold RoomState.updateInput
  split
  · next controllers h => exact updateInputState_of_ne h hq
  · rfl

/-- A packet of the input loop sets the buttons of the port to its mask. -/
theorem updateInput_inputPacket (room : RoomState) (port : Fin maxPlayers) {value : UInt32}
    (h : value < 65536) :
    ((room.updateInput port.val (inputPacket value)).controllers port).keyState.toUInt32 =
      value := by
  unfold RoomState.updateInput inputPacket
  rw [updateInputState_pair]
  show (Function.update room.controllers port _ port).keyState.toUInt32 = value
  rw [Function.update_self]
  exact fromLeBytes_bytes value h

end Room

/-! ## The last input of the client -/

/-- The last input of the client on the input channel. -/
def lastInput (c : String) (events : List InputEvent) : Option Payload :=
  ((events.filter fun event => event.clientId = c).getLast?).map InputEvent.data

theorem lastInput_append_self (c : String) (events : List InputEvent) (data : Payload) :
    lastInput c (events ++ [⟨c, data⟩]) = some data := by
  simp [lastInput]

theorem lastInput_append_of_ne {c : String} (events : List InputEvent) {event : InputEvent}
    (h : event.clientId ≠ c) : lastInput c (events ++ [event]) = lastInput c events := by
  simp [lastInput, h]

theorem lastInput_cons_of_ne {c : String} (events : List InputEvent) {event : InputEvent}
    (h : event.clientId ≠ c) : lastInput c (event :: events) = lastInput c events := by
  simp [lastInput, h]

/-- An input that is taken from the channel was the last one exactly when no other is left. -/
theorem lastInput_cons_self (c : String) (events : List InputEvent) (data : Payload) :
    lastInput c (⟨c, data⟩ :: events) = (lastInput c events).or (some data) := by
  unfold lastInput
  rw [List.filter_cons_of_pos (by simp), List.getLast?_cons]
  cases (events.filter fun event => event.clientId = c).getLast? <;> rfl

theorem lastInput_eq_none {c : String} {events : List InputEvent} :
    lastInput c events = none ↔ ∀ event ∈ events, event.clientId ≠ c := by
  simp [lastInput]

/-! ## The invariant -/

/-- The port will show the mask `value`: it is the client's last input on the channel, or the port
shows it and no input of the client follows. -/
def Shows (player : Player) (value : UInt32) (events : List InputEvent)
    (controllers : Controllers) : Prop :=
  value < 65536 ∧
    (lastInput player.clientId events = some (inputPacket value) ∨
      (lastInput player.clientId events = none ∧
        (controllers player.port).keyState.toUInt32 = value))

/-- The port, with the inputs that wait, was left at `value`. -/
def LeftAt (player : Player) (room : RoomState) (value : UInt32) : Prop :=
  ∃ events, room.inputs = some events ∧ Shows player value events room.controllers

/-- The value of the packet that arrived last, or what the port was left at before any did. -/
def Latest (left : UInt32 → Prop) (arrived : Option Packet) (value : UInt32) : Prop :=
  match arrived with
  | none => left value
  | some packet => packet.value = value

/-- The value of the packet sent last; the loop takes zero for sent before any is. -/
def lastValue (sent : List Packet) : UInt32 :=
  match sent with
  | [] => 0
  | packet :: _ => packet.value

/-- The client has its slot, and the emulator thread is there to take inputs. -/
def Seated (player : Player) (room : RoomState) : Prop :=
  room.playerSlots.slotForClient player.clientId = some player.port.val ∧
    ∃ events, room.inputs = some events

structure PathInv (player : Player) (room : RoomState) (s : InputPath) : Prop where
  slot : s.room.playerSlots.slotForClient player.clientId = some player.port.val
  follows : ∃ events, s.room.inputs = some events ∧
    ∀ value, Latest (LeftAt player room) s.arrived value →
      Shows player value events s.room.controllers
  loop : s.lastInputPacketValue = some (lastValue s.sent) ∨
    (s.lastInputPacketValue = none ∧ s.sent = [])
  small : ∀ packet ∈ s.dataChannel ++ s.signal, packet.value < 65536

section Steps

variable {player : Player} {room : RoomState} {s s' : InputPath}

theorem pathInv_init (h : Seated player room) :
    PathInv player room (InputPath.init room) := by
  obtain ⟨hslot, events, hinputs⟩ := h
  refine ⟨hslot, ⟨events, hinputs, fun value hleft => ?_⟩, Or.inr ⟨rfl, rfl⟩, nofun⟩
  obtain ⟨events', hinputs', hshows⟩ := hleft
  rw [hinputs] at hinputs'
  cases hinputs'
  exact hshows

/-- A packet that reaches the worker is then the client's last input. -/
theorem pathInv_arrive {packet : Packet} (hi : PathInv player room s)
    (hsmall : packet.value < 65536) (hs : s.arrive player packet = some s') :
    PathInv player room s' := by
  obtain ⟨events, hinputs, _⟩ := hi.follows
  unfold InputPath.arrive at hs
  rw [execRoom_bufferOrSendInput _ hi.slot hinputs] at hs
  cases hs
  refine ⟨hi.slot, ⟨_, rfl, fun value hlatest => ?_⟩, hi.loop, hi.small⟩
  obtain rfl : packet.value = value := hlatest
  refine ⟨hsmall, Or.inl ?_⟩
  exact lastInput_append_self player.clientId events (inputPacket packet.value)

theorem pathInv_tick {buttons : ButtonState} {links : Links} (hi : PathInv player room s)
    (hs : s.step player (.tick buttons links) = some s') : PathInv player room s' := by
  have hlt := packetValue_lt player.joypadKeys buttons
  simp only [InputPath.step] at hs
  split at hs
  · next hnone =>
    cases hs
    refine ⟨hi.slot, hi.follows, ?_, hi.small⟩
    rcases tick_unsent hnone with he | ⟨hlast, he⟩
    · dsimp only
      rw [he]
      exact hi.loop
    · -- a first zero counts as sent, and nothing was sent before it
      rcases hi.loop with hloop | ⟨_, hsent⟩
      · rw [hlast] at hloop; cases hloop
      · refine Or.inl ?_
        dsimp only
        rw [he, hsent]
        rfl
  · next hsome =>
    cases hs
    refine ⟨hi.slot, hi.follows, Or.inl (tick_sent hsome), fun packet hmem => ?_⟩
    rcases List.mem_cons.mp hmem with rfl | hmem
    · exact hlt
    · exact hi.small packet hmem
  · next hsome =>
    cases hs
    refine ⟨hi.slot, hi.follows, Or.inl (tick_sent hsome), fun packet hmem => ?_⟩
    rw [← List.append_assoc, List.mem_append, List.mem_singleton] at hmem
    rcases hmem with hmem | rfl
    · exact hi.small packet hmem
    · exact hlt

/-- An input of the client that is taken from the channel is applied at its port. -/
theorem Shows.applied {value : UInt32} {data : Payload} {events : List InputEvent}
    {r : RoomState} (h : Shows player value (⟨player.clientId, data⟩ :: events) r.controllers) :
    Shows player value events (r.updateInput player.port.val data).controllers := by
  obtain ⟨hlt, h⟩ := h
  refine ⟨hlt, ?_⟩
  rw [lastInput_cons_self] at h
  cases hlast : lastInput player.clientId events with
  | none =>
    rw [hlast] at h
    obtain hdata | ⟨hdata, _⟩ := h
    · obtain rfl : data = inputPacket value := Option.some.inj hdata
      exact Or.inr ⟨rfl, updateInput_inputPacket r player.port hlt⟩
    · cases hdata
  | some last =>
    rw [hlast] at h
    obtain hdata | ⟨hdata, _⟩ := h
    · exact Or.inl hdata
    · cases hdata

/-- An input of another client is passed over. -/
theorem Shows.passed {value : UInt32} {event : InputEvent} {events : List InputEvent}
    {controllers controllers' : Controllers} (hne : event.clientId ≠ player.clientId)
    (hport : controllers' player.port = controllers player.port)
    (h : Shows player value (event :: events) controllers) :
    Shows player value events controllers' := by
  unfold Shows at h ⊢
  rwa [hport, ← lastInput_cons_of_ne events hne]

/-- The emulator thread takes an input: the client's own is applied at its port, another's changes
another port. -/
theorem pathInv_poll (hi : PathInv player room s) (hs : s.step player .poll = some s') :
    PathInv player room s' := by
  obtain ⟨events, hinputs, hfollows⟩ := hi.follows
  simp only [InputPath.step] at hs
  split at hs
  · next input rest hin =>
    rw [hinputs] at hin
    cases hin
    rw [execRoom_handleInputEvent] at hs
    cases hs
    by_cases hc : input.clientId = player.clientId
    · obtain ⟨c, data⟩ := input
      obtain rfl : c = player.clientId := hc
      dsimp only
      rw [hi.slot]
      obtain ⟨hframe, hslots⟩ :=
        updateInput_frame { s.room with inputs := some rest } player.port.val data
      refine ⟨by rw [hslots]; exact hi.slot, ⟨rest, hframe, fun value hlatest => ?_⟩, hi.loop,
        hi.small⟩
      exact Shows.applied (hfollows value hlatest)
    · dsimp only
      split
      · next port hport =>
        obtain ⟨hframe, hslots⟩ :=
          updateInput_frame { s.room with inputs := some rest } port input.data
        refine ⟨by rw [hslots]; exact hi.slot, ⟨rest, hframe, fun value hlatest => ?_⟩,
          hi.loop, hi.small⟩
        refine Shows.passed hc ?_ (hfollows value hlatest)
        refine updateInput_controllers_of_ne { s.room with inputs := some rest } input.data ?_
        -- two clients never share a slot
        rintro rfl
        have hmine := PlayerSlots.slotForClient_eq_some.mp hi.slot
        rw [PlayerSlots.slotForClient_eq_some.mp hport] at hmine
        exact hc (Option.some.inj (Option.some.inj hmine))
      · refine ⟨hi.slot, ⟨rest, rfl, fun value hlatest => ?_⟩, hi.loop, hi.small⟩
        exact Shows.passed hc rfl (hfollows value hlatest)
  · cases hs

theorem pathInv_step {a : InputAction} (hi : PathInv player room s)
    (hs : s.step player a = some s') : PathInv player room s' := by
  cases a with
  | tick buttons links => exact pathInv_tick hi hs
  | poll => exact pathInv_poll hi hs
  | deliver index =>
    simp only [InputPath.step] at hs
    split at hs
    · cases hs
    · next packet hpacket =>
      have hsmall : packet.value < 65536 :=
        hi.small packet (List.mem_append_left _ (List.mem_of_getElem? hpacket))
      have hi' : PathInv player room { s with dataChannel := s.dataChannel.eraseIdx index } := by
        refine ⟨hi.slot, hi.follows, hi.loop, fun p hp => hi.small p ?_⟩
        rcases List.mem_append.mp hp with hp | hp
        · exact List.mem_append_left _ (List.mem_of_mem_eraseIdx hp)
        · exact List.mem_append_right _ hp
      exact pathInv_arrive hi' hsmall hs
  | drop index =>
    cases hs
    refine ⟨hi.slot, hi.follows, hi.loop, fun p hp => hi.small p ?_⟩
    rcases List.mem_append.mp hp with hp | hp
    · exact List.mem_append_left _ (List.mem_of_mem_eraseIdx hp)
    · exact List.mem_append_right _ hp
  | relay =>
    simp only [InputPath.step] at hs
    split at hs
    · cases hs
    · next packet rest hsignal =>
      have hmem : ∀ p ∈ packet :: rest, p.value < 65536 := fun p hp =>
        hi.small p (List.mem_append_right _ (by rw [hsignal]; exact hp))
      have hi' : PathInv player room { s with signal := rest } := by
        refine ⟨hi.slot, hi.follows, hi.loop, fun p hp => ?_⟩
        rcases List.mem_append.mp hp with hp | hp
        · exact hi.small p (List.mem_append_left _ hp)
        · exact hmem p (List.mem_cons_of_mem _ hp)
      exact pathInv_arrive hi' (hmem packet (List.mem_cons_self ..)) hs
  | otherInput event =>
    obtain ⟨events, hinputs, hfollows⟩ := hi.follows
    simp only [InputPath.step, hinputs] at hs
    split at hs
    · next hne =>
      cases hs
      refine ⟨hi.slot, ⟨_, rfl, fun value hlatest => ?_⟩, hi.loop, hi.small⟩
      have hshows := hfollows value hlatest
      unfold Shows at hshows ⊢
      rwa [lastInput_append_of_ne events hne]
    · cases hs
  | reseat slots =>
    simp only [InputPath.step] at hs
    split at hs
    · next hslot =>
      cases hs
      exact ⟨hslot, hi.follows, hi.loop, hi.small⟩
    · cases hs

theorem mask_tick {buttons : ButtonState} {links : Links}
    (hs : s.step player (.tick buttons links) = some s') :
    s'.mask = packetValue player.joypadKeys buttons := by
  simp only [InputPath.step] at hs
  split at hs <;> cases hs <;> rfl

theorem mask_arrive {packet : Packet} (hs : s.arrive player packet = some s') :
    s'.mask = s.mask ∧ s'.lastInputPacketValue = s.lastInputPacketValue := by
  obtain ⟨room', -, rfl⟩ := Option.map_eq_some_iff.mp hs
  exact ⟨rfl, rfl⟩

/-- Only a tick computes a mask, and only a tick sends. -/
theorem mask_kept {a : InputAction} (hs : s.step player a = some s')
    (ha : ∀ buttons links, a ≠ .tick buttons links) :
    s'.mask = s.mask ∧ s'.lastInputPacketValue = s.lastInputPacketValue := by
  cases a with
  | tick buttons links => exact absurd rfl (ha buttons links)
  | deliver index =>
    simp only [InputPath.step] at hs
    split at hs
    · cases hs
    · obtain ⟨hmask, hlast⟩ := mask_arrive hs
      exact ⟨hmask, hlast⟩
  | drop index =>
    cases hs
    exact ⟨rfl, rfl⟩
  | relay =>
    simp only [InputPath.step] at hs
    split at hs
    · cases hs
    · obtain ⟨hmask, hlast⟩ := mask_arrive hs
      exact ⟨hmask, hlast⟩
  | poll =>
    simp only [InputPath.step] at hs
    split at hs
    · obtain ⟨room', -, rfl⟩ := Option.map_eq_some_iff.mp hs
      exact ⟨rfl, rfl⟩
    · cases hs
  | otherInput event =>
    simp only [InputPath.step] at hs
    split at hs
    · split at hs
      · cases hs
        exact ⟨rfl, rfl⟩
      · cases hs
    · cases hs
  | reseat slots =>
    simp only [InputPath.step] at hs
    split at hs
    · cases hs
      exact ⟨rfl, rfl⟩
    · cases hs

end Steps

/-! ## The results -/

section Results

variable {player : Player} {room : RoomState} {as : List InputAction} {s : InputPath}

theorem pathInv_run (hseated : Seated player room)
    (h : Run (InputPath.step player) (InputPath.init room) as s) : PathInv player room s :=
  h.invariant (pathInv_init hseated) fun _ _ _ hi _ hs => pathInv_step hi hs

/-- The port shows the value that it will show, once the inputs of the client are applied. -/
theorem PathInv.port_eq {value : UInt32} (hi : PathInv player room s)
    (hlatest : Latest (LeftAt player room) s.arrived value) {events : List InputEvent}
    (hinputs : s.room.inputs = some events)
    (happlied : ∀ event ∈ events, event.clientId ≠ player.clientId) :
    (s.room.controllers player.port).keyState.toUInt32 = value := by
  obtain ⟨events', hinputs', hfollows⟩ := hi.follows
  rw [hinputs] at hinputs'
  cases hinputs'
  obtain ⟨_, hdata | ⟨_, hport⟩⟩ := hfollows value hlatest
  · rw [lastInput_eq_none.mpr happlied] at hdata
    cases hdata
  · exact hport

/-- When the packet sent last has arrived last, it is the mask that will be shown. -/
theorem PathInv.latest_mask (hi : PathInv player room s)
    (hsettled : s.lastInputPacketValue = some s.mask) (harrived : s.arrived = s.sent.head?)
    (hleft : s.sent = [] → LeftAt player room 0) :
    Latest (LeftAt player room) s.arrived s.mask := by
  have hmask : lastValue s.sent = s.mask := by
    rcases hi.loop with hloop | ⟨hloop, _⟩
    · rw [hloop] at hsettled
      exact Option.some.inj hsettled
    · rw [hloop] at hsettled
      cases hsettled
  rw [← hmask, harrived]
  cases hsent : s.sent with
  | nil => exact hleft hsent
  | cons packet older => exact rfl

/-- Once the worker has applied what it was sent, the port shows the packet that arrived last, and
what it was left at when none did. -/
theorem port_follows_arrived (hseated : Seated player room)
    (h : Run (InputPath.step player) (InputPath.init room) as s) {value : UInt32}
    (hlatest : Latest (LeftAt player room) s.arrived value) {events : List InputEvent}
    (hinputs : s.room.inputs = some events)
    (happlied : ∀ event ∈ events, event.clientId ≠ player.clientId) :
    (s.room.controllers player.port).keyState.toUInt32 = value :=
  (pathInv_run hseated h).port_eq hlatest hinputs happlied

/-- **Convergence.**  When the mask is the one last sent, the packet sent last is the one that
reached the worker last, and the worker has applied it, the port shows the client's mask.  A client
that never sent a packet has the mask zero, which its port shows if it was left so. -/
theorem input_converges (hseated : Seated player room)
    (h : Run (InputPath.step player) (InputPath.init room) as s)
    (hsettled : s.lastInputPacketValue = some s.mask) (harrived : s.arrived = s.sent.head?)
    (hleft : s.sent = [] → LeftAt player room 0) {events : List InputEvent}
    (hinputs : s.room.inputs = some events)
    (happlied : ∀ event ∈ events, event.clientId ≠ player.clientId) :
    (s.room.controllers player.port).keyState.toUInt32 = s.mask := by
  have hi := pathInv_run hseated h
  exact hi.port_eq (hi.latest_mask hsettled harrived hleft) hinputs happlied

end Results

/-! ## Concrete runs -/

/-- The first player, with one button. -/
def firstPlayer : Player := ⟨"c", ⟨0, by decide⟩, [0]⟩

def firstRoom : RoomState :=
  { RoomState.init with playerSlots := (PlayerSlots.new.assignClient "c").2 }

/-- The slot has been handed on: its first holder pressed the button and left. -/
def handedOnRoom : RoomState :=
  { RoomState.init.updateInput 0 [1, 0] with
    playerSlots := (((PlayerSlots.new.assignClient "b").2.releaseClient "b").2.assignClient "c").2 }

/-- Every mapped key is down, or none is. -/
def keyDown (down : Bool) : ButtonState := ⟨fun _ => down, fun _ => false, fun _ => false, 0⟩

/-- The data channel is ready. -/
def channelReady : Links := ⟨true, false, true⟩

/-- The button is pressed and released, and the worker gets both packets. -/
theorem input_converges_released :
    ∃ s, Run (InputPath.step firstPlayer) (InputPath.init firstRoom)
        [.tick (keyDown true) channelReady, .deliver 0, .poll,
          .tick (keyDown false) channelReady, .deliver 0, .poll] s ∧
      (s.room.controllers firstPlayer.port).keyState.toUInt32 = s.mask := by
  have hrun : ∃ s, Run (InputPath.step firstPlayer) (InputPath.init firstRoom)
      [.tick (keyDown true) channelReady, .deliver 0, .poll,
        .tick (keyDown false) channelReady, .deliver 0, .poll] s ∧
      s.lastInputPacketValue = some s.mask ∧ s.arrived = s.sent.head? ∧ s.sent ≠ [] ∧
      s.room.inputs = some [] :=
    execWhen_any (by decide +kernel)
  obtain ⟨s, hrun, hsettled, harrived, hsent, hinputs⟩ := hrun
  have hseated : Seated firstPlayer firstRoom := ⟨by decide +kernel, [], rfl⟩
  exact ⟨s, hrun, input_converges hseated hrun hsettled harrived (fun he => absurd he hsent) hinputs
    nofun⟩

/-- **A stuck button.**  The packet of the release is dropped: the mask is zero, nothing is in
flight, and the core still reads the button as pressed.  It does so too in the hands of a client
that never pressed it, when the slot's last holder left it pressed. -/
theorem input_sticks :
    (∃ s, Run (InputPath.step firstPlayer) (InputPath.init firstRoom)
        [.tick (keyDown true) channelReady, .deliver 0, .poll,
          .tick (keyDown false) channelReady, .drop 0, .tick (keyDown false) channelReady] s ∧
      s.lastInputPacketValue = some s.mask ∧ s.dataChannel = [] ∧ s.signal = [] ∧
      s.room.inputs = some [] ∧
      (s.room.controllers firstPlayer.port).keyState.toUInt32 ≠ s.mask) ∧
    ∃ s, Run (InputPath.step firstPlayer) (InputPath.init handedOnRoom)
        [.tick (keyDown false) channelReady] s ∧
      s.lastInputPacketValue = some s.mask ∧ s.sent = [] ∧ s.room.inputs = some [] ∧
      (s.room.controllers firstPlayer.port).keyState.toUInt32 ≠ s.mask :=
  ⟨execWhen_any (by decide +kernel), execWhen_any (by decide +kernel)⟩

end CloudGame.Portal
