import CloudGame.Worker.Calls

/-!
# What the core reads at a port

Slots are kept by the room and controller states by the core, and no operation touches both: giving
a slot away or releasing it leaves the controller of its port as it is.  So a free port keeps its
buttons pressed, and the next client to get the slot starts with them (`port_kept`).

`PortEvent` logs what happens to slots and ports.  `port_state` says what the core reads: the last
packet applied for the holder of the slot since it acquired it, and before there is one the last
packet applied for anybody at all.  An input for which the emulator thread has looked up the slot
may still be applied after the slot has changed hands, but only before the first packet of the new
holder.
-/

namespace CloudGame.Worker

open CloudGame.Lib

inductive PortEvent where
  | acquired (slot : Nat) (clientId : String)
  | released (slot : Nat) (clientId : String)
  /-- `update_input_state` was called for an input of the client. -/
  | applied (port : Nat) (clientId : String) (data : Payload)

/-- What an operation does to slots and ports; `taken` is the input the emulator thread is at. -/
def RoomState.portEvents (room : RoomState) (taken : Option InputEvent) : RoomOp → List PortEvent
  | .assignPlayerSlot c =>
    match (room.playerSlots.assignClient c).1 with
    | (some slot, true) => [.acquired slot c]
    | _ => []
  | .releaseClient c => ((room.playerSlots.slotForClient c).map fun slot => .released slot c).toList
  | .updateInput player data => (taken.map fun input => .applied player input.clientId data).toList
  | _ => []

def portEvents (s : CallState) : CallAction → List PortEvent
  | .run thread => ((s.tasks thread).head.map (s.room.portEvents s.taken)).getD []
  | _ => []

/-- A packet for the port that has a button mask: its client and its bytes. -/
def PortEvent.packetAt (port : Nat) : PortEvent → Option (String × Payload)
  | .applied q c data => if q = port ∧ 2 ≤ data.length then some (c, data) else none
  | _ => none

/-- The last packet applied at the port. -/
def lastPacket (port : Nat) (log : List PortEvent) : Option (String × Payload) :=
  log.findSome? (PortEvent.packetAt port)

/-- The last packet applied at the port for the client since it acquired the slot last. -/
def ownPacket (port : Nat) (c : String) : List PortEvent → Option Payload
  | [] => none
  | .acquired q d :: log => if q = port ∧ d = c then none else ownPacket port c log
  | .applied q d data :: log =>
    if q = port ∧ d = c ∧ 2 ≤ data.length then some data else ownPacket port c log
  | .released _ _ :: log => ownPacket port c log

/-- Who holds the slot. -/
def PlayerSlots.holder (slots : PlayerSlots) (port : Nat) : Option String := slots.slots[port]?.join

/-- The controller as a packet sets it. -/
def packetState (data : Payload) : ControllerState :=
  ⟨fromLeBytes (data.getD 0 0) (data.getD 1 0), axisOf data⟩

/-! ## Slots and controllers -/

theorem holder_eq_some {slots : PlayerSlots} {port : Nat} {c : String} :
    slots.holder port = some c ↔ slots.slotForClient c = some port := by
  rw [PlayerSlots.slotForClient_eq_some, PlayerSlots.holder, Option.join_eq_some_iff]

/-- A slot that is newly assigned has the client as its holder, the others keep theirs. -/
theorem holder_assignClient {slots : PlayerSlots} {c c' : String} {port : Nat}
    (h : (slots.assignClient c).2.holder port = some c') :
    slots.holder port = some c' ∨ c' = c ∧ (slots.assignClient c).1 = (some port, true) := by
  rw [holder_eq_some, PlayerSlots.slotForClient_assignClient] at h
  split at h
  · next he =>
    subst he
    cases hold : slots.slotForClient c' with
    | some slot =>
      left
      have : slots.assignClient c' = ((some slot, false), slots) := by
        unfold PlayerSlots.assignClient
        split
        · next heq => rw [hold] at heq; cases heq; rfl
        · next heq => rw [hold] at heq; cases heq
      rw [this] at h
      rw [holder_eq_some, hold]
      exact h
    | none =>
      right
      have hnew := PlayerSlots.assignClient_isNew hold (by rw [h]; exact nofun)
      exact ⟨rfl, Prod.ext h hnew⟩
  · exact Or.inl (holder_eq_some.mpr h)

theorem holder_releaseClient {slots : PlayerSlots} {c c' : String} {port : Nat}
    (h : (slots.releaseClient c).2.holder port = some c') : slots.holder port = some c' := by
  rw [holder_eq_some, PlayerSlots.slotForClient_releaseClient] at h
  split at h
  · cases h
  · exact holder_eq_some.mpr h

theorem controllers_updateInput (room : RoomState) (player : Nat) (data : Payload)
    (port : Fin maxPlayers) :
    (room.updateInput player data).controllers port =
      if player = port.val ∧ 2 ≤ data.length then packetState data else room.controllers port := by
  unfold RoomState.updateInput updateInputState
  by_cases hlt : player < maxPlayers
  · rw [dif_pos hlt]
    match data with
    | low :: high :: rest =>
      have hlen : 2 ≤ (low :: high :: rest).length := by simp
      by_cases he : player = port.val
      · subst he
        rw [if_pos ⟨rfl, hlen⟩]
        exact Function.update_self ..
      · rw [if_neg fun h => he h.1]
        exact Function.update_of_ne (fun h => he (congrArg Fin.val h).symm) ..
    | [] => rw [if_neg (by simp)]
    | [_] => rw [if_neg (by simp)]
  · rw [dif_neg hlt, if_neg]
    rintro ⟨rfl, -⟩
    exact hlt port.isLt

/-- The controllers change by their own operation only. -/
theorem perform_controllers {description : Session → String} {room room' : RoomState} {i : RoomOp}
    {r : i.Reply} (h : room.perform description i = some (r, room'))
    (hother : ∀ player data, i ≠ .updateInput player data) :
    room'.controllers = room.controllers := by
  cases i with
  | updateInput player data => exact absurd rfl (hother player data)
  | insertSession c session => rcases RoomState.perform_insertSession h with rfl | rfl <;> rfl
  | removeSession c => obtain ⟨_, rfl⟩ := RoomState.perform_removeSession h; rfl
  | withClientSession c => obtain ⟨_, rfl⟩ := RoomState.perform_withClientSession h; rfl
  | assignPlayerSlot c => obtain ⟨_, rfl⟩ := RoomState.perform_assignPlayerSlot h; rfl
  | sendInput event => obtain ⟨_, rfl⟩ := RoomState.perform_sendInput h; rfl
  | _ => cases h; rfl

/-! ## The invariant -/

/-- The holder of the port is the client of the input, or none of its packets was applied yet. -/
def Undisturbed (slots : PlayerSlots) (log : List PortEvent) (port : Nat) (c : String) : Prop :=
  ∀ c', slots.holder port = some c' → c' = c ∨ ownPacket port c' log = none

structure PortsKept (room : RoomState) (log : List PortEvent) : Prop where
  controllers : ∀ port : Fin maxPlayers, room.controllers port =
    ((lastPacket port log).map fun packet => packetState packet.2).getD ControllerState.default
  holders : ∀ port c, room.playerSlots.holder port = some c → .acquired port c ∈ log
  applied : ∀ port c data, .applied port c data ∈ log → .acquired port c ∈ log
  own : ∀ port c data, room.playerSlots.holder port = some c → ownPacket port c log = some data →
    lastPacket port log = some (c, data)

/-! ### Logged events -/

theorem ownPacket_acquired_self {port : Nat} {c : String} {log : List PortEvent} :
    ownPacket port c (.acquired port c :: log) = none := by
  simp [ownPacket]

/-- What happens to slots is no packet. -/
theorem ownPacket_of_acquired {port q : Nat} {c d : String} {log : List PortEvent} {data : Payload}
    (h : ownPacket port c (.acquired q d :: log) = some data) :
    ownPacket port c log = some data := by
  simp only [ownPacket] at h
  split at h
  · cases h
  · exact h

theorem lastPacket_applied {port q : Nat} {c : String} {data : Payload} {log : List PortEvent} :
    lastPacket port (.applied q c data :: log) =
      if q = port ∧ 2 ≤ data.length then some (c, data) else lastPacket port log := by
  simp only [lastPacket, List.findSome?_cons, PortEvent.packetAt]
  by_cases h : q = port ∧ 2 ≤ data.length
  · rw [if_pos h, if_pos h]
  · rw [if_neg h, if_neg h]

/-- A packet that was applied for the last time at the port was applied there. -/
theorem applied_of_lastPacket {port : Nat} {c : String} {data : Payload} {log : List PortEvent}
    (h : lastPacket port log = some (c, data)) : .applied port c data ∈ log := by
  obtain ⟨e, he, hpacket⟩ := List.exists_of_findSome?_eq_some h
  cases e with
  | acquired q d => cases hpacket
  | released q d => cases hpacket
  | applied q d data' =>
    simp only [PortEvent.packetAt] at hpacket
    split at hpacket
    · next hq => cases hpacket; exact hq.1 ▸ he
    · cases hpacket

section Perform

variable {description : Session → String} {room room' : RoomState} {log : List PortEvent}
  {taken : Option InputEvent} {i : RoomOp} {r : i.Reply}

/-- A newly assigned slot is logged, and nothing else an assignment does. -/
theorem portEvents_assign (room : RoomState) (taken : Option InputEvent) (c : String) :
    (room.portEvents taken (.assignPlayerSlot c) = [] ∧
        ∀ slot, (room.playerSlots.assignClient c).1 ≠ (some slot, true)) ∨
      ∃ slot, (room.playerSlots.assignClient c).1 = (some slot, true) ∧
        room.portEvents taken (.assignPlayerSlot c) = [.acquired slot c] := by
  simp only [RoomState.portEvents]
  split
  · next slot hout => exact Or.inr ⟨slot, hout, rfl⟩
  · next hnot => exact Or.inl ⟨rfl, fun slot he => hnot slot he⟩

/-- Operations other than an input of the core. -/
theorem PortsKept.perform (h : PortsKept room log)
    (hperform : room.perform description i = some (r, room'))
    (hother : ∀ player data, i ≠ .updateInput player data) :
    PortsKept room' (room.portEvents taken i ++ log) := by
  have hcontrollers := perform_controllers hperform hother
  cases i with
  | updateInput player data => exact absurd rfl (hother player data)
  | assignPlayerSlot c =>
    have hslots : room'.playerSlots = (room.playerSlots.assignClient c).2 := by
      obtain ⟨_, rfl⟩ := RoomState.perform_assignPlayerSlot hperform
      rfl
    rcases portEvents_assign room taken c with ⟨hevents, hold⟩ | ⟨slot, hout, hevents⟩
    · have hholder : ∀ port c', room'.playerSlots.holder port = some c' →
          room.playerSlots.holder port = some c' := by
        intro port c' hc'
        rw [hslots] at hc'
        exact (holder_assignClient hc').resolve_right fun hn => hold port hn.2
      rw [hevents]
      exact ⟨fun port => by rw [hcontrollers]; exact h.controllers port,
        fun port c' hc' => h.holders port c' (hholder port c' hc'), h.applied,
        fun port c' data hc' => h.own port c' data (hholder port c' hc')⟩
    · rw [hevents]
      refine ⟨fun port => by rw [hcontrollers]; exact h.controllers port, fun port c' hc' => ?_,
        fun port c' data hmem => ?_, fun port c' data hc' hown => ?_⟩
      · rw [hslots] at hc'
        rcases holder_assignClient hc' with hkept | ⟨rfl, hnew⟩
        · exact List.mem_cons_of_mem _ (h.holders port c' hkept)
        · rw [hout] at hnew
          cases hnew
          exact List.mem_cons_self ..
      · rcases List.mem_cons.mp hmem with he | hmem
        · cases he
        · exact List.mem_cons_of_mem _ (h.applied port c' data hmem)
      · rw [hslots] at hc'
        rcases holder_assignClient hc' with hkept | ⟨rfl, hnew⟩
        · exact h.own port c' data hkept (ownPacket_of_acquired hown)
        · -- a new holder has had no packet
          rw [hout] at hnew
          cases hnew
          rw [List.singleton_append, ownPacket_acquired_self] at hown
          cases hown
  | releaseClient c =>
    cases hperform
    have hholder : ∀ port c', (room.playerSlots.releaseClient c).2.holder port = some c' →
        room.playerSlots.holder port = some c' := fun _ _ => holder_releaseClient
    simp only [RoomState.portEvents]
    cases room.playerSlots.slotForClient c with
    | none => exact ⟨h.controllers, fun port c' hc' => h.holders port c' (hholder port c' hc'),
        h.applied, fun port c' data hc' => h.own port c' data (hholder port c' hc')⟩
    | some slot =>
      refine ⟨h.controllers, fun port c' hc' => ?_, fun port c' data hmem => ?_,
        fun port c' data hc' => h.own port c' data (hholder port c' hc')⟩
      · exact List.mem_cons_of_mem _ (h.holders port c' (hholder port c' hc'))
      · rcases List.mem_cons.mp hmem with he | hmem
        · cases he
        · exact List.mem_cons_of_mem _ (h.applied port c' data hmem)
  | _ =>
    have hslots := (RoomState.perform_frame hperform).2.1 rfl
    exact ⟨fun port => by rw [hcontrollers]; exact h.controllers port,
      fun port c' => by rw [hslots]; exact h.holders port c', h.applied,
      fun port c' data => by rw [hslots]; exact h.own port c' data⟩

/-- An input for the port of a client that had it, and whose successor had no packet yet. -/
theorem PortsKept.updateInput {input : InputEvent} {player : Nat} (h : PortsKept room log)
    (hacquired : .acquired player input.clientId ∈ log)
    (hright : Undisturbed room.playerSlots log player input.clientId) :
    PortsKept (room.updateInput player input.data)
      (room.portEvents (some input) (.updateInput player input.data) ++ log) := by
  have hslots : (room.updateInput player input.data).playerSlots = room.playerSlots := by
    obtain ⟨_, he⟩ := room.updateInput_eq player input.data
    rw [he]
  show PortsKept _ (.applied player input.clientId input.data :: log)
  refine ⟨fun port => ?_, fun port c hc => ?_, fun port c data hmem => ?_,
    fun port c data hc hown => ?_⟩
  · rw [controllers_updateInput, lastPacket_applied, h.controllers port]
    split <;> rfl
  · rw [hslots] at hc
    exact List.mem_cons_of_mem _ (h.holders port c hc)
  · rcases List.mem_cons.mp hmem with he | hmem
    · cases he; exact List.mem_cons_of_mem _ hacquired
    · exact List.mem_cons_of_mem _ (h.applied port c data hmem)
  · rw [hslots] at hc
    rw [lastPacket_applied]
    simp only [ownPacket] at hown
    split at hown
    · next hself =>
      obtain ⟨rfl, rfl, hlen⟩ := hself
      cases hown
      rw [if_pos ⟨rfl, hlen⟩]
    · next hother =>
      rw [if_neg]
      · exact h.own port c data hc hown
      · -- the holder's own packets come after this one
        rintro ⟨rfl, hlen⟩
        rcases hright c hc with rfl | hnone
        · exact hother ⟨rfl, rfl, hlen⟩
        · rw [hnone] at hown; cases hown

/-- An operation of another thread leaves alone what the emulator thread relies on. -/
theorem Undisturbed.perform {port : Nat} {c : String} (h : Undisturbed room.playerSlots log port c)
    (hperform : room.perform description i = some (r, room'))
    (hother : ∀ player data, i ≠ .updateInput player data) :
    Undisturbed room'.playerSlots (room.portEvents taken i ++ log) port c := by
  intro c' hc'
  cases i with
  | updateInput player data => exact absurd rfl (hother player data)
  | assignPlayerSlot d =>
    have hslots : room'.playerSlots = (room.playerSlots.assignClient d).2 := by
      obtain ⟨_, rfl⟩ := RoomState.perform_assignPlayerSlot hperform
      rfl
    rw [hslots] at hc'
    rcases portEvents_assign room taken d with ⟨hevents, hold⟩ | ⟨slot, hout, hevents⟩
    · rw [hevents]
      exact h c' ((holder_assignClient hc').resolve_right fun hn => hold port hn.2)
    · rw [hevents]
      rcases holder_assignClient hc' with hkept | ⟨rfl, hnew⟩
      · refine (h c' hkept).imp_right fun hnone => ?_
        show ownPacket port c' (.acquired slot d :: log) = none
        simp only [ownPacket, hnone, ite_self]
      · rw [hout] at hnew
        cases hnew
        exact Or.inr ownPacket_acquired_self
  | releaseClient d =>
    cases hperform
    refine (h c' (holder_releaseClient hc')).imp_right fun hnone => ?_
    simp only [RoomState.portEvents]
    cases room.playerSlots.slotForClient d <;> exact hnone
  | _ =>
    rw [(RoomState.perform_frame hperform).2.1 rfl] at hc'
    exact h c' hc'

end Perform

/-! ## Every run -/

/-- What the emulator thread is about to apply at a port. -/
def AppliesRight (s : CallState) (log : List PortEvent) : Prop :=
  ∀ input player, s.taken = some input →
    s.tasks .emulator = Call.updateInput player input.data →
    .acquired player input.clientId ∈ log ∧
      Undisturbed s.room.playerSlots log player input.clientId

section Steps

variable {description : Session → String} {s s' : CallState} {log log' : List PortEvent}

/-- Callers apply no input. -/
theorem callers_apply_nothing {as : List CallAction}
    (h : Run (CallState.step description) CallState.init as s) (n : Nat) :
    (s.tasks (.caller n)).Along fun i _ => ∀ player data, i ≠ RoomOp.updateInput player data := by
  have halong := along_run (s := s)
    (P := fun t i _ => t ≠ .emulator → ∀ player data, i ≠ RoomOp.updateInput player data)
    (fun n method => ?_) (fun input => (Prog.all_true _).along fun _ _ _ hne => absurd rfl hne) h
    (.caller n)
  · exact halong.mono fun i k hi => hi nofun
  · refine Prog.All.along (fun i k hi _ => hi) (all_prog fun i hi player data he => ?_)
    subst he
    cases method <;> simp [RoomCall.Performs] at hi

/-- One operation: what the emulator thread applies is right, and what it has to apply stays so. -/
theorem ports_performed {thread : ThreadId} {i : RoomOp} {k : i.Reply → RoomM Unit} {r : i.Reply}
    {room : RoomState} (h : PortsKept s.room log ∧ AppliesRight s log)
    (hat : EmulatorAt s.taken (s.tasks .emulator))
    (hcallers : ∀ n, (s.tasks (.caller n)).Along fun i _ =>
      ∀ player data, i ≠ RoomOp.updateInput player data)
    (hprog : s.tasks thread = .op i k)
    (hperform : s.room.perform description i = some (r, room)) :
    PortsKept room (s.room.portEvents s.taken i ++ log) ∧
      AppliesRight (s.performed thread (k r) room) (s.room.portEvents s.taken i ++ log) := by
  obtain ⟨hkept, hright⟩ := h
  cases thread with
  | caller n =>
    have hother : ∀ player data, i ≠ .updateInput player data := by
      have hn := hcallers n
      rw [hprog] at hn
      exact hn.1
    refine ⟨hkept.perform hperform hother, fun input player htaken htask => ?_⟩
    rw [CallState.tasks_performed, if_neg nofun] at htask
    obtain ⟨hacquired, hund⟩ := hright input player htaken htask
    exact ⟨List.mem_append_right _ hacquired, hund.perform hperform hother⟩
  | emulator =>
    rw [hprog] at hat
    generalize htaken : s.taken = taken at hat
    cases hat with
    | asks input =>
      refine ⟨hkept.perform hperform nofun, fun input' player htaken' htask => ?_⟩
      rw [CallState.tasks_performed, if_pos rfl] at htask
      obtain rfl : input' = input := Option.some.inj (htaken'.symm.trans htaken)
      cases hperform
      cases hslot : s.room.playerSlots.slotForClient input'.clientId with
      | none => rw [hslot] at htask; cases htask
      | some slot =>
        rw [hslot] at htask
        cases htask
        have hholder := holder_eq_some.mpr hslot
        refine ⟨hkept.holders _ _ hholder, fun c hc => Or.inl ?_⟩
        exact (Option.some.inj (hholder.symm.trans hc)).symm
    | applies input player =>
      obtain ⟨hacquired, hund⟩ := hright input player htaken hprog
      cases hperform
      exact ⟨hkept.updateInput hacquired hund, fun _ _ _ htask => by
        rw [CallState.tasks_performed, if_pos rfl] at htask
        cases htask⟩
    | queues input =>
      refine ⟨hkept.perform hperform nofun, fun _ _ _ htask => ?_⟩
      rw [CallState.tasks_performed, if_pos rfl] at htask
      cases htask

theorem ports_step {a : CallAction} (h : PortsKept s.room log ∧ AppliesRight s log)
    (hat : EmulatorAt s.taken (s.tasks .emulator))
    (hcallers : ∀ n, (s.tasks (.caller n)).Along fun i _ =>
      ∀ player data, i ≠ RoomOp.updateInput player data)
    (hs : s.step description a = some s') :
    PortsKept s'.room (portEvents s a ++ log) ∧ AppliesRight s' (portEvents s a ++ log) := by
  cases callStep_cases hs with
  | call n method hidle =>
    refine ⟨h.1, fun input player htaken htask => h.2 input player htaken ?_⟩
    rwa [CallState.tasks_start, if_neg nofun] at htask
  | poll input rest hin hidle =>
    obtain ⟨hcontrollers, hholders, happlied, hown⟩ := h.1
    refine ⟨⟨hcontrollers, hholders, happlied, hown⟩, fun _ _ _ htask => ?_⟩
    rw [CallState.tasks_take, if_pos rfl] at htask
    cases htask
  | run thread i k r room hprog hperform =>
    have hevents : portEvents s (.run thread) = s.room.portEvents s.taken i := by
      simp only [portEvents, hprog, Prog.head, Option.map_some, Option.getD_some]
    rw [hevents]
    exact ports_performed h hat hcallers hprog hperform
  | emulatorFails hidle =>
    obtain ⟨hcontrollers, hholders, happlied, hown⟩ := h.1
    exact ⟨⟨hcontrollers, hholders, happlied, hown⟩, h.2⟩

/-- **What the core reads at a port.**  If the holder of the slot has had a packet applied since it
acquired the slot, the last such; otherwise the last packet that was applied at the port for anybody
who had the slot before, and all zero if there was none. -/
theorem port_state {as : List CallAction}
    (h : Run (logged (CallState.step description) portEvents) (CallState.init, []) as (s, log))
    (port : Fin maxPlayers) :
    (∀ c data, s.room.playerSlots.holder port = some c → ownPacket port c log = some data →
        s.room.controllers port = packetState data) ∧
      ((∀ c, s.room.playerSlots.holder port = some c → ownPacket port c log = none) →
        s.room.controllers port = match lastPacket port log with
          | some (_, data) => packetState data
          | none => ControllerState.default) ∧
      ∀ c data, lastPacket port log = some (c, data) → .acquired port.val c ∈ log := by
  have hkept : PortsKept s.room log := by
    have hinit : PortsKept RoomState.init [] := by
      refine ⟨fun _ => rfl, fun port c hc => ?_, nofun, nofun⟩
      rw [holder_eq_some] at hc
      cases hc
    have hinv := h.relative (I := fun s => PortsKept s.1.room s.2 ∧ AppliesRight s.1 s.2)
      ⟨hinit, fun _ _ htaken => by cases htaken⟩ fun as s a s' hrun hi _ hs => ?_
    · exact hinv.1
    · obtain ⟨hstep, hlog⟩ := withGhost_eq_some hs
      have hrun' : Run (CallState.step description) CallState.init as s.1 := withGhost_run hrun
      rw [hlog]
      exact ports_step hi (emulatorAt_run hrun') (callers_apply_nothing hrun') hstep
  refine ⟨fun c data hc hown => ?_, fun _ => ?_, fun c data hlast => ?_⟩
  · rw [hkept.controllers port, hkept.own port c data hc hown]
    rfl
  · rw [hkept.controllers port]
    cases lastPacket port log <;> rfl
  · exact hkept.applied port c data (applied_of_lastPacket hlast)

/-- A client is given slot 0 and sends a packet with one button pressed, which is applied. -/
def pressOnce : List CallAction :=
  .call 0 (.bufferOrSendInput "a" [1, 0]) :: callerRuns 0 6 ++ pollAndHandle

/-- The client is terminated, and the next one is given the slot. -/
def pressThenRelease : List CallAction :=
  pressOnce ++ .call 0 (.releaseInputSource "a") :: callerRuns 0 4

def pressThenSucceed : List CallAction :=
  pressThenRelease ++ .call 0 (.assignPlayerSlot "b") :: callerRuns 0 1

theorem port_state_pressed :
    (∃ s, Run (logged (CallState.step fun _ => "") portEvents) (CallState.init, []) pressOnce s ∧
      s.1.room.controllers ⟨0, by decide⟩ = packetState [1, 0]) ∧
    ∃ s, Run (logged (CallState.step fun _ => "") portEvents) (CallState.init, [])
      pressThenSucceed s ∧ s.1.room.controllers ⟨0, by decide⟩ = packetState [1, 0] ∧
      .acquired 0 "a" ∈ s.2 := by
  have hholder : ∃ s, Run (logged (CallState.step fun _ => "") portEvents) (CallState.init, [])
      pressOnce s ∧ s.1.room.playerSlots.holder 0 = some "a" ∧
      ownPacket 0 "a" s.2 = some [1, 0] := execWhen_any (by decide +kernel)
  have hnext : ∃ s, Run (logged (CallState.step fun _ => "") portEvents) (CallState.init, [])
      pressThenSucceed s ∧ s.1.room.playerSlots.holder 0 = some "b" ∧ ownPacket 0 "b" s.2 = none ∧
      lastPacket 0 s.2 = some ("a", [1, 0]) := execWhen_any (by decide +kernel)
  obtain ⟨s, hrun, hc, hown⟩ := hholder
  obtain ⟨s', hrun', hc', hown', hlast⟩ := hnext
  obtain ⟨-, hbefore, hacquired⟩ := port_state hrun' ⟨0, by decide⟩
  refine ⟨⟨s, hrun, (port_state hrun ⟨0, by decide⟩).1 "a" _ hc hown⟩, s', hrun', ?_,
    hacquired "a" _ hlast⟩
  have hstate := hbefore fun c hholds => by
    obtain rfl : "b" = c := Option.some.inj (hc'.symm.trans hholds)
    exact hown'
  rw [hlast] at hstate
  exact hstate

/-- **A port keeps its state.**  The slot is free and its button pressed; and so it is for the next
client, which has sent nothing. -/
theorem port_kept :
    (∃ s, Run (logged (CallState.step fun _ => "") portEvents) (CallState.init, [])
      pressThenRelease s ∧ s.1.room.playerSlots.holder 0 = none ∧
      (s.1.room.controllers ⟨0, by decide⟩).keyState = 1) ∧
    ∃ s, Run (logged (CallState.step fun _ => "") portEvents) (CallState.init, [])
      pressThenSucceed s ∧ s.1.room.playerSlots.holder 0 = some "b" ∧ ownPacket 0 "b" s.2 = none ∧
      (s.1.room.controllers ⟨0, by decide⟩).keyState = 1 :=
  ⟨execWhen_any (by decide +kernel), execWhen_any (by decide +kernel)⟩

end Steps

end CloudGame.Worker
