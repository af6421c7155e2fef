import CloudGame.Lib.Base64
import CloudGame.Lib.Since
import CloudGame.Worker.Calls
import CloudGame.Worker.EarlySignals
import CloudGame.Worker.Ports

/-!
# The last input of a client without a session

A phone controller has no session: what the worker knows of it are the `joinRoom` and `input`
messages that the router handles one after the other, while the emulator thread takes inputs from
the channel and the sessions of other clients come and go.  The router's ghost (`placedGhost`) is
what it has done last for the client; `LastInputInv` connects it to the channel and the port.

`port_shows_last_input`: once everything of the client is done, the port of its slot shows the bytes
of the last input that was handled, if it was handled after the last `joinRoom`.
-/

namespace CloudGame.Worker

open CloudGame.Lib CloudGame.Signal

/-- The message gives the client a slot or carries an input of it. -/
def Disturbs (c : String) (msg : SignalMessage) : Prop :=
  signalClientId msg = some c ∧ (msg.id = SignalIds.joinRoom ∨ msg.id = SignalIds.input)

/-- The message carries these bytes for the client. -/
def InputOf (codec : Codec) (c : String) (data : Payload) (msg : SignalMessage) : Prop :=
  msg.id = SignalIds.input ∧ signalClientId msg = some c ∧
    ∃ text, signalPayload msg = some text ∧ codec.decode text = some data

/-- The message makes a session for the client. -/
def Initiates (c : String) (msg : SignalMessage) : Prop :=
  msg.id = SignalIds.initWebrtc ∧ signalClientId msg = some c

/-- The operation neither gives the client a slot nor places or applies an input of it. -/
def LeavesInputs (c : String) : RoomOp → Prop
  | .assignPlayerSlot c' => c' ≠ c
  | .sendInput event => event.clientId ≠ c
  | .updateInput _ _ => False
  | .newSession c' => c' ≠ c
  | .enqueueSignal msg => ∃ c', SignalOf c' msg
  | _ => True

/-! ## The router -/

/-- What the router has done last for the client. -/
inductive LastPlaced where
  | unknown
  /-- It found no slot for it. -/
  | unseated
  /-- It placed these bytes on the channel. -/
  | input (data : Payload)

/-- The input was placed, or the client was given no slot. -/
def LastPlaced.Settles (data : Payload) (g : LastPlaced) : Prop := g = .unseated ∨ g = .input data

def placedGhost (c : String) : Prog.Ghost RoomOp RoomOp.Reply LastPlaced where
  ok _ i :=
    match i with
    | .assignPlayerSlot _ | .sendInput _ => True
    | i => LeavesInputs c i
  adm _ i :=
    match i with
    | .drainSignals c' => fun pending => ∀ msg ∈ pending, SignalOf c' msg
    | _ => fun _ => True
  next g i :=
    match i with
    | .assignPlayerSlot c' => fun slot =>
      if c' ≠ c then g else if slot.isNone then .unseated else .unknown
    | .sendInput event => fun _ => if event.clientId ≠ c then g else .input event.data
    | _ => fun _ => g

section Router

variable {c : String} {codec : Codec} {data : Payload} {g : LastPlaced}

/-- A program that leaves the inputs of the client changes nothing. -/
theorem wp_leaves {α : Type} {p : RoomM α} (hp : p.All (LeavesInputs c)) {Q : LastPlaced → α → Prop}
    (hQ : ∀ a, Q g a) : p.Wp (placedGhost c) Q g := by
  refine Prog.All.wp_same (P := LeavesInputs c) (fun i hi => ?_) (fun i r hi => ?_) hp hQ
  · cases i <;> trivial
  · cases i with
    | assignPlayerSlot c' => exact if_pos hi
    | sendInput event => exact if_pos hi
    | _ => rfl

/-- What is sent of a client, whatever it is. -/
theorem placed_sendInputs (payloads : List Payload) {Q : LastPlaced → Unit → Prop}
    (hQ : ∀ g, Q g ()) : (sendInputs c payloads).Wp (placedGhost c) Q g := by
  induction payloads generalizing g with
  | nil => exact hQ g
  | cons payload rest ih =>
    refine ⟨trivial, fun sent _ => ?_⟩
    cases sent with
    | true => exact ih
    | false => exact hQ _

/-- An input of the client is placed last, or the client has no slot. -/
theorem placed_bufferOrSendInput :
    (bufferOrSendInput c data).Wp (placedGhost c) (fun g _ => g.Settles data) g := by
  have hsend : ∀ g, (Call.sendInput ⟨c, data⟩ >>= fun _ => pure ()).Wp (placedGhost c)
      (fun g _ => g.Settles data) g := by
    intro g
    refine ⟨trivial, fun _ _ => Or.inr ?_⟩
    exact if_neg (not_not.mpr rfl)
  have hflush : ∀ (already : Option Nat) g,
      (do if already.isNone then flushPendingInputsToSender c
          let _sent ← Call.sendInput ⟨c, data⟩ : RoomM Unit).Wp (placedGhost c)
        (fun g _ => g.Settles data) g := by
    intro already g
    cases already with
    | some _ => exact hsend g
    | none =>
      refine ⟨trivial, fun pending _ => ?_⟩
      exact Prog.Wp.bind (placed_sendInputs pending hsend)
  unfold bufferOrSendInput
  refine ⟨trivial, fun already _ => ⟨trivial, fun existing _ => ?_⟩⟩
  cases existing with
  | some slot => exact hflush already _
  | none =>
    refine ⟨trivial, fun _ _ => ⟨trivial, fun slot _ => ?_⟩⟩
    cases slot with
    | some slot => exact hflush already _
    | none =>
      -- the input waits among the pending ones
      refine ⟨trivial, fun _ _ => ⟨trivial, fun _ _ => Or.inl ?_⟩⟩
      show (if c ≠ c then _ else if (none : Option Nat).isNone then _ else _) = _
      rw [if_neg (not_not.mpr rfl)]
      rfl

/-! ### Programs that spare the client -/

theorem leaves_joinRoom {c' : String} (h : c' ≠ c) : (joinRoom c').All (LeavesInputs c) :=
  ⟨trivial, fun _ => ⟨h, fun _ => trivial⟩⟩

theorem leaves_bufferOrSendInput {c' : String} (h : c' ≠ c) (payload : Payload) :
    (bufferOrSendInput c' payload).All (LeavesInputs c) :=
  all_bufferOrSendInput trivial h trivial trivial trivial fun _ => h

theorem leaves_unregister {α : Type} {c' : String} {rest : Option Session → RoomM α}
    (hrest : ∀ removed, (rest removed).All (LeavesInputs c)) :
    (unregisterClientSession c' >>= rest).All (LeavesInputs c) := by
  refine ⟨trivial, fun removed => ?_⟩
  cases removed with
  | none => exact hrest none
  | some session =>
    refine ⟨trivial, fun _ => ⟨trivial, fun _ => ⟨trivial, fun released => ?_⟩⟩⟩
    cases released with
    | false => exact hrest (some session)
    | true => exact ⟨trivial, fun _ => ⟨trivial, fun _ => hrest (some session)⟩⟩

theorem leaves_closeRemoved (removed : Option Session) :
    (closeRemoved removed).All (LeavesInputs c) :=
  Prog.All.whenSome fun _ => ⟨trivial, fun _ => trivial⟩

theorem leaves_onPeerStateChange (session : Session) (state : PeerConnectionState) :
    (onPeerStateChange session state).All (LeavesInputs c) := by
  unfold onPeerStateChange
  split
  · exact leaves_unregister leaves_closeRemoved
  · trivial

theorem leaves_videoTaskEnd (session : Session) : (videoTaskEnd session).All (LeavesInputs c) :=
  ⟨trivial, fun _ => leaves_unregister fun _ => ⟨trivial, fun _ => trivial⟩⟩

theorem leaves_onInputMessage {session : Session} (h : session.id ≠ c) (data : Payload) :
    (onInputMessage session data).All (LeavesInputs c) := by
  unfold onInputMessage
  split
  · exact leaves_bufferOrSendInput h data
  · trivial

theorem leaves_handleTerminateSession (msg : SignalMessage) :
    (handleTerminateSession msg).All (LeavesInputs c) := by
  refine Prog.All.whenSome fun c' => ⟨trivial, fun _ => ⟨trivial, fun _ => ⟨trivial, ?_⟩⟩⟩
  intro released
  have hreport : (reportRelease released).All (LeavesInputs c) :=
    all_reportRelease trivial fun _ => trivial
  exact hreport.bind fun _ => leaves_unregister leaves_closeRemoved

theorem leaves_handleSessionSignal {msg : SignalMessage}
    (hid : msg.id = SignalIds.answer ∨ msg.id = SignalIds.candidate) :
    (handleSessionSignal msg).All (LeavesInputs c) := by
  unfold handleSessionSignal
  cases hclient : signalClientId msg with
  | none => trivial
  | some c' =>
    cases hpayload : signalPayload msg with
    | none => trivial
    | some payload =>
      refine ⟨trivial, fun session => ?_⟩
      cases session with
      | some session => exact ⟨trivial, fun _ => trivial⟩
      | none => exact ⟨⟨c', hid, hclient, by simp [hpayload]⟩, fun _ => trivial⟩

theorem leaves_handleNonInitMessage {msg : SignalMessage} (h : ¬ Disturbs c msg) :
    (handleNonInitMessage codec msg).All (LeavesInputs c) := by
  have hother : msg.id = SignalIds.joinRoom ∨ msg.id = SignalIds.input →
      ∀ c', signalClientId msg = some c' → c' ≠ c := by
    rintro hid c' hc rfl
    exact h ⟨hc, hid⟩
  unfold handleNonInitMessage
  split
  · next hid => exact leaves_handleSessionSignal (Or.inl hid)
  split
  · next hid => exact leaves_handleSessionSignal (Or.inr hid)
  split
  · next hid =>
    unfold handleJoinRoom
    cases hc : signalClientId msg with
    | none => trivial
    | some c' => exact (leaves_joinRoom (hother (Or.inl hid) c' hc)).bind fun _ => trivial
  split
  · next hid =>
    unfold handleInput
    cases hc : signalClientId msg with
    | none => trivial
    | some c' =>
      have hne := hother (Or.inr hid) c' hc
      show (Prog.whenSome (signalPayload msg) _).All _
      exact Prog.All.whenSome fun _ => Prog.All.whenSome fun values =>
        leaves_bufferOrSendInput hne values
  · trivial

/-! ### The messages -/

/-- What is replayed are answers and candidates. -/
theorem placed_handleInitWebrtc (ready : Bool) {msg : SignalMessage} (h : ¬ Initiates c msg)
    (hid : msg.id = SignalIds.initWebrtc) {Q : LastPlaced → Unit → Prop} (hQ : Q g ()) :
    (handleInitWebrtc codec ready msg).Wp (placedGhost c) Q g := by
  unfold handleInitWebrtc
  cases hclient : signalClientId msg with
  | none => exact hQ
  | some c' =>
    have hother : c' ≠ c := fun he => h ⟨hid, by rw [hclient, he]⟩
    cases ready with
    | false => exact hQ
    | true =>
      refine ⟨hother, fun session _ => ⟨trivial, fun registered _ => ?_⟩⟩
      cases registered with
      | false => exact ⟨trivial, fun _ _ => hQ⟩
      | true =>
        refine ⟨trivial, fun _ _ => ⟨trivial, fun _ _ => ⟨trivial, fun sent _ => ?_⟩⟩⟩
        cases sent with
        | false => exact hQ
        | true =>
          refine ⟨trivial, fun pending hpending => wp_leaves ?_ fun _ => hQ⟩
          refine Prog.All.each fun m hm => leaves_handleNonInitMessage ?_
          -- a signal disturbs nobody
          rintro ⟨-, hjoin | hinput⟩
          · rcases (hpending m hm).1 with hm' | hm' <;> rw [hm'] at hjoin <;> revert hjoin <;>
              decide
          · rcases (hpending m hm).1 with hm' | hm' <;> rw [hm'] at hinput <;> revert hinput <;>
              decide

/-- A message that neither disturbs the client nor makes a session for it. -/
theorem placed_handleMessage_leaves (ready : Bool) {msg : SignalMessage} (hinit : ¬ Initiates c msg)
    (h : ¬ Disturbs c msg) {Q : LastPlaced → Unit → Prop} (hQ : Q g ()) :
    (handleMessage codec ready msg).Wp (placedGhost c) Q g := by
  unfold handleMessage
  split
  · next hid => exact placed_handleInitWebrtc ready hinit hid hQ
  split
  · exact wp_leaves (leaves_handleTerminateSession msg) fun _ => hQ
  · exact wp_leaves (leaves_handleNonInitMessage h) fun _ => hQ

/-- An input of the client. -/
theorem placed_handleMessage_input (ready : Bool) {msg : SignalMessage}
    (h : InputOf codec c data msg) :
    (handleMessage codec ready msg).Wp (placedGhost c) (fun g _ => g.Settles data) g := by
  obtain ⟨hid, hclient, text, hpayload, hdecode⟩ := h
  have hprog : handleMessage codec ready msg = handleInput codec msg := by
    unfold handleMessage handleNonInitMessage
    rw [hid]
    rfl
  rw [hprog, handleInput, hclient, hpayload]
  show (Prog.whenSome (codec.decode text) _).Wp _ _ _
  rw [hdecode]
  exact placed_bufferOrSendInput

/-- Any message but one that makes a session for the client is allowed. -/
theorem placed_handleMessage (ready : Bool) {msg : SignalMessage} (hinit : ¬ Initiates c msg) :
    (handleMessage codec ready msg).Wp (placedGhost c) (fun _ _ => True) g := by
  by_cases h : Disturbs c msg
  · obtain ⟨hclient, hjoin | hinput⟩ := h
    · have hprog : handleMessage codec ready msg = handleJoinRoom msg := by
        unfold handleMessage handleNonInitMessage
        rw [hjoin]
        rfl
      rw [hprog, handleJoinRoom, hclient]
      exact ⟨trivial, fun _ _ => ⟨trivial, fun _ _ => trivial⟩⟩
    · have hprog : handleMessage codec ready msg = handleInput codec msg := by
        unfold handleMessage handleNonInitMessage
        rw [hinput]
        rfl
      rw [hprog, handleInput, hclient]
      show (Prog.whenSome (signalPayload msg) _).Wp _ _ _
      refine Prog.Wp.whenSome (fun _ => trivial) fun text _ => ?_
      refine Prog.Wp.whenSome (fun _ => trivial) fun values _ => ?_
      exact placed_bufferOrSendInput.mono fun _ _ _ => trivial
  · exact placed_handleMessage_leaves ready hinit h trivial

end Router

/-! ## The channel and the port -/

/-- The client's last input on the channel. -/
def Waits (c : String) (data : Payload) (events : List InputEvent) : Prop :=
  Since (fun event => event = ⟨c, data⟩) (fun event => event.clientId ≠ c) events.reverse

/-- The bytes have left the channel for the port: the emulator thread is about to look up the slot,
or to apply them, or it has and does nothing more to the port. -/
def Reaches (c : String) (data : Payload) (port : Fin maxPlayers) (controllers : Controllers)
    (emulator : RoomM Unit) : Prop :=
  emulator = handleInputEvent ⟨c, data⟩ ∨ emulator = Call.updateInput port.val data ∨
    (controllers port = packetState data ∧
      (∀ input, emulator = handleInputEvent input → input.clientId ≠ c) ∧
      ∀ player data', emulator = Call.updateInput player data' → player ≠ port.val)

/-- What the router has done last for the client is what becomes of its port. -/
def Follows (c : String) (room : RoomState) (emulator : RoomM Unit) : LastPlaced → Prop
  | .unknown => True
  | .unseated => room.playerSlots.slotForClient c = none
  | .input data => 2 ≤ data.length → ∀ (port : Fin maxPlayers) events,
    room.playerSlots.slotForClient c = some port.val → room.inputs = some events →
      Waits c data events ∨
        (∀ event ∈ events, event.clientId ≠ c) ∧ Reaches c data port room.controllers emulator

section Perform

variable {description : Session → String} {room room' : RoomState} {c : String} {g : LastPlaced}
  {emulator : RoomM Unit} {i : RoomOp} {r : i.Reply}

theorem waits_append {data : Payload} {events added : List InputEvent}
    (hadded : ∀ event ∈ added, event.clientId ≠ c) (h : Waits c data events) :
    Waits c data (events ++ added) := by
  unfold Waits at *
  rw [List.reverse_append, since_append]
  exact Or.inr ⟨fun event he => hadded event (List.mem_reverse.mp he), h⟩

/-- The client keeps its slot or loses it, its port stays as it is, and what is added to the channel
is not of it. -/
theorem leaves_perform (hi : LeavesInputs c i) (h : room.perform description i = some (r, room')) :
    (∀ port, room'.playerSlots.slotForClient c = some port →
        room.playerSlots.slotForClient c = some port) ∧
      room'.controllers = room.controllers ∧
      ∀ events', room'.inputs = some events' → ∃ events added, room.inputs = some events ∧
        events' = events ++ added ∧ ∀ event ∈ added, event.clientId ≠ c := by
  have hsame : ∀ room'' : RoomState, room''.inputs = room.inputs → ∀ events',
      room''.inputs = some events' → ∃ events added, room.inputs = some events ∧
        events' = events ++ added ∧ ∀ event ∈ added, event.clientId ≠ c := by
    intro room'' he events' hevents
    exact ⟨events', [], he ▸ hevents, (List.append_nil _).symm, nofun⟩
  cases i with
  | assignPlayerSlot c' =>
    obtain ⟨outbound, rfl⟩ := RoomState.perform_assignPlayerSlot h
    refine ⟨fun port hport => ?_, rfl, hsame _ rfl⟩
    rwa [PlayerSlots.slotForClient_assignClient, if_neg (Ne.symm hi)] at hport
  | releaseClient c' =>
    cases h
    refine ⟨fun port hport => ?_, rfl, hsame _ rfl⟩
    rw [PlayerSlots.slotForClient_releaseClient] at hport
    split at hport
    · cases hport
    · exact hport
  | sendInput event =>
    simp only [RoomState.perform] at h
    split at h
    · next events hevents =>
      cases h
      refine ⟨fun _ hport => hport, rfl, fun events' he => ⟨events, [event], hevents, ?_, ?_⟩⟩
      · exact (Option.some.inj he).symm
      · exact fun e he' => (List.mem_singleton.mp he').symm ▸ hi
    · cases h
      exact ⟨fun _ hport => hport, rfl, hsame _ rfl⟩
  | updateInput player data => exact hi.elim
  | insertSession c' session =>
    rcases RoomState.perform_insertSession h with rfl | rfl
    · exact ⟨fun _ hport => hport, rfl, hsame _ rfl⟩
    · exact ⟨fun _ hport => hport, rfl, hsame _ rfl⟩
  | removeSession c' =>
    obtain ⟨_, rfl⟩ := RoomState.perform_removeSession h
    exact ⟨fun _ hport => hport, rfl, hsame _ rfl⟩
  | withClientSession c' =>
    obtain ⟨_, rfl⟩ := RoomState.perform_withClientSession h
    exact ⟨fun _ hport => hport, rfl, hsame _ rfl⟩
  | _ => cases h; exact ⟨fun _ hport => hport, rfl, hsame _ rfl⟩

theorem RoomState.assignPlayerSlot_fst (room : RoomState) (c : String) :
    (room.assignPlayerSlot c).1 = (room.playerSlots.assignClient c).1.1 := by
  unfold RoomState.assignPlayerSlot
  dsimp only
  split
  · next he => rw [he]
  · next he => rw [he]

theorem Follows.leaves (h : Follows c room emulator g)
    (hperform : room.perform description i = some (r, room')) (hi : LeavesInputs c i) :
    Follows c room' emulator g := by
  obtain ⟨hslot, hcontrollers, hinputs⟩ := leaves_perform hi hperform
  cases g with
  | unknown => trivial
  | unseated =>
    show room'.playerSlots.slotForClient c = none
    cases hport : room'.playerSlots.slotForClient c with
    | none => rfl
    | some port => exact absurd ((hslot port hport).symm.trans h) nofun
  | input data =>
    intro hlong port events' hport hevents'
    obtain ⟨events, added, hevents, rfl, hadded⟩ := hinputs events' hevents'
    rcases h hlong port events (hslot _ hport) hevents with hwaits | ⟨hnone, hreaches⟩
    · exact Or.inl (waits_append hadded hwaits)
    · refine Or.inr ⟨fun event he => ?_, hcontrollers ▸ hreaches⟩
      exact (List.mem_append.mp he).elim (hnone event) (hadded event)

/-- An operation of the router. -/
theorem Follows.route (hok : (placedGhost c).ok g i)
    (hperform : room.perform description i = some (r, room')) (h : Follows c room emulator g) :
    Follows c room' emulator ((placedGhost c).next g i r) := by
  cases i with
  | assignPlayerSlot c' =>
    show Follows _ _ _ (if c' ≠ c then g else if r.isNone then .unseated else .unknown)
    split
    · next hne => exact h.leaves hperform hne
    · next he =>
      obtain rfl : c' = c := not_not.mp he
      split
      · next hnone =>
        obtain rfl : (room.assignPlayerSlot c').1 = r :=
          congrArg Prod.fst (Option.some.inj hperform)
        obtain ⟨outbound, rfl⟩ := RoomState.perform_assignPlayerSlot hperform
        show (room.playerSlots.assignClient c').2.slotForClient c' = none
        rw [PlayerSlots.slotForClient_assignClient, if_pos rfl, ← room.assignPlayerSlot_fst c']
        exact Option.isNone_iff_eq_none.mp hnone
      · trivial
  | sendInput event =>
    show Follows _ _ _ (if event.clientId ≠ c then g else .input event.data)
    split
    · next hne => exact h.leaves hperform hne
    · next he =>
      obtain rfl : event.clientId = c := not_not.mp he
      intro _ port events' _ hevents'
      simp only [RoomState.perform] at hperform
      split at hperform
      · cases hperform
        cases hevents'
        refine Or.inl ?_
        unfold Waits
        rw [List.reverse_append]
        exact since_cons.mpr (Or.inl rfl)
      · next hnone =>
        cases hperform
        rw [hnone] at hevents'
        cases hevents'
  | updateInput player data => exact hok.elim
  | _ => exact h.leaves hperform hok

theorem handleInputEvent_inj {input input' : InputEvent}
    (h : handleInputEvent input = handleInputEvent input') : input = input' := by
  obtain ⟨c, data⟩ := input
  obtain ⟨c', data'⟩ := input'
  obtain ⟨hop, hrest⟩ := Prog.op.inj h
  obtain rfl : c = c' := RoomOp.slotForClient.inj hop
  have hnone := congrFun (eq_of_heq hrest) none
  cases hnone
  rfl

/-- An operation of the emulator thread, which is at the input `taken`. -/
theorem Follows.emulate {taken : Option InputEvent} {k : i.Reply → RoomM Unit}
    (hat : EmulatorAt taken (.op i k))
    (hperform : room.perform description i = some (r, room')) (h : Follows c room (.op i k) g) :
    Follows c room' (k r) g := by
  cases hat with
  | asks input =>
    cases hperform
    cases g with
    | unknown => trivial
    | unseated => exact h
    | input data =>
      intro hlong port events hport hevents
      have hown : room.playerSlots.slotForClient c = some port.val := hport
      rcases h hlong port events hport hevents with
        hwaits | ⟨hnone, hasks | happlies | ⟨hstate, hasked, -⟩⟩
      · exact Or.inl hwaits
      · -- the slot is the client's own
        obtain rfl : input = ⟨c, data⟩ := handleInputEvent_inj hasks
        refine Or.inr ⟨hnone, Or.inr (Or.inl ?_)⟩
        rw [hown]
        rfl
      · cases happlies
      · -- another client has another slot
        have hother := hasked input rfl
        refine Or.inr ⟨hnone, Or.inr (Or.inr ⟨hstate, ?_, ?_⟩)⟩
        · intro input' he
          cases hslot : room.playerSlots.slotForClient input.clientId <;> rw [hslot] at he <;>
            cases he
        · intro player data' he
          cases hslot : room.playerSlots.slotForClient input.clientId with
          | none => rw [hslot] at he; cases he
          | some player' =>
            rw [hslot] at he
            cases he
            rintro rfl
            rw [PlayerSlots.slotForClient_eq_some] at hslot hown
            exact hother (Option.some.inj (Option.some.inj (hslot.symm.trans hown)))
  | applies input player =>
    cases hperform
    obtain ⟨controllers, he⟩ := room.updateInput_eq player input.data
    have hslots : (room.updateInput player input.data).playerSlots = room.playerSlots := by rw [he]
    have hinputs : (room.updateInput player input.data).inputs = room.inputs := by rw [he]
    cases g with
    | unknown => trivial
    | unseated =>
      show (room.updateInput player input.data).playerSlots.slotForClient c = none
      rw [hslots]
      exact h
    | input data =>
      intro hlong port events hport hevents
      rw [hslots] at hport
      rw [hinputs] at hevents
      rcases h hlong port events hport hevents with
        hwaits | ⟨hnone, hasks | happlies | ⟨hstate, -, hother⟩⟩
      · exact Or.inl hwaits
      · cases hasks
      · -- these are the bytes
        refine Or.inr ⟨hnone, Or.inr (Or.inr ⟨?_, nofun, nofun⟩)⟩
        obtain ⟨hop, -⟩ := Prog.op.inj happlies
        obtain ⟨hplayer, hdata⟩ := RoomOp.updateInput.inj hop
        rw [controllers_updateInput, hplayer, hdata, if_pos ⟨rfl, hlong⟩]
      · refine Or.inr ⟨hnone, Or.inr (Or.inr ⟨?_, nofun, nofun⟩)⟩
        rw [controllers_updateInput, if_neg fun hboth => hother player input.data rfl hboth.1]
        exact hstate
  | queues input =>
    cases hperform
    cases g with
    | unknown => trivial
    | unseated => exact h
    | input data =>
      intro hlong port events hport hevents
      rcases h hlong port events hport hevents with
        hwaits | ⟨hnone, hasks | happlies | ⟨hstate, -, -⟩⟩
      · exact Or.inl hwaits
      · cases hasks
      · cases happlies
      · exact Or.inr ⟨hnone, Or.inr (Or.inr ⟨hstate, nofun, nofun⟩)⟩

/-- The emulator thread takes an input from the channel. -/
theorem Follows.poll {input : InputEvent} {rest : List InputEvent}
    (hinputs : room.inputs = some (input :: rest)) (h : Follows c room (.ret ()) g) :
    Follows c { room with inputs := some rest } (handleInputEvent input) g := by
  cases g with
  | unknown => trivial
  | unseated => exact h
  | input data =>
    rintro hlong port events hport ⟨⟩
    rcases h hlong port _ hport hinputs with hwaits | ⟨hnone, hasks | happlies | ⟨hstate, -, -⟩⟩
    · unfold Waits at hwaits
      rw [List.reverse_cons, since_concat] at hwaits
      rcases hwaits with hwaits | ⟨hnone, rfl⟩
      · exact Or.inl hwaits
      · exact Or.inr ⟨fun event he => hnone event (List.mem_reverse.mpr he), Or.inl rfl⟩
    · cases hasks
    · cases happlies
    · refine Or.inr ⟨fun event he => hnone event (List.mem_cons_of_mem _ he), ?_⟩
      refine Or.inr (Or.inr ⟨hstate, fun input' he => ?_, nofun⟩)
      rw [← handleInputEvent_inj he]
      exact hnone input List.mem_cons_self

/-! ### Early signals and sessions -/

/-- What waits for a client are signals that name it, and the client has no session. -/
structure Tame (c : String) (room : RoomState) : Prop where
  signals : ∀ c', ∀ msg ∈ room.pendingSignals.queueOf c', SignalOf c' msg
  created : ∀ session ∈ room.created, session.id ≠ c

theorem Tame.congr (h : Tame c room) (hsignals : room'.pendingSignals = room.pendingSignals)
    (hcreated : room'.created = room.created) : Tame c room' :=
  ⟨hsignals ▸ h.signals, hcreated ▸ h.created⟩

theorem Tame.dropQueue (h : Tame c room) (c' : String) :
    Tame c { room with pendingSignals := ⟨room.pendingSignals.byClient.erase c'⟩ } := by
  refine ⟨fun d msg hmsg => ?_, h.created⟩
  rw [PendingSessionSignals.queueOf_erase] at hmsg
  split at hmsg
  · cases hmsg
  · exact h.signals d msg hmsg

theorem Tame.perform (h : Tame c room) (hperform : room.perform description i = some (r, room'))
    (hnew : ∀ c', i = .newSession c' → c' ≠ c)
    (hqueued : ∀ msg, i = .enqueueSignal msg → ∃ c', SignalOf c' msg) : Tame c room' := by
  cases i with
  | newSession c' =>
    cases hperform
    refine ⟨h.signals, fun session hmem => ?_⟩
    rcases List.mem_cons.mp hmem with rfl | hmem
    · exact hnew c' rfl
    · exact h.created session hmem
  | enqueueSignal msg =>
    cases hperform
    refine ⟨fun d m hm => ?_, h.created⟩
    rcases PendingSessionSignals.mem_queueOf_enqueue hm with ⟨rfl, hclient⟩ | hold
    · obtain ⟨c', hid, hclient', hpayload⟩ := hqueued m rfl
      exact ⟨hid, hclient, hpayload⟩
    · exact h.signals d m hold
  | drainSignals c' => cases hperform; exact h.dropQueue c'
  | clearSignals c' => cases hperform; exact h.dropQueue c'
  | insertSession c' session =>
    rcases RoomState.perform_insertSession hperform with rfl | rfl <;> exact h.congr rfl rfl
  | removeSession c' =>
    obtain ⟨_, rfl⟩ := RoomState.perform_removeSession hperform
    exact h.congr rfl rfl
  | applySignal session msg => cases hperform; exact h.congr rfl rfl
  | sendOffer session => cases hperform; exact h.congr rfl rfl
  | _ =>
    obtain ⟨-, hsignals, -, hcreated⟩ := perform_quiet rfl hperform
    exact h.congr hsignals hcreated

/-- The router drains signals of the client it asks for. -/
theorem Tame.adm (h : Tame c room) (hperform : room.perform description i = some (r, room')) :
    (placedGhost c).adm g i r := by
  cases i with
  | drainSignals c' => cases hperform; exact h.signals c'
  | _ => trivial

end Perform

/-! ## Every run -/

section Steps

variable {codec : Codec} {w w' : WorkerState} {c : String} {data : Payload}

structure LastInputInv (codec : Codec) (c : String) (data : Payload) (w : WorkerState) : Prop where
  tame : Tame c w.room
  emulator : ∃ taken, EmulatorAt taken (w.tasks .emulator)
  others : ∀ id, id ≠ .router → id ≠ .emulator → (w.tasks id).All (LeavesInputs c)
  router : ∃ g, (w.tasks .router).Wp (placedGhost c) (fun _ _ => True) g
  /-- What the router is doing settles the last input, and nothing else has come between. -/
  settles : Since (InputOf codec c data) (fun msg => ¬ Disturbs c msg) w.handled →
    ∃ g, (w.tasks .router).Wp (placedGhost c) (fun g _ => g.Settles data) g ∧
      Follows c w.room (w.tasks .emulator) g

theorem lastInputInv_init : LastInputInv codec c data WorkerState.init where
  tame := ⟨fun _ _ h => (List.not_mem_nil h).elim, fun _ h => (List.not_mem_nil h).elim⟩
  emulator := ⟨none, .idle none⟩
  others _ _ _ := trivial
  router := ⟨.unknown, trivial⟩
  settles h := absurd h (not_since_nil _ _)

theorem LastInputInv.start (h : LastInputInv codec c data w) {a : WorkerAction} {id : TaskId}
    {prog : RoomM Unit} (hs : Starts codec w a id prog w') (hidle : w.tasks id = .ret ())
    (hinit : ∀ msg ∈ w'.handled, ¬ Initiates c msg) :
    LastInputInv codec c data (w'.setTask id prog) := by
  have htasks := hs.tasks_setTask
  obtain ⟨taken, hat⟩ := h.emulator
  cases hs with
  | receive msg ready =>
    have hmsg := hinit msg List.mem_cons_self
    refine ⟨h.tame, ⟨taken, hat⟩, fun id hr he => ?_, ⟨.unknown, ?_⟩, fun hlast => ?_⟩
    · rw [htasks, if_neg hr]
      exact h.others id hr he
    · rw [htasks, if_pos rfl]
      exact placed_handleMessage ready hmsg
    · rw [htasks, if_pos rfl]
      rcases since_cons.mp hlast with hinput | ⟨hleft, hold⟩
      · exact ⟨.unknown, placed_handleMessage_input ready hinput, trivial⟩
      · obtain ⟨g, hwp, hfollows⟩ := h.settles hold
        rw [hidle] at hwp
        exact ⟨g, placed_handleMessage_leaves ready hmsg hleft hwp, hfollows⟩
  | peerState session n state hcreated hclosed =>
    refine ⟨h.tame, ⟨taken, hat⟩, fun id hr he => ?_, h.router, h.settles⟩
    rw [htasks]
    split
    · exact leaves_onPeerStateChange session state
    · exact h.others id hr he
  | inputMessage session n payload hcreated =>
    refine ⟨h.tame, ⟨taken, hat⟩, fun id hr he => ?_, h.router, h.settles⟩
    rw [htasks]
    split
    · exact leaves_onInputMessage (h.tame.created session hcreated) payload
    · exact h.others id hr he
  | videoEnds session writeFailed hcreated hended hleaves =>
    refine ⟨h.tame, ⟨taken, hat⟩, fun id hr he => ?_, h.router, h.settles⟩
    rw [htasks]
    split
    · exact leaves_videoTaskEnd session
    · exact h.others id hr he
  | poll input rest hinputs =>
    refine ⟨h.tame.congr rfl rfl, ⟨some input, .asks input⟩, fun id hr he => ?_, h.router,
      fun hlast => ?_⟩
    · rw [htasks, if_neg he]
      exact h.others id hr he
    · obtain ⟨g, hwp, hfollows⟩ := h.settles hlast
      rw [hidle] at hfollows
      exact ⟨g, hwp, hfollows.poll hinputs⟩

theorem LastInputInv.run (h : LastInputInv codec c data w) {id : TaskId} {i : RoomOp}
    {k : i.Reply → RoomM Unit} {r : i.Reply} {room : RoomState} (hprog : w.tasks id = .op i k)
    (hperform : w.room.perform codec.description i = some (r, room)) :
    LastInputInv codec c data (w.performed id (k r) room) := by
  have htasks := tasks_performed w id (k r) room
  obtain ⟨taken, hat⟩ := h.emulator
  have hothers : ∀ id', id' ≠ .router → id' ≠ .emulator → (id' = id → (k r).All (LeavesInputs c)) →
      ((w.performed id (k r) room).tasks id').All (LeavesInputs c) := by
    intro id' hr he hown
    rw [htasks]
    split
    · next hid => exact hown hid
    · exact h.others id' hr he
  by_cases hr : id = .router
  · subst hr
    obtain ⟨g, hrouter⟩ := h.router
    rw [hprog] at hrouter
    have hadm : ∀ g, (placedGhost c).adm g i r := fun g => h.tame.adm hperform
    refine ⟨h.tame.perform hperform ?_ ?_, ⟨taken, ?_⟩,
      fun id' hr he => hothers id' hr he fun hid => absurd hid hr,
      ⟨(placedGhost c).next g i r, ?_⟩, fun hlast => ?_⟩
    · rintro c' rfl
      exact hrouter.1
    · rintro msg rfl
      exact hrouter.1
    · rw [htasks, if_neg nofun]
      exact hat
    · rw [htasks, if_pos rfl]
      exact hrouter.2 r (hadm g)
    · obtain ⟨g', hwp, hfollows⟩ := h.settles hlast
      rw [hprog] at hwp
      refine ⟨(placedGhost c).next g' i r, ?_, ?_⟩
      · rw [htasks, if_pos rfl]
        exact hwp.2 r (hadm g')
      · rw [htasks, if_neg nofun]
        exact hfollows.route hwp.1 hperform
  by_cases he : id = .emulator
  · subst he
    rw [hprog] at hat
    have hnew : ∀ c', i ≠ .newSession c' := by
      rintro c' rfl
      cases hat
    have hqueued : ∀ msg, i ≠ .enqueueSignal msg := by
      rintro msg rfl
      cases hat
    refine ⟨h.tame.perform hperform (fun c' hc => absurd hc (hnew c'))
        fun msg hm => absurd hm (hqueued msg), ⟨taken, ?_⟩,
      fun id' hr he => hothers id' hr he fun hid => absurd hid he, ?_, fun hlast => ?_⟩
    · rw [htasks, if_pos rfl]
      exact hat.next r
    · rw [htasks, if_neg nofun]
      exact h.router
    · obtain ⟨g, hwp, hfollows⟩ := h.settles hlast
      rw [hprog] at hfollows
      refine ⟨g, ?_, ?_⟩
      · rw [htasks, if_neg nofun]
        exact hwp
      · rw [htasks, if_pos rfl]
        exact hfollows.emulate hat hperform
  · have hown := h.others id hr he
    rw [hprog] at hown
    refine ⟨h.tame.perform hperform ?_ ?_, ⟨taken, ?_⟩,
      fun id' hr' he' => hothers id' hr' he' fun _ => hown.2 r, ?_, fun hlast => ?_⟩
    · rintro c' rfl
      exact hown.1
    · rintro msg rfl
      exact hown.1
    · rw [htasks, if_neg (Ne.symm he)]
      exact hat
    · rw [htasks, if_neg (Ne.symm hr)]
      exact h.router
    · obtain ⟨g, hwp, hfollows⟩ := h.settles hlast
      refine ⟨g, ?_, ?_⟩
      · rw [htasks, if_neg (Ne.symm hr)]
        exact hwp
      · rw [htasks, if_neg (Ne.symm he)]
        exact hfollows.leaves hperform hown.1

theorem Follows.congr {room room' : RoomState} {emulator : RoomM Unit} {g : LastPlaced}
    (h : Follows c room emulator g) (hslots : room'.playerSlots = room.playerSlots)
    (hcontrollers : room'.controllers = room.controllers)
    (hinputs : room'.inputs = room.inputs ∨ room'.inputs = none) : Follows c room' emulator g := by
  cases g with
  | unknown => trivial
  | unseated =>
    show room'.playerSlots.slotForClient c = none
    rw [hslots]
    exact h
  | input data =>
    intro hlong port events hport hevents
    rw [hslots] at hport
    rw [hcontrollers]
    rcases hinputs with hinputs | hinputs
    · exact h hlong port events hport (hinputs ▸ hevents)
    · rw [hinputs] at hevents
      cases hevents

theorem lastInputInv_step {a : WorkerAction} (hinit : ∀ msg ∈ w'.handled, ¬ Initiates c msg)
    (h : LastInputInv codec c data w) (hs : w.step codec a = some w') :
    LastInputInv codec c data w' := by
  -- what the room of the worker becomes when no task does anything
  have hstill : ∀ room : RoomState, Tame c room → room.playerSlots = w.room.playerSlots →
      room.controllers = w.room.controllers →
      (room.inputs = w.room.inputs ∨ room.inputs = none) →
      LastInputInv codec c data { w with room := room } := by
    intro room htame hslots hcontrollers hinputs
    refine ⟨htame, h.emulator, h.others, h.router, fun hlast => ?_⟩
    obtain ⟨g, hwp, hfollows⟩ := h.settles hlast
    exact ⟨g, hwp, hfollows.congr hslots hcontrollers hinputs⟩
  cases step_cases hs with
  | start id prog w₁ hstarts hidle => exact h.start hstarts hidle hinit
  | run id i k r room hprog hperform => exact h.run hprog hperform
  | emulatorFails hidle => exact hstill _ (h.tame.congr rfl rfl) rfl rfl (Or.inr rfl)
  | outboundCloses => exact hstill _ (h.tame.congr rfl rfl) rfl rfl (Or.inl rfl)
  | rehash pendingSignals hr =>
    refine hstill _ ⟨fun c' msg hmsg => h.tame.signals c' msg ?_, h.tame.created⟩ rfl rfl
      (Or.inl rfl)
    rwa [PendingSessionSignals.queueOf_rehashed hr] at hmsg

/-- The messages handled so far stay handled. -/
theorem handled_subset {a : WorkerAction} (hs : w.step codec a = some w') :
    ∀ msg ∈ w.handled, msg ∈ w'.handled := by
  cases step_cases hs with
  | start id prog w₁ hstarts hidle =>
    cases hstarts with
    | receive msg ready => exact fun _ => List.mem_cons_of_mem _
    | _ => exact fun _ => id
  | _ => exact fun _ => id

theorem lastInputInv_run {as : List WorkerAction}
    (h : Run (WorkerState.step codec) WorkerState.init as w)
    (hinit : ∀ msg ∈ w.handled, ¬ Initiates c msg) : LastInputInv codec c data w := by
  refine h.invariant (I := fun w => (∀ msg ∈ w.handled, ¬ Initiates c msg) →
    LastInputInv codec c data w) (fun _ => lastInputInv_init) ?_ hinit
  intro w a w' hi _ hs hinit
  exact lastInputInv_step hinit (hi fun msg hmsg => hinit msg (handled_subset hs msg hmsg)) hs

/-- Bytes that have left the channel and the emulator thread are at the port. -/
theorem LastPlaced.Settles.shown {g : LastPlaced} {room : RoomState} {port : Fin maxPlayers}
    {events : List InputEvent} (hsettles : g.Settles data) (h : Follows c room (.ret ()) g)
    (hlong : 2 ≤ data.length) (hinputs : room.inputs = some events)
    (hdone : ∀ event ∈ events, event.clientId ≠ c)
    (hport : room.playerSlots.slotForClient c = some port.val) :
    room.controllers port = packetState data := by
  rcases hsettles with rfl | rfl
  · exact absurd (hport.symm.trans h) nofun
  rcases h hlong port events hport hinputs with hwaits | ⟨-, hasks | happlies | ⟨hstate, -⟩⟩
  · obtain ⟨newer, event, older, hevents, rfl, -⟩ := hwaits
    have hmem : (⟨c, data⟩ : InputEvent) ∈ events := by
      rw [← List.mem_reverse, hevents]
      exact List.mem_append_right _ List.mem_cons_self
    exact absurd rfl (hdone _ hmem)
  · cases hasks
  · cases happlies
  · exact hstate

/-- **The port shows the last input.**  However the router, the emulator thread and the sessions of
other clients interleave: if the worker made no session for the client, the last of its `joinRoom`
and `input` messages was an input of two bytes or more, and neither the router nor the emulator
thread, which lives, nor the channel has anything left of it, then the port of its slot, if it has
one, shows the bytes of that input. -/
theorem port_shows_last_input {as : List WorkerAction} {port : Fin maxPlayers}
    {events : List InputEvent} (h : Run (WorkerState.step codec) WorkerState.init as w)
    (hinit : ∀ msg ∈ w.handled, ¬ Initiates c msg) (hlong : 2 ≤ data.length)
    (hlast : Since (InputOf codec c data) (fun msg => ¬ Disturbs c msg) w.handled)
    (hrouter : w.tasks .router = .ret ()) (hemulator : w.tasks .emulator = .ret ())
    (hinputs : w.room.inputs = some events) (hdone : ∀ event ∈ events, event.clientId ≠ c)
    (hport : w.room.playerSlots.slotForClient c = some port.val) :
    w.room.controllers port = packetState data := by
  obtain ⟨g, hwp, hfollows⟩ := (lastInputInv_run h hinit).settles hlast
  rw [hrouter] at hwp
  rw [hemulator] at hfollows
  have hsettles : g.Settles data := hwp
  exact hsettles.shown hfollows hlong hinputs hdone hport

end Steps

/-- The codec of the worker, whose sessions have an empty description. -/
def inputCodec : Codec := ⟨Base64Codec.standard.decode, fun _ => ""⟩

/-- A phone joins, presses a button and presses another one. -/
def pressTwice : List WorkerAction :=
  .receive ⟨SignalIds.joinRoom, none, some "c"⟩ true :: runs .router 2 ++
    .receive ⟨SignalIds.input, some "AQA=", some "c"⟩ true :: runs .router 3 ++
    .poll :: .run .emulator :: .receive ⟨SignalIds.input, some "BQA=", some "c"⟩ true ::
    runs .router 3 ++ .run .emulator :: .poll :: runs .emulator 2

theorem port_shows_last_input_pressed :
    ∃ w, Run (WorkerState.step inputCodec) WorkerState.init pressTwice w ∧
      w.room.controllers ⟨0, by decide⟩ = packetState [5, 0] := by
  have hrun : ∃ w, Run (WorkerState.step inputCodec) WorkerState.init pressTwice w ∧
      w.handled = [⟨SignalIds.input, some "BQA=", some "c"⟩,
        ⟨SignalIds.input, some "AQA=", some "c"⟩, ⟨SignalIds.joinRoom, none, some "c"⟩] ∧
      w.Done pressTwice ∧ w.room.inputs = some [] ∧
      w.room.playerSlots.slotForClient "c" = some 0 := execWhen_any (by decide +kernel)
  obtain ⟨w, hrun, hhandled, hdone, hinputs, hport⟩ := hrun
  refine ⟨w, hrun, port_shows_last_input (c := "c") hrun ?_ (by decide) ?_
    (idle_of_done hrun hdone .router) (idle_of_done hrun hdone .emulator) hinputs nofun hport⟩
  · rw [hhandled]
    simp [Initiates, SignalIds.initWebrtc, SignalIds.input, SignalIds.joinRoom]
  · rw [hhandled]
    exact since_cons.mpr (Or.inl ⟨rfl, by decide, "BQA=", by decide, by decide +kernel⟩)

end CloudGame.Worker
