import CloudGame.Lib.Ledger
import CloudGame.Worker.Calls

/-!
# Where every submitted input is

An input that is submitted with `buffer_or_send_input` may wait among the pending ones, travel in
the channel, be held by the call or by the emulator thread, be put back, and in the end be applied
or dropped.  `tracked` runs the threads of a room with a ledger beside them (`Lib.Ledger`): a
submission issues a token, and `track` says for each action which tokens change hands.  The ledger
reads the state and no step reads the ledger.

`Accounted` says that the ledger is right: the channel, the pending inputs of each client and what
each thread still has to send are exactly the inputs whose tokens are there.  So it holds in every
run that an input is in exactly one place, and it is discarded only by the three drops that are
declared (`inputs_conserved`).
-/

namespace CloudGame.Worker

open CloudGame.Lib

/-- Why an input is dropped. -/
inductive Drop where
  /-- More than `maxPendingInputBatches` waited for the client. -/
  | overflow
  /-- The client was terminated. -/
  | terminated
  /-- The channel has no receiver. -/
  | disconnected
deriving DecidableEq

inductive Place where
  | channel
  | held (thread : ThreadId)
  | pending (clientId : String)
  | applied
  | discarded (drop : Drop)
deriving DecidableEq

abbrev InputLedger : Type := Ledger Place InputEvent

def inputEvents (clientId : String) (payloads : List Payload) : List InputEvent :=
  payloads.map (InputEvent.mk clientId)

/-- The payloads that wait for the client. -/
def RoomState.waiting (room : RoomState) (clientId : String) : List Payload :=
  (room.pendingInputs.pending.lookup clientId).getD []

/-- The input that a call submits. -/
def RoomCall.submits : RoomCall → Option InputEvent
  | .bufferOrSendInput c payload => some ⟨c, payload⟩
  | _ => none

/-- The thread is in `buffer_or_send_input`, which sends what it drains. -/
def CallState.flushes (s : CallState) : ThreadId → Bool
  | .caller n => ((s.calls n).bind RoomCall.submits).isSome
  | .emulator => false

/-- The tokens that an operation moves.  A send that fails ends the loop of a flush, so all that it
still had to send is dropped; the input of the call itself comes after the flush. -/
def trackOp (s : CallState) (thread : ThreadId) (L : InputLedger) : RoomOp → InputLedger
  | .sendInput _ =>
    if s.room.inputs.isSome then L.move 1 (.held thread) .channel (by simp)
    else L.move (max 1 ((L.tokens (.held thread)).length - 1)) (.held thread)
      (.discarded .disconnected) (by simp)
  | .queueClient c _ =>
    let L' := L.move 1 (.held thread) (.pending c) (by simp)
    L'.move ((L'.tokens (.pending c)).length - maxPendingInputBatches) (.pending c)
      (.discarded .overflow) (by simp)
  | .drainClient c =>
    if s.flushes thread then L.moveToFront (.pending c) (.held thread) (by simp)
    else L.move (L.tokens (.pending c)).length (.pending c) (.discarded .terminated) (by simp)
  | .updateInput _ _ => L.move 1 (.held thread) .applied (by simp)
  | _ => L

/-- The tokens that an action moves. -/
def trackTokens (s : CallState) (L : InputLedger) : CallAction → InputLedger
  | .call n method => (method.submits.map (L.issue (.held (.caller n)))).getD L
  | .poll => L.move 1 .channel (.held .emulator) (by simp)
  | .run thread => ((s.tasks thread).head.map (trackOp s thread L)).getD L
  | .emulatorFails =>
    L.move (L.tokens .channel).length .channel (.discarded .disconnected) (by simp)

/-- What `update_input_state` is called with. -/
def appliedBy (s : CallState) : CallAction → List Payload
  | .run thread =>
    match (s.tasks thread).head with
    | some (.updateInput _ data) => [data]
    | _ => []
  | _ => []

structure Tracking where
  ledger : InputLedger
  /-- What `update_input_state` was called with, in order. -/
  applied : List Payload

def track (s : CallState) (a : CallAction) (b : Tracking) : Tracking :=
  ⟨trackTokens s b.ledger a, b.applied ++ appliedBy s a⟩

/-- The threads with their ledger. -/
def tracked (description : Session → String) :
    CallState × Tracking → CallAction → Option (CallState × Tracking) :=
  withGhost (CallState.step description) track

def Tracking.init : Tracking := ⟨Ledger.empty .channel, []⟩

def CallAction.submits : CallAction → Option InputEvent
  | .call _ method => method.submits
  | _ => none

/-- What the run submitted. -/
def submissions (as : List CallAction) : List InputEvent := as.filterMap CallAction.submits

/-- The drops that the code declares: the oldest of 64 pending inputs makes room for another one,
`release_input_source` drains what is pending, and what was or is to be sent over a channel without
receiver is lost. -/
def Declared (s : CallState) (L : InputLedger) (a : CallAction) (token : Nat) : Drop → Prop
  | .overflow => ∃ thread c payload, a = .run thread ∧
      (s.tasks thread).head = some (.queueClient c payload) ∧
      (s.room.waiting c).length = maxPendingInputBatches ∧
      (L.tokens (.pending c)).head? = some token
  | .terminated => ∃ n c, a = .run (.caller n) ∧ s.calls n = some (.releaseInputSource c) ∧
      (s.tasks (.caller n)).head = some (.drainClient c) ∧ token ∈ L.tokens (.pending c)
  | .disconnected => a = .emulatorFails ∧ token ∈ L.tokens .channel ∨
      ∃ thread event, a = .run thread ∧ (s.tasks thread).head = some (.sendInput event) ∧
        s.room.inputs = none ∧ token ∈ L.tokens (.held thread)

/-! ## What a thread holds -/

/-- What a thread holds moves with the replies to its operations. -/
def holding (flushes : Bool) : Prog.Ghost RoomOp RoomOp.Reply (List InputEvent) where
  ok held
    | .sendInput event => held.head? = some event
    | .queueClient c payload => held = [⟨c, payload⟩]
    | .updateInput _ data => held.map InputEvent.data = [data]
    | .drainClient c => flushes = true → ∃ payload, held = [⟨c, payload⟩]
    | _ => True
  adm _ _ _ := True
  next held
    | .sendInput _ => fun sent =>
      if sent then held.drop 1 else held.drop (max 1 (held.length - 1))
    | .queueClient _ _ => fun _ => held.drop 1
    | .updateInput _ _ => fun _ => held.drop 1
    | .drainClient c => fun payloads => if flushes then inputEvents c payloads ++ held else held
    | _ => fun _ => held

/-- The program puts all that the thread holds somewhere. -/
def HandsOver (flushes : Bool) (held : List InputEvent) (prog : RoomM Unit) : Prop :=
  prog.Wp (holding flushes) (fun left _ => left = []) held

/-- The operations that hand an input over. -/
def RoomOp.handsOver : RoomOp → Bool
  | .sendInput _ => true
  | .queueClient _ _ => true
  | .updateInput _ _ => true
  | _ => false

section Programs

variable {c : String} {payload : Payload} {held : List InputEvent}

/-- A thread that holds nothing and hands nothing over. -/
theorem handsOver_nothing {prog : RoomM Unit} (h : prog.All fun i => i.handsOver = false) :
    HandsOver false [] prog := by
  unfold HandsOver
  induction prog with
  | ret a => rfl
  | op i k ih =>
    obtain ⟨hi, hk⟩ := h
    cases i with
    | sendInput event => cases hi
    | queueClient c payload => cases hi
    | updateInput player data => cases hi
    | drainClient c => exact ⟨fun h => absurd h Bool.false_ne_true, fun r _ => ih r (hk r)⟩
    | _ => exact ⟨trivial, fun r _ => ih r (hk r)⟩

theorem wp_ensureSessionJoined {flushes : Bool} {Q : List InputEvent → Option Nat → Prop}
    (h : ∀ slot, Q held slot) : (ensureSessionJoined c).Wp (holding flushes) Q held := by
  refine ⟨trivial, fun slot _ => ?_⟩
  cases slot with
  | none => exact ⟨trivial, fun _ _ => ⟨trivial, fun slot _ => h slot⟩⟩
  | some slot => exact h (some slot)

/-- The flush sends what was drained, or drops it when the channel is disconnected. -/
theorem wp_sendInputs {Q : List InputEvent → Unit → Prop} {own : InputEvent} (h : Q [own] ())
    (payloads : List Payload) :
    (sendInputs c payloads).Wp (holding true) Q (inputEvents c payloads ++ [own]) := by
  induction payloads with
  | nil => exact h
  | cons payload rest ih =>
    refine ⟨rfl, fun sent _ => ?_⟩
    cases sent with
    | true => exact ih
    | false =>
      have hdrop : (inputEvents c (payload :: rest) ++ [own]).drop
          (max 1 ((inputEvents c (payload :: rest) ++ [own]).length - 1)) = [own] := by
        have hlen : (inputEvents c (payload :: rest) ++ [own]).length - 1 =
            (inputEvents c (payload :: rest)).length := by
          rw [List.length_append, List.length_singleton]; omega
        have hpos : 1 ≤ (inputEvents c (payload :: rest)).length := by
          rw [inputEvents, List.length_map, List.length_cons]; omega
        rw [hlen, Nat.max_eq_right hpos, List.drop_left]
      show Q _ ()
      rw [← hdrop] at h
      exact h

theorem wp_sendOwn {own : InputEvent} :
    (do let _sent ← Call.sendInput own : RoomM Unit).Wp (holding true) (fun left _ => left = [])
      [own] := by
  refine ⟨rfl, fun sent _ => ?_⟩
  cases sent <;> rfl

theorem handsOver_bufferOrSendInput :
    HandsOver true [⟨c, payload⟩] (bufferOrSendInput c payload) := by
  refine ⟨trivial, fun already _ => ?_⟩
  show (ensureSessionJoined c >>= _).Wp _ _ _
  refine Prog.Wp.bind (wp_ensureSessionJoined fun slot => ?_)
  cases slot with
  | none => exact ⟨trivial, fun _ _ => ⟨rfl, fun _ _ => rfl⟩⟩
  | some slot =>
    cases already with
    | some _ => exact wp_sendOwn
    | none =>
      show (flushPendingInputsToSender c >>= _).Wp _ _ _
      exact Prog.Wp.bind ⟨fun _ => ⟨payload, rfl⟩, fun payloads _ =>
        wp_sendInputs wp_sendOwn payloads⟩

theorem handsOver_handleInputEvent (input : InputEvent) :
    HandsOver false [input] (handleInputEvent input) := by
  refine ⟨trivial, fun slot _ => ?_⟩
  cases slot with
  | none => exact ⟨rfl, fun _ _ => rfl⟩
  | some player => exact ⟨rfl, fun _ _ => rfl⟩

theorem handsOver_prog (method : RoomCall) :
    HandsOver method.submits.isSome method.submits.toList method.prog := by
  cases method with
  | bufferOrSendInput c payload => exact handsOver_bufferOrSendInput
  | registerClientSession c session =>
    exact handsOver_nothing (all_prog fun i hi => by rcases hi with rfl | rfl <;> rfl)
  | unregisterClientSession c =>
    refine handsOver_nothing (all_prog fun i hi => ?_)
    rcases hi with rfl | rfl | ⟨_, rfl⟩ | rfl | rfl | ⟨_, rfl⟩ <;> rfl
  | joinRoom c => exact handsOver_nothing (all_prog fun i hi => by rcases hi with rfl | rfl <;> rfl)
  | assignPlayerSlot c => exact handsOver_nothing (all_prog fun i hi => by cases hi; rfl)
  | releaseInputSource c =>
    refine handsOver_nothing (all_prog fun i hi => ?_)
    rcases hi with rfl | rfl | rfl | ⟨_, rfl⟩ <;> rfl

end Programs

/-! ## The invariant -/

/-- The ledger is right about the state. -/
structure Accounted (s : CallState) (L : InputLedger) (applied : List Payload) : Prop where
  channel : L.Holds .channel (s.room.inputs.getD [])
  pending : ∀ c, L.Holds (.pending c) (inputEvents c (s.room.waiting c))
  held : ∀ t, ∃ events, L.Holds (.held t) events ∧ HandsOver (s.flushes t) events (s.tasks t)
  applied : ∃ events, L.Holds .applied events ∧ events.map InputEvent.data = applied
  bounded : ∀ c, (s.room.waiting c).length ≤ maxPendingInputBatches

section Steps

variable {description : Session → String} {s s' : CallState} {L L' : InputLedger}
  {applied : List Payload}

theorem Accounted.of_idle (h : Accounted s L applied) {t : ThreadId} (hidle : s.tasks t = .ret ()) :
    L.Holds (.held t) [] := by
  obtain ⟨events, hholds, hover⟩ := h.held t
  rw [hidle] at hover
  obtain rfl : events = [] := hover
  exact hholds

theorem held_ne {t t' : ThreadId} (h : t ≠ t') : Place.held t ≠ .held t' :=
  fun he => h (Place.held.inj he)

/-- What the threads hold after an operation of one of them. -/
theorem held_performed (h : Accounted s L applied) {thread : ThreadId} {prog : RoomM Unit}
    {room : RoomState} {events : List InputEvent} (hself : L'.Holds (.held thread) events)
    (hover : HandsOver (s.flushes thread) events prog)
    (hothers : ∀ t events, t ≠ thread → L.Holds (.held t) events → L'.Holds (.held t) events)
    (t : ThreadId) : ∃ events, L'.Holds (.held t) events ∧
      HandsOver ((s.performed thread prog room).flushes t) events
        ((s.performed thread prog room).tasks t) := by
  by_cases he : t = thread
  · subst he
    exact ⟨events, hself, by rw [CallState.tasks_performed, if_pos rfl]; exact hover⟩
  · obtain ⟨events', hholds, hover'⟩ := h.held t
    exact ⟨events', hothers t events' he hholds, by
      rw [CallState.tasks_performed, if_neg he]; exact hover'⟩

theorem waiting_queueClient (room : RoomState) (c c' : String) (payload : Payload) :
    { room with pendingInputs := room.pendingInputs.queueClient c payload }.waiting c' =
      if c' = c then
        (room.waiting c ++ [payload]).drop ((room.waiting c).length + 1 - maxPendingInputBatches)
      else room.waiting c' := by
  unfold RoomState.waiting PendingInputs.queueClient
  dsimp only
  rw [HashMap.lookup_insert_eq_ite]
  split
  · rw [Option.getD_some, List.length_append, List.length_singleton]
  · rfl

theorem waiting_drainClient (room : RoomState) (c c' : String) :
    { room with pendingInputs := (room.pendingInputs.drainClient c).2 }.waiting c' =
      if c' = c then [] else room.waiting c' := by
  unfold RoomState.waiting
  show ((room.pendingInputs.drainClient c).2.pending.lookup c').getD [] = _
  rw [PendingInputs.lookup_drainClient]
  split <;> rfl

/-- What is in the channel changes by its own operation only. -/
theorem perform_inputs {room room' : RoomState} {i : RoomOp} {r : i.Reply}
    (h : room.perform description i = some (r, room')) (hother : ∀ event, i ≠ .sendInput event) :
    room'.inputs = room.inputs := by
  cases i with
  | sendInput event => exact absurd rfl (hother event)
  | insertSession c session => rcases RoomState.perform_insertSession h with rfl | rfl <;> rfl
  | removeSession c => obtain ⟨_, rfl⟩ := RoomState.perform_removeSession h; rfl
  | withClientSession c => obtain ⟨_, rfl⟩ := RoomState.perform_withClientSession h; rfl
  | assignPlayerSlot c => obtain ⟨_, rfl⟩ := RoomState.perform_assignPlayerSlot h; rfl
  | updateInput player data => obtain ⟨_, rfl⟩ := RoomState.perform_updateInput h; rfl
  | _ => cases h; rfl

/-- An input is sent, or dropped with what the flush still had to send. -/
theorem accounted_sendInput (h : Accounted s L applied) {thread : ThreadId} {event : InputEvent}
    {k : Bool → RoomM Unit} {r : Bool} {room : RoomState}
    (hprog : s.tasks thread = .op (.sendInput event) k)
    (hperform : s.room.perform description (.sendInput event) = some (r, room)) :
    Accounted (s.performed thread (k r) room) (trackOp s thread L (.sendInput event))
      applied := by
  obtain ⟨events, hholds, hover⟩ := h.held thread
  obtain ⟨done, hdone, hdata⟩ := h.applied
  rw [hprog] at hover
  obtain ⟨hhead, hover⟩ := hover
  obtain ⟨rest, rfl⟩ : ∃ rest, events = event :: rest := by
    cases events with
    | nil => cases hhead
    | cons e rest => cases hhead; exact ⟨rest, rfl⟩
  have hchannel := h.channel
  simp only [RoomState.perform] at hperform
  cases hin : s.room.inputs with
  | some inputs =>
    rw [hin] at hperform hchannel
    cases hperform
    simp only [trackOp, hin, Option.isSome_some, if_true]
    refine ⟨hholds.move_to hchannel, fun c => (h.pending c).move_of_ne (by simp) (by simp), ?_,
      ⟨done, hdone.move_of_ne (by simp) (by simp), hdata⟩, h.bounded⟩
    exact held_performed h hholds.move_from (hover true trivial) fun t events ht he =>
      he.move_of_ne (held_ne ht) (by simp)
  | none =>
    rw [hin] at hperform hchannel
    cases hperform
    simp only [trackOp, hin, Option.isSome_none, Bool.false_eq_true, if_false, hholds.length_eq]
    refine ⟨?_, fun c => (h.pending c).move_of_ne (by simp) (by simp), ?_,
      ⟨done, hdone.move_of_ne (by simp) (by simp), hdata⟩, h.bounded⟩
    · show Ledger.Holds _ _ (s.room.inputs.getD [])
      rw [hin]
      exact hchannel.move_of_ne (by simp) (by simp)
    · exact held_performed h hholds.move_from (hover false trivial) fun t events ht he =>
        he.move_of_ne (held_ne ht) (by simp)

/-- An input is put among the pending ones; the oldest is dropped when there are too many. -/
theorem accounted_queueClient (h : Accounted s L applied) {thread : ThreadId} {c : String}
    {payload : Payload} {k : Unit → RoomM Unit} {r : Unit} {room : RoomState}
    (hprog : s.tasks thread = .op (.queueClient c payload) k)
    (hperform : s.room.perform description (.queueClient c payload) = some (r, room)) :
    Accounted (s.performed thread (k r) room) (trackOp s thread L (.queueClient c payload))
      applied := by
  obtain ⟨events, hholds, hover⟩ := h.held thread
  obtain ⟨done, hdone, hdata⟩ := h.applied
  rw [hprog] at hover
  obtain ⟨rfl, hover⟩ := hover
  cases hperform
  have hqueued : (L.move 1 (.held thread) (.pending c) (by simp)).Holds (.pending c)
      (inputEvents c (s.room.waiting c ++ [payload])) := by
    rw [inputEvents, List.map_append]
    exact hholds.move_to (h.pending c)
  have hlen : ((L.move 1 (.held thread) (.pending c) (by simp)).tokens (.pending c)).length =
      (s.room.waiting c).length + 1 := by
    rw [hqueued.length_eq, inputEvents, List.length_map, List.length_append, List.length_singleton]
  dsimp only [trackOp]
  rw [hlen]
  have hkeep : ∀ k events, k ≠ .held thread → k ≠ .pending c → k ≠ .discarded .overflow →
      L.Holds k events → ((L.move 1 (.held thread) (.pending c) (by simp)).move
        ((s.room.waiting c).length + 1 - maxPendingInputBatches) (.pending c)
        (.discarded .overflow) (by simp)).Holds k events := fun k events hheld hpending hdrop he =>
    (he.move_of_ne hheld hpending).move_of_ne hpending hdrop
  refine ⟨hkeep _ _ (by simp) (by simp) (by simp) h.channel, fun c' => ?_, ?_,
    ⟨done, hkeep _ _ (by simp) (by simp) (by simp) hdone, hdata⟩, fun c' => ?_⟩
  · show Ledger.Holds _ _ (inputEvents c' (RoomState.waiting { s.room with
      pendingInputs := s.room.pendingInputs.queueClient c payload } c'))
    rw [waiting_queueClient]
    split
    · next he =>
      subst he
      rw [inputEvents, List.map_drop]
      exact hqueued.move_from
    · next he =>
      exact hkeep _ _ (by simp) (fun hp => he (Place.pending.inj hp)) (by simp) (h.pending c')
  · have hself : (L.move 1 (.held thread) (.pending c) (by simp)).Holds (.held thread) [] :=
      hholds.move_from
    refine held_performed h (hself.move_of_ne (by simp) (by simp)) (hover () trivial)
      fun t events ht he => ?_
    exact hkeep _ _ (held_ne ht) (by simp) (by simp) he
  · show (RoomState.waiting { s.room with
      pendingInputs := s.room.pendingInputs.queueClient c payload } c').length ≤ _
    rw [waiting_queueClient]
    split
    · have := h.bounded c
      rw [List.length_drop, List.length_append, List.length_singleton]
      omega
    · exact h.bounded c'

/-- The pending inputs are taken along by a flush, and dropped otherwise. -/
theorem accounted_drainClient (h : Accounted s L applied) {thread : ThreadId} {c : String}
    {k : List Payload → RoomM Unit} {r : List Payload} {room : RoomState}
    (hprog : s.tasks thread = .op (.drainClient c) k)
    (hperform : s.room.perform description (.drainClient c) = some (r, room)) :
    Accounted (s.performed thread (k r) room) (trackOp s thread L (.drainClient c))
      applied := by
  obtain ⟨events, hholds, hover⟩ := h.held thread
  obtain ⟨done, hdone, hdata⟩ := h.applied
  rw [hprog] at hover
  obtain ⟨-, hover⟩ := hover
  have hr : r = s.room.waiting c := by cases hperform; rfl
  have hroom : room = { s.room with pendingInputs := (s.room.pendingInputs.drainClient c).2 } := by
    cases hperform; rfl
  subst hroom
  have hpending : ∀ L' : InputLedger, L'.Holds (.pending c) [] →
      (∀ c', c' ≠ c → L'.Holds (.pending c') (inputEvents c' (s.room.waiting c'))) → ∀ c',
      L'.Holds (.pending c') (inputEvents c' (RoomState.waiting
        { s.room with pendingInputs := (s.room.pendingInputs.drainClient c).2 } c')) := by
    intro L' hc hother c'
    rw [waiting_drainClient]
    split
    · next he => subst he; exact hc
    · next he => exact hother c' he
  have hbounded : ∀ c', (RoomState.waiting { s.room with
      pendingInputs := (s.room.pendingInputs.drainClient c).2 } c').length ≤
        maxPendingInputBatches := by
    intro c'
    rw [waiting_drainClient]
    split
    · exact Nat.zero_le _
    · exact h.bounded c'
  have hwp : HandsOver (s.flushes thread)
      (if s.flushes thread then inputEvents c r ++ events else events) (k r) := hover r trivial
  simp only [trackOp]
  cases hf : s.flushes thread with
  | true =>
    rw [hf, if_pos rfl] at hwp
    rw [if_pos rfl]
    refine ⟨h.channel.moveToFront_of_ne (by simp) (by simp),
      hpending _ .moveToFront_from fun c' hc' => (h.pending c').moveToFront_of_ne
        (fun hp => hc' (Place.pending.inj hp)) (by simp), ?_,
      ⟨done, hdone.moveToFront_of_ne (by simp) (by simp), hdata⟩, hbounded⟩
    refine held_performed h (Ledger.Holds.moveToFront_to (h.pending c) hholds) ?_
      fun t events ht he => he.moveToFront_of_ne (by simp) (held_ne ht)
    rw [hf, ← hr]
    exact hwp
  | false =>
    rw [hf, if_neg (by simp)] at hwp
    rw [if_neg (by simp)]
    refine ⟨h.channel.move_of_ne (by simp) (by simp), hpending _ ?_ fun c' hc' =>
      (h.pending c').move_of_ne (fun hp => hc' (Place.pending.inj hp)) (by simp), ?_,
      ⟨done, hdone.move_of_ne (by simp) (by simp), hdata⟩, hbounded⟩
    · have hall : (L.move (L.tokens (.pending c)).length (.pending c) (.discarded .terminated)
          (by simp)).Holds (.pending c) ((inputEvents c (s.room.waiting c)).drop
            (L.tokens (.pending c)).length) := (h.pending c).move_from
      rwa [(h.pending c).length_eq, List.drop_length, ← (h.pending c).length_eq] at hall
    · refine held_performed h (hholds.move_of_ne (by simp) (by simp)) ?_ fun t events ht he =>
        he.move_of_ne (by simp) (by simp)
      rw [hf]
      exact hwp

theorem accounted_updateInput (h : Accounted s L applied) {thread : ThreadId} {player : Nat}
    {data : Payload} {k : Unit → RoomM Unit} {r : Unit} {room : RoomState}
    (hprog : s.tasks thread = .op (.updateInput player data) k)
    (hperform : s.room.perform description (.updateInput player data) = some (r, room)) :
    Accounted (s.performed thread (k r) room) (trackOp s thread L (.updateInput player data))
      (applied ++ [data]) := by
  obtain ⟨events, hholds, hover⟩ := h.held thread
  obtain ⟨done, hdone, hdata⟩ := h.applied
  rw [hprog] at hover
  obtain ⟨hhead, hover⟩ := hover
  have hhead : events.map InputEvent.data = [data] := hhead
  have hinputs := perform_inputs hperform (by simp)
  have hpending := (RoomState.perform_frame hperform).2.2 rfl
  have hwaiting : ∀ c, room.waiting c = s.room.waiting c := fun c => by
    unfold RoomState.waiting
    rw [hpending]
  refine ⟨?_, fun c => ?_, ?_, ⟨done ++ events.take 1, hholds.move_to hdone, ?_⟩, fun c => ?_⟩
  · show Ledger.Holds _ _ (room.inputs.getD [])
    rw [hinputs]
    exact h.channel.move_of_ne (by simp) (by simp)
  · show Ledger.Holds _ _ (inputEvents c (room.waiting c))
    rw [hwaiting]
    exact (h.pending c).move_of_ne (by simp) (by simp)
  · exact held_performed h hholds.move_from (hover r trivial) fun t events ht he =>
      he.move_of_ne (held_ne ht) (by simp)
  · rw [List.map_append, hdata, List.map_take, hhead]
    rfl
  · show (room.waiting c).length ≤ _
    rw [hwaiting]
    exact h.bounded c

/-- The operations that touch no input. -/
theorem accounted_other (h : Accounted s L applied) {thread : ThreadId} {i : RoomOp}
    {k : i.Reply → RoomM Unit} {r : i.Reply} {room : RoomState} (hprog : s.tasks thread = .op i k)
    (hperform : s.room.perform description i = some (r, room))
    (hbuffers : i.buffers = false) (hover : i.handsOver = false) :
    Accounted (s.performed thread (k r) room) L applied := by
  obtain ⟨events, hholds, hwp⟩ := h.held thread
  rw [hprog] at hwp
  have hinputs := perform_inputs hperform fun event he => by rw [he] at hover; cases hover
  have hpending := (RoomState.perform_frame hperform).2.2 hbuffers
  have hwaiting : ∀ c, room.waiting c = s.room.waiting c := fun c => by
    unfold RoomState.waiting
    rw [hpending]
  refine ⟨?_, fun c => ?_, ?_, h.applied, fun c => ?_⟩
  · show Ledger.Holds _ _ (room.inputs.getD [])
    rw [hinputs]
    exact h.channel
  · show Ledger.Holds _ _ (inputEvents c (room.waiting c))
    rw [hwaiting]
    exact h.pending c
  · have hnext : HandsOver (s.flushes thread) events (k r) := by
      have hk := hwp.2 r
      cases i with
      | sendInput event => cases hover
      | queueClient c payload => cases hover
      | updateInput player data => cases hover
      | drainClient c => cases hbuffers
      | _ => exact hk trivial
    exact held_performed h hholds hnext fun _ _ _ he => he
  · show (room.waiting c).length ≤ _
    rw [hwaiting]
    exact h.bounded c

theorem accounted_performed (h : Accounted s L applied) {thread : ThreadId} {i : RoomOp}
    {k : i.Reply → RoomM Unit} {r : i.Reply} {room : RoomState} (hprog : s.tasks thread = .op i k)
    (hperform : s.room.perform description i = some (r, room)) :
    Accounted (s.performed thread (k r) room) (trackOp s thread L i)
      (applied ++ appliedBy s (.run thread)) := by
  have hsame : (∀ player data, i ≠ .updateInput player data) →
      applied ++ appliedBy s (.run thread) = applied := by
    intro hne
    simp only [appliedBy, hprog, Prog.head]
    split
    · next he => exact absurd (Option.some.inj he) (hne _ _)
    · exact List.append_nil _
  cases i with
  | sendInput event => rw [hsame (by simp)]; exact accounted_sendInput h hprog hperform
  | queueClient c payload => rw [hsame (by simp)]; exact accounted_queueClient h hprog hperform
  | drainClient c => rw [hsame (by simp)]; exact accounted_drainClient h hprog hperform
  | updateInput player data =>
    simp only [appliedBy, hprog, Prog.head]
    exact accounted_updateInput h hprog hperform
  | _ => rw [hsame (by simp)]; exact accounted_other h hprog hperform rfl rfl

theorem flushes_start (n : Nat) (method : RoomCall) (t : ThreadId) :
    (s.start n method).flushes t =
      if t = .caller n then method.submits.isSome else s.flushes t := by
  cases t with
  | emulator => rw [if_neg (by simp)]; rfl
  | caller m =>
    show ((Function.update s.calls n (some method) m).bind RoomCall.submits).isSome = _
    by_cases he : m = n
    · subst he
      rw [Function.update_self, if_pos rfl]
      rfl
    · rw [Function.update_of_ne he, if_neg fun h => he (ThreadId.caller.inj h)]
      rfl

theorem accounted_start (h : Accounted s L applied) {n : Nat} (method : RoomCall)
    (hidle : s.tasks (.caller n) = .ret ()) :
    Accounted (s.start n method) ((method.submits.map (L.issue (.held (.caller n)))).getD L)
      applied := by
  obtain ⟨done, hdone, hdata⟩ := h.applied
  -- nothing but what the caller holds is touched
  have hkeep : ∀ k events, k ≠ .held (.caller n) → L.Holds k events →
      ((method.submits.map (L.issue (.held (.caller n)))).getD L).Holds k events := by
    intro k events hne he
    cases method.submits with
    | none => exact he
    | some event => exact he.issue_of_ne event hne
  refine ⟨hkeep _ _ (by simp) h.channel, fun c => hkeep _ _ (by simp) (h.pending c), fun t => ?_,
    ⟨done, hkeep _ _ (by simp) hdone, hdata⟩, h.bounded⟩
  rw [flushes_start, CallState.tasks_start]
  by_cases he : t = .caller n
  · subst he
    rw [if_pos rfl, if_pos rfl]
    refine ⟨method.submits.toList, ?_, handsOver_prog method⟩
    have hnone := h.of_idle hidle
    cases method.submits with
    | none => exact hnone
    | some event => exact hnone.issue_self event
  · rw [if_neg he, if_neg he]
    obtain ⟨events, hholds, hover⟩ := h.held t
    exact ⟨events, hkeep _ _ (held_ne he) hholds, hover⟩

theorem accounted_take (h : Accounted s L applied) {input : InputEvent} {rest : List InputEvent}
    (hin : s.room.inputs = some (input :: rest)) (hidle : s.tasks .emulator = .ret ()) :
    Accounted (s.take input rest) (L.move 1 .channel (.held .emulator) (by simp)) applied := by
  obtain ⟨done, hdone, hdata⟩ := h.applied
  have hchannel := h.channel
  rw [hin] at hchannel
  have hemulator := h.of_idle hidle
  refine ⟨hchannel.move_from, fun c => (h.pending c).move_of_ne (by simp) (by simp), fun t => ?_,
    ⟨done, hdone.move_of_ne (by simp) (by simp), hdata⟩, h.bounded⟩
  rw [CallState.tasks_take]
  by_cases he : t = .emulator
  · subst he
    rw [if_pos rfl]
    exact ⟨[input], hchannel.move_to hemulator, handsOver_handleInputEvent input⟩
  · rw [if_neg he]
    obtain ⟨events, hholds, hover⟩ := h.held t
    exact ⟨events, hholds.move_of_ne (by simp) (held_ne he), hover⟩

theorem accounted_emulatorFails (h : Accounted s L applied) :
    Accounted { s with room := { s.room with inputs := none } }
      (L.move (L.tokens .channel).length .channel (.discarded .disconnected) (by simp))
      applied := by
  obtain ⟨done, hdone, hdata⟩ := h.applied
  refine ⟨?_, fun c => (h.pending c).move_of_ne (by simp) (by simp), fun t => ?_,
    ⟨done, hdone.move_of_ne (by simp) (by simp), hdata⟩, h.bounded⟩
  · have hall : (L.move (L.tokens .channel).length .channel (.discarded .disconnected)
        (by simp)).Holds .channel ((s.room.inputs.getD []).drop (L.tokens .channel).length) :=
      h.channel.move_from
    rwa [h.channel.length_eq, List.drop_length, ← h.channel.length_eq] at hall
  · obtain ⟨events, hholds, hover⟩ := h.held t
    exact ⟨events, hholds.move_of_ne (by simp) (by simp), hover⟩

theorem accounted_step {a : CallAction} (h : Accounted s L applied)
    (hs : s.step description a = some s') :
    Accounted s' (trackTokens s L a) (applied ++ appliedBy s a) := by
  cases callStep_cases hs with
  | call n method hidle =>
    rw [show appliedBy s (.call n method) = [] from rfl, List.append_nil]
    exact accounted_start h method hidle
  | poll input rest hin hidle =>
    rw [show appliedBy s .poll = [] from rfl, List.append_nil]
    exact accounted_take h hin hidle
  | run thread i k r room hprog hperform =>
    have htokens : trackTokens s L (.run thread) = trackOp s thread L i := by
      simp only [trackTokens, hprog, Prog.head, Option.map_some, Option.getD_some]
    rw [htokens]
    exact accounted_performed h hprog hperform
  | emulatorFails hidle =>
    rw [show appliedBy s .emulatorFails = [] from rfl, List.append_nil]
    exact accounted_emulatorFails h

theorem accounted_init : Accounted CallState.init (Ledger.empty .channel) [] := by
  refine ⟨rfl, fun c => rfl, fun t => ⟨[], rfl, rfl⟩, ⟨[], rfl, rfl⟩, fun c => Nat.zero_le _⟩

/-- **The ledger is right in every run.** -/
theorem accounted_run {as : List CallAction} {b : Tracking}
    (h : Run (tracked description) (CallState.init, Tracking.init) as (s, b)) :
    Accounted s b.ledger b.applied :=
  h.invariant (I := fun s => Accounted s.1 s.2.ledger s.2.applied) accounted_init
    fun s a s' hi _ hs => by
      obtain ⟨hstep, hghost⟩ := withGhost_eq_some hs
      rw [hghost]
      exact accounted_step hi hstep

/-! ## The drops -/

theorem declared_performed (h : Accounted s L applied) {thread : ThreadId} {i : RoomOp}
    {k : i.Reply → RoomM Unit} (hprog : s.tasks thread = .op i k)
    (hperforms : ∀ n, (s.tasks (.caller n)).All fun i =>
      ∃ method, s.calls n = some method ∧ method.Performs i)
    (hat : EmulatorAt s.taken (s.tasks .emulator)) {token : Nat} {drop : Drop}
    (hin : token ∈ (trackOp s thread L i).tokens (.discarded drop))
    (hout : token ∉ L.tokens (.discarded drop)) : Declared s L (.run thread) token drop := by
  have hhead : (s.tasks thread).head = some i := by rw [hprog]; rfl
  cases i with
  | sendInput event =>
    simp only [trackOp] at hin
    split at hin
    · rcases L.mem_tokens_move _ _ hin with hold | ⟨he, -⟩
      · exact absurd hold hout
      · cases he
    · next hnone =>
      rcases L.mem_tokens_move _ _ hin with hold | ⟨he, htake⟩
      · exact absurd hold hout
      · cases he
        exact Or.inr ⟨thread, event, rfl, hhead, Option.not_isSome_iff_eq_none.mp hnone,
          List.mem_of_mem_take htake⟩
  | queueClient c payload =>
    obtain ⟨events, hholds, hover⟩ := h.held thread
    rw [hprog] at hover
    obtain ⟨rfl, -⟩ := hover
    have hlen : (L.tokens (.pending c)).length = (s.room.waiting c).length := by
      rw [(h.pending c).length_eq, inputEvents, List.length_map]
    have hone : (L.tokens (.held thread)).length = 1 := hholds.length_eq
    have hbounded := h.bounded c
    simp only [trackOp] at hin
    rcases Ledger.mem_tokens_move _ _ _ hin with hold | ⟨he, htake⟩
    · rcases L.mem_tokens_move _ _ hold with hold | ⟨he, -⟩
      · exact absurd hold hout
      · cases he
    · cases he
      rw [Ledger.tokens_move_to, List.length_append, List.length_take, hone, hlen] at htake
      have hfull : (s.room.waiting c).length = maxPendingInputBatches := by
        by_contra hne
        rw [show (s.room.waiting c).length + min 1 1 - maxPendingInputBatches = 0 by omega] at htake
        cases htake
      refine ⟨thread, c, payload, rfl, hhead, hfull, ?_⟩
      rw [hfull,
        show maxPendingInputBatches + min 1 1 - maxPendingInputBatches = 1 from rfl] at htake
      rw [hfull] at hlen
      cases htokens : L.tokens (.pending c) with
      | nil => rw [htokens] at hlen; cases hlen
      | cons first rest =>
        rw [htokens] at htake
        rw [List.mem_singleton.mp htake]
        rfl
  | drainClient c =>
    simp only [trackOp] at hin
    split at hin
    · rcases L.mem_tokens_moveToFront _ hin with hold | ⟨he, -⟩
      · exact absurd hold hout
      · cases he
    · next hflush =>
      rcases L.mem_tokens_move _ _ hin with hold | ⟨he, htake⟩
      · exact absurd hold hout
      · cases he
        cases thread with
        | emulator =>
          generalize s.taken = taken at hat
          rw [hprog] at hat
          cases hat
        | caller n =>
          have hn := hperforms n
          rw [hprog] at hn
          obtain ⟨method, hcall, hperform⟩ := hn.1
          simp only [CallState.flushes, hcall, Option.bind_some] at hflush
          cases method with
          | releaseInputSource c' =>
            obtain rfl : c = c' := by simpa [RoomCall.Performs] using hperform
            exact ⟨n, c, rfl, hcall, hhead, List.mem_of_mem_take htake⟩
          | bufferOrSendInput c' payload => exact absurd rfl hflush
          | _ => simp [RoomCall.Performs] at hperform
  | updateInput player data =>
    rcases L.mem_tokens_move _ _ hin with hold | ⟨he, -⟩
    · exact absurd hold hout
    · cases he
  | _ => exact absurd hin hout

/-- Nothing is discarded but by a declared drop. -/
theorem declared_step {a : CallAction} (h : Accounted s L applied)
    (hperforms : ∀ n, (s.tasks (.caller n)).All fun i =>
      ∃ method, s.calls n = some method ∧ method.Performs i)
    (hat : EmulatorAt s.taken (s.tasks .emulator)) (hs : s.step description a = some s')
    {token : Nat} {drop : Drop} (hin : token ∈ (trackTokens s L a).tokens (.discarded drop))
    (hout : token ∉ L.tokens (.discarded drop)) : Declared s L a token drop := by
  cases callStep_cases hs with
  | call n method hidle =>
    simp only [trackTokens] at hin
    cases hsubmits : method.submits with
    | none => rw [hsubmits] at hin; exact absurd hin hout
    | some event =>
      have hkept : (L.issue (.held (.caller n)) event).tokens (.discarded drop) =
          L.tokens (.discarded drop) := L.tokens_issue_of_ne event (by simp)
      rw [hsubmits, Option.map_some, Option.getD_some, hkept] at hin
      exact absurd hin hout
  | poll input rest hchannel hidle =>
    rcases L.mem_tokens_move _ _ hin with hold | ⟨he, -⟩
    · exact absurd hold hout
    · cases he
  | run thread i k r room hprog hperform =>
    refine declared_performed h hprog hperforms hat ?_ hout
    simpa only [trackTokens, hprog, Prog.head, Option.map_some, Option.getD_some] using hin
  | emulatorFails hidle =>
    rcases L.mem_tokens_move _ _ hin with hold | ⟨he, htake⟩
    · exact absurd hold hout
    · cases he
      exact Or.inl ⟨rfl, List.mem_of_mem_take htake⟩

/-! ## The result -/

theorem items_trackTokens (s : CallState) (L : InputLedger) (a : CallAction) :
    (trackTokens s L a).items = L.items ++ a.submits.toList := by
  cases a with
  | call n method =>
    show ((method.submits.map (L.issue (.held (.caller n)))).getD L).items =
      L.items ++ method.submits.toList
    cases method.submits with
    | none => exact (List.append_nil _).symm
    | some event => rfl
  | poll => exact (List.append_nil _).symm
  | emulatorFails => exact (List.append_nil _).symm
  | run thread =>
    refine Eq.trans ?_ (List.append_nil _).symm
    simp only [trackTokens]
    cases (s.tasks thread).head with
    | none => rfl
    | some i =>
      cases i with
      | sendInput event => simp only [Option.map_some, Option.getD_some, trackOp]; split <;> rfl
      | drainClient c => simp only [Option.map_some, Option.getD_some, trackOp]; split <;> rfl
      | _ => rfl

/-- The ledger issues a token for each submission. -/
theorem items_run {as : List CallAction} {b : Tracking}
    (h : Run (tracked description) (CallState.init, Tracking.init) as (s, b)) :
    b.ledger.items = submissions as :=
  h.history (I := fun as s => s.2.ledger.items = submissions as) rfl fun as s a s' hi _ hs => by
    obtain ⟨-, hghost⟩ := withGhost_eq_some hs
    rw [hghost]
    show (trackTokens s.1 s.2.ledger a).items = _
    rw [items_trackTokens, hi, submissions, submissions, List.filterMap_append]
    congr 1

/-- **Inputs are conserved.**  Every run has its ledger, in which each submitted input is in exactly
one place, once; the places are the channel, what the running calls hold, the pending inputs of its
client, what was applied, and the declared drops; and no more than 64 inputs of a client wait. -/
theorem inputs_conserved {as : List CallAction}
    (h : Run (CallState.step description) CallState.init as s) :
    ∃ b, Run (tracked description) (CallState.init, Tracking.init) as (s, b) ∧
      b.ledger.items = submissions as ∧
      (∀ token, token < (submissions as).length → ∃! k, token ∈ b.ledger.tokens k) ∧
      (∀ k, (b.ledger.tokens k).Nodup) ∧
      Accounted s b.ledger b.applied ∧
      (∀ t, (s.tasks t).isDone = true → b.ledger.tokens (.held t) = []) ∧
      ∀ a s' b', tracked description (s, b) a = some (s', b') → ∀ token drop,
        token ∈ b'.ledger.tokens (.discarded drop) → token ∉ b.ledger.tokens (.discarded drop) →
        Declared s b.ledger a token drop := by
  obtain ⟨b, hrun⟩ := exists_ghost track Tracking.init h
  have hitems := items_run hrun
  have haccounted := accounted_run hrun
  refine ⟨b, hrun, hitems, fun token hlt => ?_, b.ledger.nodup, haccounted, fun t hdone => ?_,
    fun a s' b' hs token drop hin hout => ?_⟩
  · rw [← hitems] at hlt
    exact b.ledger.existsUnique_place hlt
  · have hnone := haccounted.of_idle (Prog.eq_ret_of_isDone hdone)
    exact List.length_eq_zero_iff.mp hnone.length_eq
  · obtain ⟨hstep, hghost⟩ := withGhost_eq_some hs
    obtain rfl : b' = track s a b := hghost
    exact declared_step haccounted (performs_run h) (emulatorAt_run h) hstep hin hout

/-- A client is given a slot and its input is sent. -/
def submitOnce : List CallAction :=
  .call 0 (.bufferOrSendInput "a" [1, 0]) :: callerRuns 0 6

theorem inputs_conserved_lost :
    ∃ s b s' b', Run (tracked fun _ => "") (CallState.init, Tracking.init) submitOnce (s, b) ∧
      b.ledger.items = [⟨"a", [1, 0]⟩] ∧ (∃! k, 0 ∈ b.ledger.tokens k) ∧
      tracked (fun _ => "") (s, b) .emulatorFails = some (s', b') ∧
      0 ∈ b'.ledger.tokens (.discarded .disconnected) ∧
      Declared s b.ledger .emulatorFails 0 .disconnected := by
  have hrun : ∃ s, Run (tracked fun _ => "") (CallState.init, Tracking.init) submitOnce s ∧
      0 ∉ s.2.ledger.tokens (.discarded .disconnected) ∧
      ((tracked (fun _ => "") s .emulatorFails).map fun s' =>
        s'.2.ledger.tokens (.discarded .disconnected)) = some [0] :=
    execWhen_any (by decide +kernel)
  obtain ⟨⟨s, b⟩, hrun, hout, hnext⟩ := hrun
  obtain ⟨⟨s', b'⟩, hs, hin⟩ := Option.map_eq_some_iff.mp hnext
  obtain ⟨b₁, hrun₁, hitems, hplace, -, -, -, hdeclared⟩ := inputs_conserved (withGhost_run hrun)
  obtain rfl : b₁ = b := congrArg Prod.snd (hrun₁.deterministic hrun)
  have hin' : 0 ∈ b'.ledger.tokens (.discarded .disconnected) := by
    rw [hin]
    exact List.mem_singleton.mpr rfl
  exact ⟨s, b₁, s', b', hrun, hitems, hplace 0 (by decide), hs, hin',
    hdeclared _ s' b' hs 0 .disconnected hin' hout⟩

end Steps

end CloudGame.Worker
