import CloudGame.Worker.Sessions

/-!
# Threads over a room (`arcade-worker/src/room.rs`)

Every method of `Room` may be called by any thread at any time.  `CallState` is the room with any
number of caller threads, each with the program of the call it is in, and the emulator thread;
`RoomCall` are the methods that concern sessions, slots and inputs.  Nothing is assumed of who calls
what: the peer callbacks, the router and the video tasks are all callers.

`step_cases` says what a step does, `along_run` what holds of every operation that a call has still
to perform.
-/

namespace CloudGame.Worker

open CloudGame.Lib

inductive ThreadId where
  | caller (n : Nat)
  | emulator
deriving DecidableEq

inductive RoomCall where
  | registerClientSession (clientId : String) (session : Session)
  | unregisterClientSession (clientId : String)
  | joinRoom (clientId : String)
  | assignPlayerSlot (clientId : String)
  | releaseInputSource (clientId : String)
  | bufferOrSendInput (clientId : String) (payload : Payload)

def RoomCall.prog : RoomCall → RoomM Unit
  | .registerClientSession c session => do let _registered ← Worker.registerClientSession c session
  | .unregisterClientSession c => do let _removed ← Worker.unregisterClientSession c
  | .joinRoom c => do let _slot ← Worker.joinRoom c
  | .assignPlayerSlot c => do let _slot ← Call.assignPlayerSlot c
  | .releaseInputSource c => Worker.releaseInputSource c
  | .bufferOrSendInput c payload => Worker.bufferOrSendInput c payload

structure CallState where
  room : RoomState
  tasks : ThreadId → RoomM Unit
  /-- The method each caller called last; no step reads it. -/
  calls : Nat → Option RoomCall
  /-- The input the emulator thread took last; no step reads it. -/
  taken : Option InputEvent

inductive CallAction where
  | call (n : Nat) (method : RoomCall)
  | poll
  | run (thread : ThreadId)
  | emulatorFails

namespace CallState

def init : CallState := ⟨RoomState.init, fun _ => .ret (), fun _ => none, none⟩

def setTask (s : CallState) (thread : ThreadId) (prog : RoomM Unit) : CallState :=
  { s with tasks := Function.update s.tasks thread prog }

/-- The state after `thread` performed an operation, which left it `prog` and the room `room`. -/
def performed (s : CallState) (thread : ThreadId) (prog : RoomM Unit) (room : RoomState) :
    CallState :=
  { s.setTask thread prog with room := room }

/-- Caller `n` calls `method`. -/
def start (s : CallState) (n : Nat) (method : RoomCall) : CallState :=
  { s.setTask (.caller n) method.prog with calls := Function.update s.calls n (some method) }

/-- The emulator thread takes `input` and leaves `rest` in the channel. -/
def take (s : CallState) (input : InputEvent) (rest : List InputEvent) : CallState :=
  { s.setTask .emulator (handleInputEvent input) with
    room := { s.room with inputs := some rest }, taken := some input }

def step (description : Session → String) (s : CallState) : CallAction → Option CallState
  | .call n method =>
    if (s.tasks (.caller n)).isDone then some (s.start n method) else none
  | .poll =>
    match s.room.inputs with
    | some (input :: rest) =>
      if (s.tasks .emulator).isDone then some (s.take input rest) else none
    | _ => none
  | .run thread =>
    ((s.tasks thread).advance (RoomState.perform description) s.room).map fun out =>
      s.performed thread out.2 out.1
  | .emulatorFails =>
    if (s.tasks .emulator).isDone then some { s with room := { s.room with inputs := none } }
    else none

/-- No call is in progress. -/
def Idle (s : CallState) : Prop := ∀ n, s.tasks (.caller n) = .ret ()

end CallState

/-! ## The steps -/

variable {description : Session → String} {s s' : CallState}

inductive CallStep (description : Session → String) (s : CallState) :
    CallAction → CallState → Prop
  | call (n : Nat) (method : RoomCall) (hidle : s.tasks (.caller n) = .ret ()) :
    CallStep description s (.call n method) (s.start n method)
  | poll (input : InputEvent) (rest : List InputEvent) (h : s.room.inputs = some (input :: rest))
      (hidle : s.tasks .emulator = .ret ()) : CallStep description s .poll (s.take input rest)
  | run (thread : ThreadId) (i : RoomOp) (k : i.Reply → RoomM Unit) (r : i.Reply)
      (room : RoomState) (hprog : s.tasks thread = .op i k)
      (hperform : s.room.perform description i = some (r, room)) :
    CallStep description s (.run thread) (s.performed thread (k r) room)
  | emulatorFails (hidle : s.tasks .emulator = .ret ()) :
    CallStep description s .emulatorFails { s with room := { s.room with inputs := none } }

theorem callStep_cases {a : CallAction} (h : s.step description a = some s') :
    CallStep description s a s' := by
  cases a with
  | call n method =>
    simp only [CallState.step] at h
    split at h
    · next hd => cases h; exact .call n method (Prog.eq_ret_of_isDone hd)
    · cases h
  | poll =>
    simp only [CallState.step] at h
    split at h
    · next input rest hin =>
      split at h
      · next hd => cases h; exact .poll input rest hin (Prog.eq_ret_of_isDone hd)
      · cases h
    · cases h
  | run thread =>
    obtain ⟨⟨room, prog⟩, hadv, rfl⟩ := Option.map_eq_some_iff.mp h
    obtain ⟨i, k, r, hprog, hperform, rfl⟩ := Prog.advance_eq_some hadv
    exact .run thread i k r room hprog hperform
  | emulatorFails =>
    simp only [CallState.step] at h
    split at h
    · next hd => cases h; exact .emulatorFails (Prog.eq_ret_of_isDone hd)
    · cases h

theorem CallState.tasks_start (s : CallState) (n : Nat) (method : RoomCall) (t : ThreadId) :
    (s.start n method).tasks t = if t = .caller n then method.prog else s.tasks t :=
  Function.update_apply ..

theorem CallState.tasks_performed (s : CallState) (thread : ThreadId) (prog : RoomM Unit)
    (room : RoomState) (t : ThreadId) :
    (s.performed thread prog room).tasks t = if t = thread then prog else s.tasks t :=
  Function.update_apply ..

theorem CallState.tasks_take (s : CallState) (input : InputEvent) (rest : List InputEvent)
    (t : ThreadId) :
    (s.take input rest).tasks t = if t = .emulator then handleInputEvent input else s.tasks t :=
  Function.update_apply ..

/-! ## The programs -/

/-- The operations that a call may perform. -/
def RoomCall.Performs : RoomCall → RoomOp → Prop
  | .registerClientSession c session, i => i = .insertSession c session ∨ i = .countInserted
  | .unregisterClientSession c, i =>
    i = .removeSession c ∨ i = .countRemoved ∨ (∃ session, i = .closeQueue session) ∨
      i = .releaseClient c ∨ i = .slotCount ∨ ∃ count, i = .sendPlayerCount count
  | .joinRoom c, i => i = .slotForClient c ∨ i = .assignPlayerSlot c
  | .assignPlayerSlot c, i => i = .assignPlayerSlot c
  | .releaseInputSource c, i =>
    i = .drainClient c ∨ i = .releaseClient c ∨ i = .slotCount ∨ ∃ count, i = .sendPlayerCount count
  | .bufferOrSendInput c payload, i =>
    i = .slotForClient c ∨ i = .assignPlayerSlot c ∨ i = .slotCount ∨ i = .queueClient c payload ∨
      i = .drainClient c ∨ ∃ data, i = .sendInput ⟨c, data⟩

section Programs

variable {P : RoomOp → Prop} {c : String}

theorem all_reportRelease {released : Bool} (hcount : P .slotCount)
    (hsend : ∀ count, P (.sendPlayerCount count)) : (reportRelease released).All P := by
  cases released with
  | false => trivial
  | true => exact ⟨hcount, fun count => ⟨hsend count, fun _ => trivial⟩⟩

theorem all_sendInputs {payloads : List Payload} (hsend : ∀ data, P (.sendInput ⟨c, data⟩)) :
    (sendInputs c payloads).All P := by
  induction payloads with
  | nil => trivial
  | cons payload rest ih =>
    refine ⟨hsend payload, fun sent => ?_⟩
    cases sent with
    | true => exact ih
    | false => trivial

theorem all_ensureSessionJoined (hslot : P (.slotForClient c)) (hassign : P (.assignPlayerSlot c)) :
    (ensureSessionJoined c).All P := by
  refine ⟨hslot, fun slot => ?_⟩
  cases slot with
  | none => exact ⟨hslot, fun _ => ⟨hassign, fun _ => trivial⟩⟩
  | some slot => trivial

theorem all_bufferOrSendInput {payload : Payload} (hslot : P (.slotForClient c))
    (hassign : P (.assignPlayerSlot c)) (hcount : P .slotCount)
    (hqueue : P (.queueClient c payload)) (hdrain : P (.drainClient c))
    (hsend : ∀ data, P (.sendInput ⟨c, data⟩)) : (bufferOrSendInput c payload).All P := by
  refine ⟨hslot, fun already => (all_ensureSessionJoined hslot hassign).bind fun slot => ?_⟩
  cases slot with
  | none => exact ⟨hcount, fun _ => ⟨hqueue, fun _ => trivial⟩⟩
  | some slot =>
    cases already with
    | some _ => exact ⟨hsend payload, fun _ => trivial⟩
    | none =>
      have hflush : (flushPendingInputsToSender c).All P :=
        ⟨hdrain, fun _ => all_sendInputs hsend⟩
      exact hflush.bind fun _ => ⟨hsend payload, fun _ => trivial⟩

theorem all_prog {method : RoomCall} (h : ∀ i, method.Performs i → P i) : method.prog.All P := by
  cases method with
  | registerClientSession c session =>
    refine ⟨h _ (.inl rfl), fun inserted => ?_⟩
    cases inserted with
    | false => trivial
    | true => exact ⟨h _ (.inr rfl), fun _ => trivial⟩
  | unregisterClientSession c =>
    refine ⟨h _ (.inl rfl), fun removed => ?_⟩
    cases removed with
    | none => trivial
    | some session =>
      have hreport : ∀ released, (reportRelease released).All P := fun released =>
        all_reportRelease (h _ (.inr (.inr (.inr (.inr (.inl rfl))))))
          fun count => h _ (.inr (.inr (.inr (.inr (.inr ⟨count, rfl⟩)))))
      have hrelease : (do
          let released ← Call.releaseClient c
          reportRelease released
          return some session : RoomM (Option Session)).All P :=
        ⟨h _ (.inr (.inr (.inr (.inl rfl)))), fun released =>
          (hreport released).bind fun _ => trivial⟩
      exact ⟨h _ (.inr (.inl rfl)), fun _ => ⟨h _ (.inr (.inr (.inl ⟨session, rfl⟩))),
        fun _ => hrelease.bind fun _ => trivial⟩⟩
  | joinRoom c => exact ⟨h _ (.inl rfl), fun _ => ⟨h _ (.inr rfl), fun _ => trivial⟩⟩
  | assignPlayerSlot c => exact ⟨h _ rfl, fun _ => trivial⟩
  | releaseInputSource c =>
    exact ⟨h _ (.inl rfl), fun _ => ⟨h _ (.inr (.inl rfl)), fun _ =>
      all_reportRelease (h _ (.inr (.inr (.inl rfl))))
        fun count => h _ (.inr (.inr (.inr ⟨count, rfl⟩)))⟩⟩
  | bufferOrSendInput c payload =>
    exact all_bufferOrSendInput (h _ (.inl rfl)) (h _ (.inr (.inl rfl)))
      (h _ (.inr (.inr (.inl rfl))))
      (h _ (.inr (.inr (.inr (.inl rfl))))) (h _ (.inr (.inr (.inr (.inr (.inl rfl))))))
      fun data => h _ (.inr (.inr (.inr (.inr (.inr ⟨data, rfl⟩)))))

end Programs

/-! ## What the threads have still to do -/

/-- What holds of every operation of every call holds of every operation a thread has still to
perform. -/
theorem along_run {P : ThreadId → (i : RoomOp) → (i.Reply → RoomM Unit) → Prop}
    (hcall : ∀ n method, (RoomCall.prog method).Along (P (.caller n)))
    (hinput : ∀ input, (handleInputEvent input).Along (P .emulator)) {as : List CallAction}
    (h : Run (CallState.step description) CallState.init as s) (t : ThreadId) :
    (s.tasks t).Along (P t) := by
  refine h.invariant (I := fun s => ∀ t, (s.tasks t).Along (P t)) (fun _ => trivial) ?_ t
  intro s a s' hi _ hs t
  cases callStep_cases hs with
  | call n method hidle =>
    rw [CallState.tasks_start]
    split
    · next he => rw [he]; exact hcall n method
    · exact hi t
  | poll input rest hin hidle =>
    rw [CallState.tasks_take]
    split
    · next he => rw [he]; exact hinput input
    · exact hi t
  | run thread i k r room hprog hperform =>
    rw [CallState.tasks_performed]
    split
    · next he =>
      have hthread := hi thread
      rw [hprog] at hthread
      rw [he]
      exact hthread.2 r
    · exact hi t
  | emulatorFails hidle => exact hi t

/-- A caller performs the operations of the method it is in. -/
theorem performs_run {as : List CallAction}
    (h : Run (CallState.step description) CallState.init as s) (n : Nat) :
    (s.tasks (.caller n)).All fun i => ∃ method, s.calls n = some method ∧ method.Performs i := by
  refine h.invariant (I := fun s => ∀ n, (s.tasks (.caller n)).All fun i =>
    ∃ method, s.calls n = some method ∧ method.Performs i) (fun _ => trivial) ?_ n
  intro s a s' hi _ hs n
  cases callStep_cases hs with
  | call m method hidle =>
    rw [CallState.tasks_start]
    show Prog.All (fun i => ∃ method', Function.update s.calls m (some method) n = some method' ∧
      method'.Performs i) _
    split
    · next he =>
      cases he
      rw [Function.update_self]
      exact all_prog fun i hperforms => ⟨method, rfl, hperforms⟩
    · next he =>
      rw [Function.update_of_ne fun hn => he (congrArg ThreadId.caller hn)]
      exact hi n
  | poll input rest hin hidle =>
    rw [CallState.tasks_take, if_neg nofun]
    exact hi n
  | run thread i k r room hprog hperform =>
    rw [CallState.tasks_performed]
    split
    · next he =>
      subst he
      have hn := hi n
      rw [hprog] at hn
      exact hn.2 r
    · exact hi n
  | emulatorFails hidle => exact hi n

/-- Where the emulator thread is with the input it took last. -/
inductive EmulatorAt : Option InputEvent → RoomM Unit → Prop
  | idle (taken : Option InputEvent) : EmulatorAt taken (.ret ())
  | asks (input : InputEvent) : EmulatorAt (some input) (handleInputEvent input)
  | applies (input : InputEvent) (player : Nat) :
    EmulatorAt (some input) (Call.updateInput player input.data)
  | queues (input : InputEvent) :
    EmulatorAt (some input) (Call.queueClient input.clientId input.data)

/-- What the emulator thread does next, by where it is. -/
theorem EmulatorAt.next {taken : Option InputEvent} {i : RoomOp} {k : i.Reply → RoomM Unit}
    (h : EmulatorAt taken (.op i k)) (r : i.Reply) : EmulatorAt taken (k r) := by
  cases h with
  | asks input =>
    cases r with
    | none => exact .queues input
    | some player => exact .applies input player
  | applies input player => exact .idle _
  | queues input => exact .idle _

theorem emulatorAt_run {as : List CallAction}
    (h : Run (CallState.step description) CallState.init as s) :
    EmulatorAt s.taken (s.tasks .emulator) := by
  refine h.invariant (I := fun s => EmulatorAt s.taken (s.tasks .emulator)) (.idle none) ?_
  intro s a s' hi _ hs
  cases callStep_cases hs with
  | call n method hidle =>
    rw [CallState.tasks_start, if_neg nofun]
    exact hi
  | poll input rest hin hidle =>
    rw [CallState.tasks_take, if_pos rfl]
    exact .asks input
  | run thread i k r room hprog hperform =>
    rw [CallState.tasks_performed]
    split
    · next he =>
      subst he
      rw [hprog] at hi
      exact hi.next r
    · exact hi
  | emulatorFails hidle => exact hi

/-! ## Idle callers -/

/-- The caller an action starts. -/
def CallAction.caller : CallAction → Option Nat
  | .call n _ => some n
  | _ => none

/-- The calls that a run started are done. -/
def CallState.Done (as : List CallAction) (s : CallState) : Prop :=
  ∀ n ∈ as.filterMap CallAction.caller, (s.tasks (.caller n)).isDone = true

instance CallState.decidableDone (as : List CallAction) (s : CallState) : Decidable (s.Done as) :=
  inferInstanceAs (Decidable (∀ n ∈ as.filterMap CallAction.caller, _))

theorem callers_idle {as : List CallAction}
    (h : Run (CallState.step description) CallState.init as s) (hdone : s.Done as) : s.Idle := by
  have hnew : ∀ n, s.tasks (.caller n) ≠ .ret () → n ∈ as.filterMap CallAction.caller := by
    refine h.history (I := fun as s => ∀ n, s.tasks (.caller n) ≠ .ret () →
      n ∈ as.filterMap CallAction.caller) (fun n hn => absurd rfl hn) ?_
    intro as s a s' hi _ hs n hn
    rw [List.filterMap_append, List.mem_append]
    cases callStep_cases hs with
    | call n' method hidle =>
      rw [CallState.tasks_start] at hn
      split at hn
      · next he => cases he; exact Or.inr (List.mem_singleton.mpr rfl)
      · exact Or.inl (hi n hn)
    | poll input rest hin hidle =>
      rw [CallState.tasks_take, if_neg nofun] at hn
      exact Or.inl (hi n hn)
    | run thread i k r room hprog hperform =>
      rw [CallState.tasks_performed] at hn
      split at hn
      · next he =>
        subst he
        exact Or.inl (hi n (by rw [hprog]; exact nofun))
      · exact Or.inl (hi n hn)
    | emulatorFails hidle => exact Or.inl (hi n hn)
  intro n
  by_contra hne
  exact hne (Prog.eq_ret_of_isDone (hdone n (hnew n hne)))

/-! ## Concrete runs -/

/-- The caller performs its next `m` operations. -/
def callerRuns (n m : Nat) : List CallAction := List.replicate m (.run (.caller n))

/-- The emulator thread takes an input, asks for its slot, and applies or queues it. -/
def pollAndHandle : List CallAction := .poll :: List.replicate 2 (.run .emulator)

end CloudGame.Worker
