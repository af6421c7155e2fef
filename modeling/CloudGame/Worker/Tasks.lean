import CloudGame.Worker.Sessions

/-!
# What the tasks of a worker do

`step_cases` says once what a step can be: an idle task starts a program (`Starts`), a task
performs its next operation, the emulator thread fails, the outbound queue closes, or the map of
early signals is rehashed.
`idle_of_done`: when the tasks a run started are done, no other has anything to perform.  Which
programs change a registration (`KeepsSessions`) is all the results about them need to know.
-/

namespace CloudGame.Worker

open CloudGame.Lib CloudGame.Signal

/-! ## The steps -/

/-- The actions that start a program, with what else they change. -/
inductive Starts (codec : Codec) (w : WorkerState) :
    WorkerAction → TaskId → RoomM Unit → WorkerState → Prop
  | receive (msg : SignalMessage) (ready : Bool) :
    Starts codec w (.receive msg ready) .router (handleMessage codec ready msg)
      { w with handled := msg :: w.handled }
  | peerState (session : Session) (n : Nat) (state : PeerConnectionState)
      (hcreated : session ∈ w.room.created)
      (hclosed : state = .closed → session ∈ w.room.closedPeers) :
    Starts codec w (.peerState session n state) (.peerState session n)
      (onPeerStateChange session state) w
  | inputMessage (session : Session) (n : Nat) (data : Payload)
      (hcreated : session ∈ w.room.created) :
    Starts codec w (.inputMessage session n data) (.channel session n)
      (onInputMessage session data) w
  | videoEnds (session : Session) (writeFailed : Bool) (hcreated : session ∈ w.room.created)
      (hended : session ∉ w.ended)
      (hleaves : writeFailed = true ∨ session ∈ w.room.closedQueues) :
    Starts codec w (.videoEnds session writeFailed) (.video session) (videoTaskEnd session)
      { w with ended := session :: w.ended }
  | poll (input : InputEvent) (rest : List InputEvent) (h : w.room.inputs = some (input :: rest)) :
    Starts codec w .poll .emulator (handleInputEvent input)
      { w with room := { w.room with inputs := some rest } }

theorem starts_cases {codec : Codec} {w w' : WorkerState} {a : WorkerAction} {id : TaskId}
    {prog : RoomM Unit} (h : w.starts codec a = some (id, prog, w')) :
    Starts codec w a id prog w' := by
  cases a with
  | receive msg ready => cases h; exact .receive msg ready
  | peerState session n state =>
    simp only [WorkerState.starts] at h
    split at h
    · next hc => cases h; exact .peerState session n state hc.1 hc.2
    · cases h
  | inputMessage session n data =>
    simp only [WorkerState.starts] at h
    split at h
    · next hc => cases h; exact .inputMessage session n data hc
    · cases h
  | videoEnds session writeFailed =>
    simp only [WorkerState.starts] at h
    split at h
    · next hc => cases h; exact .videoEnds session writeFailed hc.1 hc.2.1 hc.2.2
    · cases h
  | poll =>
    simp only [WorkerState.starts] at h
    split at h
    · next input rest hin => cases h; exact .poll input rest hin
    · cases h
  | run id => cases h
  | emulatorFails => cases h
  | outboundCloses => cases h
  | rehash pendingSignals => cases h

/-- The state after task `id` performed an operation, which left it `prog` and the room `room`. -/
def WorkerState.performed (w : WorkerState) (id : TaskId) (prog : RoomM Unit) (room : RoomState) :
    WorkerState :=
  { w.setTask id prog with room := room }

inductive StepTo (codec : Codec) (w : WorkerState) : WorkerAction → WorkerState → Prop
  | start {a : WorkerAction} (id : TaskId) (prog : RoomM Unit) (w' : WorkerState)
      (h : Starts codec w a id prog w') (hidle : w.tasks id = .ret ()) :
    StepTo codec w a (w'.setTask id prog)
  | run (id : TaskId) (i : RoomOp) (k : i.Reply → RoomM Unit) (r : i.Reply) (room : RoomState)
      (hprog : w.tasks id = .op i k)
      (hperform : w.room.perform codec.description i = some (r, room)) :
    StepTo codec w (.run id) (w.performed id (k r) room)
  | emulatorFails (hidle : w.tasks .emulator = .ret ()) :
    StepTo codec w .emulatorFails { w with room := { w.room with inputs := none } }
  | outboundCloses :
    StepTo codec w .outboundCloses { w with room := { w.room with outboundClosed := true } }
  | rehash (pendingSignals : PendingSessionSignals)
      (h : w.room.pendingSignals.Rehashed pendingSignals) :
    StepTo codec w (.rehash pendingSignals)
      { w with room := { w.room with pendingSignals := pendingSignals } }

theorem stepTo_start {codec : Codec} {w w' : WorkerState} {a : WorkerAction}
    (h : ((w.starts codec a).bind fun (id, prog, w') =>
      if (w.tasks id).isDone then some (w'.setTask id prog) else none) = some w') :
    StepTo codec w a w' := by
  obtain ⟨⟨id, prog, w₁⟩, hstarts, hdone⟩ := Option.bind_eq_some_iff.mp h
  dsimp only at hdone
  split at hdone
  · next hd =>
    cases hdone
    exact .start id prog w₁ (starts_cases hstarts) (Prog.eq_ret_of_isDone hd)
  · cases hdone

theorem step_cases {codec : Codec} {w w' : WorkerState} {a : WorkerAction}
    (h : w.step codec a = some w') : StepTo codec w a w' := by
  cases a with
  | run id =>
    obtain ⟨⟨room, prog⟩, hadv, rfl⟩ := Option.map_eq_some_iff.mp h
    obtain ⟨i, k, r, hprog, hperform, rfl⟩ := Prog.advance_eq_some hadv
    exact .run id i k r room hprog hperform
  | emulatorFails =>
    simp only [WorkerState.step] at h
    split at h
    · next hd => cases h; exact .emulatorFails (Prog.eq_ret_of_isDone hd)
    · cases h
  | outboundCloses =>
    cases h
    exact .outboundCloses
  | rehash pendingSignals =>
    simp only [WorkerState.step] at h
    split at h
    · next hr => cases h; exact .rehash pendingSignals hr
    · cases h
  | receive msg ready => exact stepTo_start h
  | peerState session n state => exact stepTo_start h
  | inputMessage session n data => exact stepTo_start h
  | videoEnds session writeFailed => exact stepTo_start h
  | poll => exact stepTo_start h

theorem tasks_performed (w : WorkerState) (id : TaskId) (prog : RoomM Unit) (room : RoomState)
    (id' : TaskId) :
    (w.performed id prog room).tasks id' = if id' = id then prog else w.tasks id' :=
  Function.update_apply ..

theorem Starts.tasks_setTask {codec : Codec} {w w' : WorkerState} {a : WorkerAction} {id : TaskId}
    {prog : RoomM Unit} (h : Starts codec w a id prog w') (id' : TaskId) :
    (w'.setTask id prog).tasks id' = if id' = id then prog else w.tasks id' := by
  have htasks : w'.tasks = w.tasks := by cases h <;> rfl
  show Function.update w'.tasks id prog id' = _
  rw [htasks]
  exact Function.update_apply ..

/-! ## Idle tasks -/

/-- The task an action starts. -/
def WorkerAction.task : WorkerAction → Option TaskId
  | .receive _ _ => some .router
  | .peerState session n _ => some (.peerState session n)
  | .inputMessage session n _ => some (.channel session n)
  | .videoEnds session _ => some (.video session)
  | .poll => some .emulator
  | _ => none

/-- The tasks that a run started are done. -/
def WorkerState.Done (as : List WorkerAction) (w : WorkerState) : Prop :=
  ∀ id ∈ as.filterMap WorkerAction.task, (w.tasks id).isDone = true

instance (as : List WorkerAction) (w : WorkerState) : Decidable (w.Done as) :=
  inferInstanceAs (Decidable (∀ id ∈ as.filterMap WorkerAction.task, _))

theorem idle_of_done {codec : Codec} {as : List WorkerAction} {w : WorkerState}
    (h : Run (WorkerState.step codec) WorkerState.init as w) (hdone : w.Done as) (id : TaskId) :
    w.tasks id = .ret () := by
  have hnew : ∀ id, w.tasks id ≠ .ret () → id ∈ as.filterMap WorkerAction.task := by
    refine h.history (I := fun as w => ∀ id, w.tasks id ≠ .ret () →
      id ∈ as.filterMap WorkerAction.task) (fun id hid => absurd rfl hid) ?_
    intro as w a w' hi _ hs id hid
    rw [List.filterMap_append, List.mem_append]
    cases step_cases hs with
    | start id' prog w₁ h hidle =>
      rw [h.tasks_setTask] at hid
      split at hid
      · next he =>
        subst he
        refine Or.inr ?_
        cases h <;> exact List.mem_singleton.mpr rfl
      · exact Or.inl (hi id hid)
    | run id' i k r room hprog hperform =>
      rw [tasks_performed] at hid
      split at hid
      · next he =>
        subst he
        exact Or.inl (hi id (by rw [hprog]; exact nofun))
      · exact Or.inl (hi id hid)
    | emulatorFails hidle => exact Or.inl (hi id hid)
    | outboundCloses => exact Or.inl (hi id hid)
    | rehash pendingSignals h => exact Or.inl (hi id hid)
  by_contra hne
  exact hne (Prog.eq_ret_of_isDone (hdone id (hnew id hne)))

/-! ## Programs -/

/-- The program changes no registration. -/
def KeepsSessions {α : Type} (prog : RoomM α) : Prop := prog.All fun i => i.registers = false

theorem keeps_joinRoom (c : String) : KeepsSessions (joinRoom c) :=
  ⟨rfl, fun _ => ⟨rfl, fun _ => trivial⟩⟩

theorem keeps_ensureSessionJoined (c : String) : KeepsSessions (ensureSessionJoined c) := by
  refine ⟨rfl, fun slot => ?_⟩
  cases slot with
  | none => exact keeps_joinRoom c
  | some slot => trivial

theorem keeps_sendInputs (c : String) (payloads : List Payload) :
    KeepsSessions (sendInputs c payloads) := by
  induction payloads with
  | nil => trivial
  | cons payload rest ih =>
    refine ⟨rfl, fun sent => ?_⟩
    cases sent with
    | true => exact ih
    | false => trivial

theorem keeps_bufferOrSendInput (c : String) (payload : Payload) :
    KeepsSessions (bufferOrSendInput c payload) := by
  refine ⟨rfl, fun already => (keeps_ensureSessionJoined c).bind fun slot => ?_⟩
  cases slot with
  | none => exact ⟨rfl, fun _ => ⟨rfl, fun _ => trivial⟩⟩
  | some slot =>
    cases already with
    | some _ => exact ⟨rfl, fun _ => trivial⟩
    | none =>
      have hflush : KeepsSessions (flushPendingInputsToSender c) :=
        ⟨rfl, fun pending => keeps_sendInputs c pending⟩
      exact hflush.bind fun _ => ⟨rfl, fun _ => trivial⟩

theorem keeps_onInputMessage (session : Session) (data : Payload) :
    KeepsSessions (onInputMessage session data) := by
  unfold onInputMessage
  split
  · exact keeps_bufferOrSendInput session.id data
  · trivial

theorem keeps_handleInputEvent (input : InputEvent) : KeepsSessions (handleInputEvent input) := by
  refine ⟨rfl, fun slot => ?_⟩
  cases slot <;> exact ⟨rfl, fun _ => trivial⟩

theorem keeps_handleSessionSignal (msg : SignalMessage) :
    KeepsSessions (handleSessionSignal msg) := by
  refine Prog.All.whenSome fun c => Prog.All.whenSome fun _ => ⟨rfl, fun session => ?_⟩
  cases session <;> exact ⟨rfl, fun _ => trivial⟩

theorem keeps_handleNonInitMessage (codec : Codec) (msg : SignalMessage) :
    KeepsSessions (handleNonInitMessage codec msg) := by
  unfold handleNonInitMessage
  split
  · exact keeps_handleSessionSignal msg
  split
  · exact keeps_handleSessionSignal msg
  split
  · exact Prog.All.whenSome fun c => (keeps_joinRoom c).bind fun _ => trivial
  split
  · exact Prog.All.whenSome fun c => Prog.All.whenSome fun _ => Prog.All.whenSome fun values =>
      keeps_bufferOrSendInput c values
  · trivial

/-- What `create_session` does after the peer connection is made changes no registration but by
inserting the new session. -/
theorem all_handleInitWebrtc {P : RoomOp → Prop} (codec : Codec) (ready : Bool)
    (msg : SignalMessage) (hkeeps : ∀ i, i.registers = false → P i)
    (hinsert : ∀ c session, signalClientId msg = some c → P (.insertSession c session)) :
    (handleInitWebrtc codec ready msg).All P := by
  unfold handleInitWebrtc
  cases hc : signalClientId msg with
  | none => trivial
  | some c =>
    cases ready with
    | false => trivial
    | true =>
      have hreplay : (replayPendingSignals codec c).All P := by
        have hkeep : KeepsSessions (replayPendingSignals codec c) :=
          ⟨rfl, fun pending => Prog.All.each fun msg _ => keeps_handleNonInitMessage codec msg⟩
        exact hkeep.mono hkeeps
      refine ⟨hkeeps _ rfl, fun session => ⟨hinsert c session hc, fun registered => ?_⟩⟩
      cases registered with
      | false => exact ⟨hkeeps _ rfl, fun _ => trivial⟩
      | true =>
        refine ⟨hkeeps _ rfl, fun _ => ⟨hkeeps _ rfl, fun _ => ⟨hkeeps _ rfl, fun sent => ?_⟩⟩⟩
        cases sent with
        | false => trivial
        | true => exact hreplay

end CloudGame.Worker
