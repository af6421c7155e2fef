import CloudGame.Worker.Tasks

/-!
# What a terminated client keeps

`handle_terminate_session` drains the client's pending inputs, releases its slot and takes out its
session.  But an input of the client that was on its way joins the room again
(`buffer_or_send_input`), and an input event that was queued is put back among the pending ones by
the emulator thread, both after the terminate was handled (`terminated_keeps_slot`).

`Collected` is the condition on the state before a step under which nothing stays: a terminated
client is given a slot or a pending input only while an operation in progress will still release
the slot or drain the inputs.  Under it a terminated client that nothing is being done for has
neither session, slot nor pending inputs (`terminated_keeps_nothing`).
-/

namespace CloudGame.Worker

open CloudGame.Lib CloudGame.Signal

/-- The last message the router was handed for the client. -/
def lastFor (clientId : String) (handled : List SignalMessage) : Option SignalMessage :=
  handled.find? fun msg => signalClientId msg == some clientId

def WorkerState.Terminated (w : WorkerState) (clientId : String) : Prop :=
  (lastFor clientId w.handled).map SignalMessage.id = some SignalIds.terminateSession

instance (w : WorkerState) (clientId : String) : Decidable (w.Terminated clientId) :=
  inferInstanceAs (Decidable (_ = _))

/-- The client an operation is about. -/
def RoomOp.client : RoomOp → Option String
  | .newSession c => some c
  | .insertSession c _ => some c
  | .countInserted => none
  | .removeSession c => some c
  | .countRemoved => none
  | .closeQueue session => some session.id
  | .closePeer session => some session.id
  | .withClientSession c => some c
  | .slotForClient c => some c
  | .assignPlayerSlot c => some c
  | .releaseClient c => some c
  | .slotCount => none
  | .queueClient c _ => some c
  | .drainClient c => some c
  | .sendPlayerCount _ => none
  | .sendInput event => some event.clientId
  | .sendOffer session => some session.id
  | .enqueueSignal msg => signalClientId msg
  | .drainSignals c => some c
  | .clearSignals c => some c
  | .applySignal session _ => some session.id
  | .updateInput _ _ => none

/-- No task has an operation for the client to perform. -/
def WorkerState.Quiet (w : WorkerState) (clientId : String) : Prop :=
  ∀ id, (w.tasks id).All fun i => i.client ≠ some clientId

/-! ## What will still be collected -/

/-- Some task certainly still performs `i`. -/
def WorkerState.Will (w : WorkerState) (i : RoomOp) : Prop :=
  Prog.Owes w.tasks (fun _ _ => True) (· = i)

/-- The lookup of the client by `unregister_client_session` finds a session. -/
def Found (clientId : String) : (i : RoomOp) → i.Reply → Prop
  | .removeSession c => fun removed => c = clientId → removed ≠ none
  | _ => fun _ => True

/-- Some task will release the client's slot; perhaps only if it finds the client's session, which
is registered. -/
def WorkerState.WillRelease (w : WorkerState) (clientId : String) : Prop :=
  w.Will (.releaseClient clientId) ∨
    (w.room.sessions.lookup clientId ≠ none ∧
      Prog.Owes w.tasks (Found clientId) (· = .releaseClient clientId))

/-- A terminated client is newly given a slot or a pending input only if that will be collected. -/
def CollectedAt (w : WorkerState) : RoomOp → Prop
  | .assignPlayerSlot c =>
    w.Terminated c → (w.room.playerSlots.assignClient c).1.2 = true → w.WillRelease c
  | .queueClient c _ => w.Terminated c → w.Will (.drainClient c)
  | _ => True

def Collected (w : WorkerState) : WorkerAction → Prop
  | .run id => ∀ i, (w.tasks id).head = some i → CollectedAt w i
  | _ => True

/-! ## The programs -/

/-- A session that is taken out has its client's slot released.  Only the router inserts sessions,
while it handles the `initwebrtc` of the client. -/
def Disciplined (id : TaskId) (handled : List SignalMessage) :
    (i : RoomOp) → (i.Reply → RoomM Unit) → Prop
  | .removeSession c, k =>
    ∀ session, (k (some session)).Will (fun _ _ => True) (· = .releaseClient c)
  | .insertSession c _, _ => id = .router ∧ ∃ msg rest, handled = msg :: rest ∧
      signalClientId msg = some c ∧ msg.id = SignalIds.initWebrtc
  | _, _ => True

section Programs

variable {id : TaskId} {handled : List SignalMessage}

theorem disciplined_of_keeps {prog : RoomM Unit} (h : KeepsSessions prog) :
    prog.Along (Disciplined id handled) := by
  refine Prog.All.along (fun i k hi => ?_) h
  cases i with
  | removeSession c => cases hi
  | insertSession c session => cases hi
  | _ => trivial

theorem disciplined_unregister (c : String) {rest : Option Session → RoomM Unit}
    (h : ∀ removed, KeepsSessions (rest removed)) :
    (unregisterClientSession c >>= rest).Along (Disciplined id handled) := by
  refine ⟨fun session => Or.inr fun _ _ => Or.inr fun _ _ => Or.inl rfl, fun removed => ?_⟩
  apply disciplined_of_keeps
  cases removed with
  | none => exact h none
  | some session =>
    refine ⟨rfl, fun _ => ⟨rfl, fun _ => ⟨rfl, fun released => ?_⟩⟩⟩
    cases released with
    | false => exact h (some session)
    | true => exact ⟨rfl, fun _ => ⟨rfl, fun _ => h (some session)⟩⟩

theorem keeps_closeRemoved (removed : Option Session) : KeepsSessions (closeRemoved removed) :=
  Prog.All.whenSome fun _ => ⟨rfl, fun _ => trivial⟩

theorem disciplined_handleInitWebrtc (codec : Codec) (ready : Bool) (msg : SignalMessage)
    (hinit : msg.id = SignalIds.initWebrtc) :
    (handleInitWebrtc codec ready msg).Along (Disciplined .router (msg :: handled)) := by
  have hall : (handleInitWebrtc codec ready msg).All fun i =>
      i.registers = false ∨
        ∃ c session, i = .insertSession c session ∧ signalClientId msg = some c :=
    all_handleInitWebrtc codec ready msg (fun _ hi => Or.inl hi)
      fun c session hc => Or.inr ⟨c, session, rfl, hc⟩
  refine Prog.All.along (fun i k hi => ?_) hall
  cases i with
  | removeSession c =>
    rcases hi with hi | ⟨_, _, hi, _⟩
    · cases hi
    · cases hi
  | insertSession c session =>
    rcases hi with hi | ⟨c', session', hi, hc⟩
    · cases hi
    · cases hi
      exact ⟨rfl, msg, handled, rfl, hc, hinit⟩
  | _ => trivial

theorem disciplined_handleTerminateSession (msg : SignalMessage) :
    (handleTerminateSession msg).Along (Disciplined id handled) := by
  unfold handleTerminateSession
  cases signalClientId msg with
  | none => trivial
  | some c =>
    refine ⟨trivial, fun _ => ⟨trivial, fun _ => ⟨trivial, fun released => ?_⟩⟩⟩
    have hunregister :
        (unregisterClientSession c >>= closeRemoved).Along (Disciplined id handled) :=
      disciplined_unregister c keeps_closeRemoved
    cases released with
    | false => exact hunregister
    | true => exact ⟨trivial, fun _ => ⟨trivial, fun _ => hunregister⟩⟩

theorem Starts.disciplined {codec : Codec} {w w' : WorkerState} {a : WorkerAction}
    {prog : RoomM Unit} (h : Starts codec w a id prog w') :
    prog.Along (Disciplined id w'.handled) := by
  cases h with
  | receive msg ready =>
    show (handleMessage codec ready msg).Along _
    unfold handleMessage
    split
    · next hinit => exact disciplined_handleInitWebrtc codec ready msg hinit
    split
    · exact disciplined_handleTerminateSession msg
    · exact disciplined_of_keeps (keeps_handleNonInitMessage codec msg)
  | peerState session n state hcreated hclosed =>
    unfold onPeerStateChange
    split
    · exact disciplined_unregister session.id keeps_closeRemoved
    · trivial
  | inputMessage session n data hcreated =>
    exact disciplined_of_keeps (keeps_onInputMessage session data)
  | videoEnds session writeFailed hcreated hended hleaves =>
    exact ⟨trivial, fun _ => disciplined_unregister session.id fun _ => ⟨rfl, fun _ => trivial⟩⟩
  | poll input rest h => exact disciplined_of_keeps (keeps_handleInputEvent input)

/-- What the router was handed changes only when the router starts. -/
theorem Starts.handled_eq {codec : Codec} {w w' : WorkerState} {a : WorkerAction}
    {prog : RoomM Unit} (h : Starts codec w a id prog w') (hid : id ≠ .router) :
    w'.handled = w.handled := by
  cases h with
  | receive msg ready => exact absurd rfl hid
  | _ => rfl

theorem disciplined_run {codec : Codec} {as : List WorkerAction} {w : WorkerState}
    (h : Run (WorkerState.step codec) WorkerState.init as w) (id : TaskId) :
    (w.tasks id).Along (Disciplined id w.handled) := by
  refine h.invariant (I := fun w => ∀ id, (w.tasks id).Along (Disciplined id w.handled))
    (fun _ => trivial) (fun w a w' hi _ hs id' => ?_) id
  cases step_cases hs with
  | start id prog w₁ h hidle =>
    rw [h.tasks_setTask]
    split
    · next he => subst he; exact h.disciplined
    · next he =>
      refine (hi id').mono fun i k hik => ?_
      cases i with
      | insertSession c session =>
        have hid : id ≠ .router := fun hr => he (hik.1.trans hr.symm)
        show id' = .router ∧ ∃ msg rest, w₁.handled = msg :: rest ∧ _
        rw [h.handled_eq hid]
        exact hik
      | _ => exact hik
  | run id i k r room hprog hperform =>
    rw [tasks_performed]
    split
    · next he =>
      subst he
      have halong := hi id'
      rw [hprog] at halong
      exact halong.2 r
    · exact hi id'
  | emulatorFails hidle => exact hi id'
  | outboundCloses => exact hi id'
  | rehash pendingSignals h => exact hi id'

end Programs

/-! ## What the terminate handler will do -/

/-- `handle_terminate_session` drains, releases and takes out. -/
theorem will_handleTerminateSession {msg : SignalMessage} {c : String}
    (hc : signalClientId msg = some c) (i : RoomOp)
    (hi : i = .drainClient c ∨ i = .releaseClient c ∨ i = .removeSession c) :
    (handleTerminateSession msg).Will (fun _ _ => True) (· = i) := by
  unfold handleTerminateSession
  rw [hc]
  rcases hi with rfl | rfl | rfl
  · exact Or.inr fun _ _ => Or.inl rfl
  · exact Or.inr fun _ _ => Or.inr fun _ _ => Or.inl rfl
  · refine Or.inr fun _ _ => Or.inr fun _ _ => Or.inr fun released _ => ?_
    cases released with
    | false => exact Or.inl rfl
    | true => exact Or.inr fun _ _ => Or.inr fun _ _ => Or.inl rfl

/-! ## What an operation adds -/

section Perform

variable {description : Session → String} {room room' : RoomState} {i : RoomOp} {r : i.Reply}
  {c : String}

theorem registered_of_perform (hperform : room.perform description i = some (r, room'))
    (h : room'.sessions.lookup c ≠ none) :
    i ≠ .removeSession c ∧
      (room.sessions.lookup c ≠ none ∨ ∃ session, i = .insertSession c session) := by
  cases i with
  | insertSession c' session =>
    refine ⟨nofun, ?_⟩
    rcases RoomState.perform_insertSession hperform with rfl | rfl
    · exact Or.inl h
    · rw [HashMap.lookup_insert_eq_ite] at h
      split at h
      · next he => exact Or.inr ⟨session, by rw [he]⟩
      · exact Or.inl h
  | removeSession c' =>
    obtain ⟨_, rfl⟩ := RoomState.perform_removeSession hperform
    rw [HashMap.lookup_erase_eq_ite] at h
    split at h
    · exact absurd rfl h
    · next he => exact ⟨fun hi => he (by cases hi; rfl), Or.inl h⟩
  | _ =>
    rw [(RoomState.perform_frame hperform).1 rfl] at h
    exact ⟨nofun, Or.inl h⟩

theorem registered_perform (hperform : room.perform description i = some (r, room'))
    (h : room.sessions.lookup c ≠ none) (hi : i ≠ .removeSession c) :
    room'.sessions.lookup c ≠ none := by
  cases i with
  | insertSession c' session =>
    rcases RoomState.perform_insertSession hperform with rfl | rfl
    · exact h
    · rw [HashMap.lookup_insert_eq_ite]
      split
      · exact nofun
      · exact h
  | removeSession c' =>
    obtain ⟨_, rfl⟩ := RoomState.perform_removeSession hperform
    rwa [HashMap.lookup_erase_eq_ite, if_neg]
    exact fun he => hi (by rw [he])
  | _ => rwa [(RoomState.perform_frame hperform).1 rfl]

theorem seated_of_perform (hperform : room.perform description i = some (r, room'))
    (h : room'.playerSlots.slotForClient c ≠ none) :
    i ≠ .releaseClient c ∧
      (room.playerSlots.slotForClient c ≠ none ∨
        (i = .assignPlayerSlot c ∧ (room.playerSlots.assignClient c).1.2 = true)) := by
  cases i with
  | assignPlayerSlot c' =>
    refine ⟨nofun, ?_⟩
    obtain ⟨_, rfl⟩ := RoomState.perform_assignPlayerSlot hperform
    rw [PlayerSlots.slotForClient_assignClient] at h
    split at h
    · next he =>
      subst he
      by_cases hslot : room.playerSlots.slotForClient c = none
      · exact Or.inr ⟨rfl, PlayerSlots.assignClient_isNew hslot h⟩
      · exact Or.inl hslot
    · exact Or.inl h
  | releaseClient c' =>
    cases hperform
    rw [PlayerSlots.slotForClient_releaseClient] at h
    split at h
    · exact absurd rfl h
    · next he => exact ⟨fun hi => he (by cases hi; rfl), Or.inl h⟩
  | _ =>
    rw [(RoomState.perform_frame hperform).2.1 rfl] at h
    exact ⟨nofun, Or.inl h⟩

theorem pending_of_perform (hperform : room.perform description i = some (r, room'))
    (h : room'.pendingInputs.pending.lookup c ≠ none) :
    i ≠ .drainClient c ∧
      (room.pendingInputs.pending.lookup c ≠ none ∨ ∃ payload, i = .queueClient c payload) := by
  cases i with
  | queueClient c' payload =>
    refine ⟨nofun, ?_⟩
    by_cases he : c = c'
    · exact Or.inr ⟨payload, by rw [he]⟩
    · cases hperform
      rw [PendingInputs.lookup_queueClient_of_ne _ _ he] at h
      exact Or.inl h
  | drainClient c' =>
    cases hperform
    rw [PendingInputs.lookup_drainClient] at h
    split at h
    · exact absurd rfl h
    · next he => exact ⟨fun hi => he (by cases hi; rfl), Or.inl h⟩
  | _ =>
    rw [(RoomState.perform_frame hperform).2.2 rfl] at h
    exact ⟨nofun, Or.inl h⟩

end Perform

/-! ## The invariant -/

/-- What the client still has will be collected. -/
structure Clean (w : WorkerState) (c : String) : Prop where
  session : w.room.sessions.lookup c ≠ none → w.Will (.removeSession c)
  slot : w.room.playerSlots.slotForClient c ≠ none → w.WillRelease c
  pending : w.room.pendingInputs.pending.lookup c ≠ none → w.Will (.drainClient c)

section Steps

variable {codec : Codec} {w : WorkerState} {c : String}

/-- What will be released still will after an operation that does not release it. -/
theorem WorkerState.WillRelease.performed {id : TaskId} {i : RoomOp} {k : i.Reply → RoomM Unit}
    {r : i.Reply} {room : RoomState} (h : w.WillRelease c) (hprog : w.tasks id = .op i k)
    (hperform : w.room.perform codec.description i = some (r, room))
    (halong : (w.tasks id).Along (Disciplined id w.handled)) (hmiss : i ≠ .releaseClient c) :
    (w.performed id (k r) room).WillRelease c := by
  rcases h with h | ⟨hregistered, h⟩
  · exact Or.inl (h.perform hprog trivial hmiss)
  by_cases hremove : i = .removeSession c
  · subst hremove
    obtain ⟨hfound, _⟩ := RoomState.perform_removeSession hperform
    obtain ⟨session, hsession⟩ := Option.ne_none_iff_exists'.mp hregistered
    rw [hprog] at halong
    have hwill := halong.1 session
    rw [← hsession, ← hfound] at hwill
    exact Or.inl (Prog.owes_update hwill)
  · have hadm : Found c i r := by
      cases i with
      | removeSession c' => exact fun he => absurd (by rw [he]) hremove
      | _ => trivial
    exact Or.inr ⟨registered_perform hperform hregistered hremove, h.perform hprog hadm hmiss⟩

/-- An operation leaves a terminated client clean. -/
theorem clean_performed {id : TaskId} {i : RoomOp} {k : i.Reply → RoomM Unit} {r : i.Reply}
    {room : RoomState} (hclean : Clean w c) (hterminated : w.Terminated c)
    (hcollected : CollectedAt w i) (hprog : w.tasks id = .op i k)
    (hperform : w.room.perform codec.description i = some (r, room))
    (halong : (w.tasks id).Along (Disciplined id w.handled)) :
    Clean (w.performed id (k r) room) c where
  session h := by
    obtain ⟨hmiss, hold | ⟨session, rfl⟩⟩ := registered_of_perform hperform h
    · exact (hclean.session hold).perform hprog trivial hmiss
    · -- the router inserts only while it handles an `initwebrtc`
      rw [hprog] at halong
      obtain ⟨_, msg, rest, hhandled, hc, hinit⟩ := halong.1
      have hlast : lastFor c w.handled = some msg := by
        rw [hhandled]
        exact List.find?_cons_of_pos (by rw [hc]; exact beq_self_eq_true _)
      unfold WorkerState.Terminated at hterminated
      rw [hlast, Option.map_some, hinit] at hterminated
      exact absurd (Option.some.inj hterminated) (by decide)
  slot h := by
    obtain ⟨hmiss, hold | ⟨rfl, hnew⟩⟩ := seated_of_perform hperform h
    · exact (hclean.slot hold).performed hprog hperform halong hmiss
    · exact (hcollected hterminated hnew).performed hprog hperform halong hmiss
  pending h := by
    obtain ⟨hmiss, hold | ⟨payload, rfl⟩⟩ := pending_of_perform hperform h
    · exact (hclean.pending hold).perform hprog trivial hmiss
    · exact (hcollected hterminated).perform hprog trivial hmiss

/-- Starting a task leaves a client clean for which nothing else was done. -/
theorem Clean.start {id : TaskId} {prog : RoomM Unit} {w₁ : WorkerState} (h : Clean w c)
    (hidle : w.tasks id = .ret ()) (htasks : w₁.tasks = w.tasks)
    (hsessions : w₁.room.sessions = w.room.sessions)
    (hslots : w₁.room.playerSlots = w.room.playerSlots)
    (hpending : w₁.room.pendingInputs = w.room.pendingInputs) : Clean (w₁.setTask id prog) c := by
  have howes : ∀ {adm hit}, Prog.Owes w.tasks adm hit →
      Prog.Owes (w₁.setTask id prog).tasks adm hit := by
    intro adm hit ho
    show Prog.Owes (Function.update w₁.tasks id prog) adm hit
    rw [htasks]
    exact ho.start hidle
  have hs : (w₁.setTask id prog).room.sessions = w.room.sessions := hsessions
  have hp : (w₁.setTask id prog).room.playerSlots = w.room.playerSlots := hslots
  have hq : (w₁.setTask id prog).room.pendingInputs = w.room.pendingInputs := hpending
  refine ⟨fun h' => ?_, fun h' => ?_, fun h' => ?_⟩
  · rw [hs] at h'
    exact howes (h.session h')
  · rw [hp] at h'
    exact (h.slot h').imp howes fun ⟨hreg, ho⟩ => ⟨by rwa [hs], howes ho⟩
  · rw [hq] at h'
    exact howes (h.pending h')

/-- The terminate handler collects everything. -/
theorem clean_terminate {prog : RoomM Unit} {w₁ : WorkerState}
    (hwill : ∀ i, (i = .drainClient c ∨ i = .releaseClient c ∨ i = .removeSession c) →
      prog.Will (fun _ _ => True) (· = i)) : Clean (w₁.setTask .router prog) c :=
  ⟨fun _ => Prog.owes_update (hwill _ (Or.inr (Or.inr rfl))),
    fun _ => Or.inl (Prog.owes_update (hwill _ (Or.inr (Or.inl rfl)))),
    fun _ => Prog.owes_update (hwill _ (Or.inl rfl))⟩

theorem clean_step {w' : WorkerState} {a : WorkerAction}
    (halong : ∀ id, (w.tasks id).Along (Disciplined id w.handled))
    (hclean : ∀ c, w.Terminated c → Clean w c) (hcollected : Collected w a)
    (hs : w.step codec a = some w') (c : String) (hterminated : w'.Terminated c) : Clean w' c := by
  cases step_cases hs with
  | run id i k r room hprog hperform =>
    have hat : CollectedAt w i := hcollected i (by rw [hprog]; rfl)
    exact clean_performed (hclean c hterminated) hterminated hat hprog hperform (halong id)
  | emulatorFails hidle =>
    obtain ⟨hsession, hslot, hpending⟩ := hclean c hterminated
    exact ⟨hsession, hslot, hpending⟩
  | outboundCloses =>
    obtain ⟨hsession, hslot, hpending⟩ := hclean c hterminated
    exact ⟨hsession, hslot, hpending⟩
  | rehash pendingSignals h =>
    obtain ⟨hsession, hslot, hpending⟩ := hclean c hterminated
    exact ⟨hsession, hslot, hpending⟩
  | start id prog w₁ h hidle =>
    cases h with
    | receive msg ready =>
      by_cases hc : signalClientId msg = some c
      · have hid : msg.id = SignalIds.terminateSession := by
          have hlast : lastFor c (msg :: w.handled) = some msg :=
            List.find?_cons_of_pos (by rw [hc]; exact beq_self_eq_true _)
          have : (lastFor c (msg :: w.handled)).map SignalMessage.id =
            some SignalIds.terminateSession := hterminated
          rw [hlast] at this
          exact Option.some.inj this
        have hprog : handleMessage codec ready msg = handleTerminateSession msg := by
          unfold handleMessage
          rw [if_neg (by rw [hid]; decide), if_pos hid]
        rw [hprog]
        exact clean_terminate (will_handleTerminateSession hc)
      · have hlast : lastFor c (msg :: w.handled) = lastFor c w.handled :=
          List.find?_cons_of_neg (by simpa using hc)
        have hold : w.Terminated c := by
          have : (lastFor c (msg :: w.handled)).map SignalMessage.id =
            some SignalIds.terminateSession := hterminated
          rwa [hlast] at this
        exact (hclean c hold).start hidle rfl rfl rfl rfl
    | peerState session n state hcreated hclosed =>
      exact (hclean c hterminated).start hidle rfl rfl rfl rfl
    | inputMessage session n data hcreated =>
      exact (hclean c hterminated).start hidle rfl rfl rfl rfl
    | videoEnds session writeFailed hcreated hended hleaves =>
      exact (hclean c hterminated).start hidle rfl rfl rfl rfl
    | poll input rest h => exact (hclean c hterminated).start hidle rfl rfl rfl rfl

end Steps

/-! ## The result -/

/-- A client with no operation in progress has nothing that is still collected. -/
theorem WorkerState.Quiet.not_will {w : WorkerState} {c : String} (h : w.Quiet c) {i : RoomOp}
    (hi : i.client = some c) : ¬ w.Will i := by
  rintro ⟨id, hwill⟩
  refine Prog.All.not_will (P := fun i => i.client ≠ some c) (fun i' hne he => ?_) (fun i' => ?_)
    (h id) hwill
  · rw [he] at hne
    exact hne hi
  · cases i' <;> exact ⟨default, trivial⟩

/-- **Nothing is kept.**  In a run in which whatever a terminated client is given late is collected,
a client whose last message was `terminateSession` and for which no operation is in progress has no
session, no slot and no pending input. -/
theorem terminated_keeps_nothing {codec : Codec} {as : List WorkerAction} {w : WorkerState}
    (h : RunWhen Collected (WorkerState.step codec) WorkerState.init as w) (c : String)
    (hterminated : w.Terminated c) (hquiet : w.Quiet c) :
    w.room.sessions.lookup c = none ∧ w.room.playerSlots.slotForClient c = none ∧
      w.room.pendingInputs.pending.lookup c = none := by
  have hclean : ∀ c, w.Terminated c → Clean w c :=
    h.relative (I := fun w => ∀ c, w.Terminated c → Clean w c) (fun c hc => by cases hc)
      fun _ _ _ _ hrun hclean hcollected hs =>
        clean_step (disciplined_run hrun) hclean hcollected hs
  obtain ⟨hsession, hslot, hpending⟩ := hclean c hterminated
  have hnone : w.room.sessions.lookup c = none := by
    by_contra hne
    exact hquiet.not_will rfl (hsession hne)
  refine ⟨hnone, ?_, ?_⟩
  · by_contra hne
    rcases hslot hne with hwill | ⟨hregistered, _⟩
    · exact hquiet.not_will rfl hwill
    · exact hregistered hnone
  · by_contra hne
    exact hquiet.not_will rfl (hpending hne)

theorem quiet_of_done {codec : Codec} {as : List WorkerAction} {w : WorkerState}
    (h : Run (WorkerState.step codec) WorkerState.init as w) (hdone : w.Done as) (c : String) :
    w.Quiet c := by
  intro id
  rw [idle_of_done h hdone id]
  trivial

/-- No terminated client is given a slot or a pending input. -/
def beforeTerminate (w : WorkerState) : WorkerAction → Bool
  | .run id =>
    match (w.tasks id).head with
    | some (.assignPlayerSlot c) => ¬ w.Terminated c
    | some (.queueClient c _) => ¬ w.Terminated c
    | _ => true
  | _ => true

theorem collected_of_beforeTerminate (w : WorkerState) (a : WorkerAction)
    (h : beforeTerminate w a = true) : Collected w a := by
  cases a with
  | run id =>
    intro i hhead
    simp only [beforeTerminate, hhead] at h
    cases i with
    | assignPlayerSlot c => exact fun ht => absurd ht (of_decide_eq_true h)
    | queueClient c payload => exact fun ht => absurd ht (of_decide_eq_true h)
    | _ => trivial
  | _ => trivial

/-- The client of the examples is initialised and plays; then it is terminated. -/
def playThenTerminate : List WorkerAction :=
  .receive ⟨SignalIds.initWebrtc, none, some "c"⟩ true :: runs .router 6 ++
    .inputMessage ⟨"c", 0⟩ 0 [1, 0] :: runs (.channel ⟨"c", 0⟩ 0) 6 ++
    .poll :: runs .emulator 2 ++
    .receive ⟨SignalIds.terminateSession, none, some "c"⟩ true :: runs .router 10 ++
    .videoEnds ⟨"c", 0⟩ false :: runs (.video ⟨"c", 0⟩) 3

theorem terminated_keeps_nothing_after_play :
    ∃ w, RunWhen Collected (WorkerState.step plainCodec) WorkerState.init playThenTerminate w ∧
      w.Terminated "c" ∧ w.Quiet "c" ∧ w.room.sessions.lookup "c" = none ∧
      w.room.playerSlots.slotForClient "c" = none ∧
      w.room.pendingInputs.pending.lookup "c" = none := by
  have hrun : ∃ w, RunWhen (fun w a => beforeTerminate w a = true) (WorkerState.step plainCodec)
      WorkerState.init playThenTerminate w ∧ w.Terminated "c" ∧ w.Done playThenTerminate :=
    execWhen_any (by decide +kernel)
  obtain ⟨w, hrun, hterminated, hdone⟩ := hrun
  have hcollected := hrun.mono collected_of_beforeTerminate
  have hquiet := quiet_of_done hrun.run hdone "c"
  exact ⟨w, hcollected, hterminated, hquiet,
    terminated_keeps_nothing hcollected "c" hterminated hquiet⟩

/-- The client's input arrives before the terminate and joins the room after it. -/
def terminateDuringInput : List WorkerAction :=
  .receive ⟨SignalIds.initWebrtc, none, some "c"⟩ true :: runs .router 6 ++
    .inputMessage ⟨"c", 0⟩ 0 [1, 0] ::
    .receive ⟨SignalIds.terminateSession, none, some "c"⟩ true :: runs .router 8 ++
    runs (.channel ⟨"c", 0⟩ 0) 6 ++ .poll :: runs .emulator 2 ++
    .videoEnds ⟨"c", 0⟩ false :: runs (.video ⟨"c", 0⟩) 3

/-- **A slot is kept.**  The client is terminated, nothing is in progress or queued for it, and it
holds a slot. -/
theorem terminated_keeps_slot :
    ∃ w, Run (WorkerState.step plainCodec) WorkerState.init terminateDuringInput w ∧
      w.Terminated "c" ∧ w.Quiet "c" ∧ w.room.inputs = some [] ∧
      w.room.playerSlots.slotForClient "c" = some 0 := by
  have hrun : ∃ w, Run (WorkerState.step plainCodec) WorkerState.init terminateDuringInput w ∧
      w.Terminated "c" ∧ w.Done terminateDuringInput ∧ w.room.inputs = some [] ∧
      w.room.playerSlots.slotForClient "c" = some 0 :=
    execWhen_any (by decide +kernel)
  obtain ⟨w, hrun, hterminated, hdone, hinputs, hslot⟩ := hrun
  exact ⟨w, hrun, hterminated, quiet_of_done hrun hdone "c", hinputs, hslot⟩

end CloudGame.Worker
