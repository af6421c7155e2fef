import CloudGame.Worker.Tasks

/-!
# Teardown and session identity

A state callback of a session instance and the end of its video task both take the session out of
the room (`unregister_client_session`), by the client id and not by the instance.  So when the
client has a new session by then, its old instance tears that one down (`teardown_removes_other`).

`Alone` is the condition on the state before a step under which this does not happen: the old
instance finds no other one registered when it looks the client up, and none that holds a slot when
it releases the client's slot.  `teardown_spares_iff`: the runs in which no teardown touches
another instance are exactly the runs whose steps all meet it.
-/

namespace CloudGame.Worker

open CloudGame.Lib CloudGame.Signal

/-- The instance whose teardown this task is. -/
def TaskId.teardownOf : TaskId → Option Session
  | .video session => some session
  | .peerState session _ => some session
  | _ => none

def WorkerAction.teardownOf : WorkerAction → Option Session
  | .run id => id.teardownOf
  | _ => none

/-- From `room` to `room'`, no other instance registered under the client of `S` is taken out or
loses its slot, and the queue of no other instance is closed. -/
def SparesOthers (S : Session) (room room' : RoomState) : Prop :=
  (∀ S', S' ≠ S → room.sessions.lookup S.id = some S' →
    room'.sessions.lookup S.id = some S' ∧
      room'.playerSlots.slotForClient S.id = room.playerSlots.slotForClient S.id) ∧
  ∀ S', S' ≠ S → S' ∈ room'.closedQueues → S' ∈ room.closedQueues

/-- A teardown step of an instance spares all others. -/
def Spares (codec : Codec) (w : WorkerState) (a : WorkerAction) : Prop :=
  ∀ S, a.teardownOf = some S → ∀ w', w.step codec a = some w' → SparesOthers S w.room w'.room

/-- What the teardown of `S` finds when it reaches the operation. -/
def AloneAt (room : RoomState) (S : Session) : RoomOp → Prop
  | .removeSession c => ∀ S', room.sessions.lookup c = some S' → S' = S
  | .releaseClient c =>
    room.playerSlots.slotForClient c = none ∨ ∀ S', room.sessions.lookup c = some S' → S' = S
  | _ => True

def Alone (w : WorkerState) : WorkerAction → Prop
  | .run id => ∀ S i, id.teardownOf = some S → (w.tasks id).head = some i → AloneAt w.room S i
  | _ => True

/-! ## What a teardown does -/

/-- The operations of a teardown of `S` when the sessions it takes out are `S`. -/
def ownGhost (S : Session) : Prog.Ghost RoomOp RoomOp.Reply Unit where
  ok _ i :=
    match i with
    | .removeSession c => c = S.id
    | .countRemoved => True
    | .closeQueue S' => S' = S
    | .closePeer S' => S' = S
    | .releaseClient c => c = S.id
    | .slotCount => True
    | .sendPlayerCount _ => True
    | _ => False
  adm _ i :=
    match i with
    | .removeSession _ => fun removed => ∀ S', removed = some S' → S' = S
    | _ => fun _ => True
  next _ _ _ := ()

/-- The program tears down its own session only. -/
def OwnTeardown (S : Session) (prog : RoomM Unit) : Prop :=
  prog.Wp (ownGhost S) (fun _ _ => True) ()

section Programs

variable {S : Session}

/-- The session that is taken out is closed and its slot released; then the task goes on. -/
theorem own_unregister {rest : Option Session → RoomM Unit}
    (h : ∀ removed, (∀ S', removed = some S' → S' = S) → OwnTeardown S (rest removed)) :
    OwnTeardown S (unregisterClientSession S.id >>= rest) := by
  refine ⟨rfl, fun removed hown => ?_⟩
  cases removed with
  | none => exact h none hown
  | some S' =>
    refine ⟨trivial, fun _ _ => ⟨hown S' rfl, fun _ _ => ⟨rfl, fun released _ => ?_⟩⟩⟩
    cases released with
    | false => exact h (some S') hown
    | true => exact ⟨trivial, fun _ _ => ⟨trivial, fun _ _ => h (some S') hown⟩⟩

theorem own_onPeerStateChange (state : PeerConnectionState) :
    OwnTeardown S (onPeerStateChange S state) := by
  unfold onPeerStateChange
  split
  · refine own_unregister fun removed hown => ?_
    cases removed with
    | none => trivial
    | some S' => exact ⟨hown S' rfl, fun _ _ => trivial⟩
  · trivial

theorem own_videoTaskEnd : OwnTeardown S (videoTaskEnd S) :=
  ⟨rfl, fun _ _ => own_unregister fun _ _ => ⟨rfl, fun _ _ => trivial⟩⟩

end Programs

/-- Every teardown that runs is one of its own session only. -/
def OwnTeardowns (w : WorkerState) : Prop :=
  ∀ id S, id.teardownOf = some S → OwnTeardown S (w.tasks id)

theorem Starts.own {codec : Codec} {w w' : WorkerState} {a : WorkerAction} {id : TaskId}
    {prog : RoomM Unit} (h : Starts codec w a id prog w') {S : Session}
    (hid : id.teardownOf = some S) : OwnTeardown S prog := by
  cases h with
  | receive msg ready => cases hid
  | peerState session n state hcreated hclosed => cases hid; exact own_onPeerStateChange state
  | inputMessage session n data hcreated => cases hid
  | videoEnds session writeFailed hcreated hended hleaves => cases hid; exact own_videoTaskEnd
  | poll input rest h => cases hid

/-! ## One step -/

section Steps

variable {codec : Codec} {w w' : WorkerState} {a : WorkerAction} {S : Session}

/-- An operation of a teardown spares the others exactly when it finds its session alone. -/
theorem sparesOthers_iff {description : Session → String} {room room' : RoomState} {i : RoomOp}
    {r : i.Reply} (hok : (ownGhost S).ok () i)
    (hperform : room.perform description i = some (r, room')) :
    SparesOthers S room room' ↔ AloneAt room S i := by
  have hsame : room'.sessions = room.sessions → room'.playerSlots = room.playerSlots →
      room'.closedQueues = room.closedQueues → SparesOthers S room room' := by
    intro hs hp hc
    rw [SparesOthers, hs, hp, hc]
    exact ⟨fun S' _ h => ⟨h, rfl⟩, fun S' _ h => h⟩
  cases i with
  | removeSession c =>
    obtain rfl : c = S.id := hok
    obtain ⟨_, rfl⟩ := RoomState.perform_removeSession hperform
    constructor
    · rintro ⟨hkeep, _⟩ S' hS'
      by_contra hne
      have hkept := (hkeep S' hne hS').1
      rw [AList.lookup_erase] at hkept
      cases hkept
    · intro halone
      exact ⟨fun S' hne hS' => absurd (halone S' hS') hne, fun S' _ h => h⟩
  | releaseClient c =>
    obtain rfl : c = S.id := hok
    cases hperform
    have hnone := PlayerSlots.slotForClient_releaseClient room.playerSlots S.id S.id
    rw [if_pos rfl] at hnone
    constructor
    · rintro ⟨hkeep, _⟩
      by_contra halone
      obtain ⟨hslot, hother⟩ := not_or.mp halone
      push Not at hother
      obtain ⟨S', hS', hne⟩ := hother
      exact hslot ((hkeep S' hne hS').2.symm.trans hnone)
    · intro halone
      refine ⟨fun S' hne hS' => ⟨hS', ?_⟩, fun S' _ h => h⟩
      rcases halone with hslot | halone
      · exact hnone.trans hslot.symm
      · exact absurd (halone S' hS') hne
  | closeQueue S' =>
    obtain rfl : S' = S := hok
    cases hperform
    refine ⟨fun _ => trivial, fun _ => ⟨fun S' _ h => ⟨h, rfl⟩, fun S' hne h => ?_⟩⟩
    exact (List.mem_cons.mp h).resolve_left hne
  | countRemoved => cases hperform; exact ⟨fun _ => trivial, fun _ => hsame rfl rfl rfl⟩
  | closePeer S' => cases hperform; exact ⟨fun _ => trivial, fun _ => hsame rfl rfl rfl⟩
  | slotCount => cases hperform; exact ⟨fun _ => trivial, fun _ => hsame rfl rfl rfl⟩
  | sendPlayerCount count => cases hperform; exact ⟨fun _ => trivial, fun _ => hsame rfl rfl rfl⟩
  | _ => exact absurd hok not_false

theorem spares_iff_alone (hi : OwnTeardowns w) (hs : w.step codec a = some w') :
    Spares codec w a ↔ Alone w a := by
  cases step_cases hs with
  | run id i k r room hprog hperform =>
    have hok : ∀ S, id.teardownOf = some S → (ownGhost S).ok () i := fun S hid => by
      have := hi id S hid
      rw [hprog] at this
      exact this.1
    constructor
    · intro hspares S i' hid hhead
      rw [hprog] at hhead
      cases hhead
      exact (sparesOthers_iff (hok S hid) hperform).mp (hspares S hid _ hs)
    · intro halone S hid w' hs'
      rw [hs] at hs'
      cases hs'
      exact (sparesOthers_iff (hok S hid) hperform).mpr (halone S i hid (by rw [hprog]; rfl))
  | start id prog w' h hidle =>
    have hnone : a.teardownOf = none := by cases h <;> rfl
    have halone : Alone w a := by cases h <;> trivial
    exact ⟨fun _ => halone, fun _ S hS => by rw [hnone] at hS; cases hS⟩
  | emulatorFails hidle => exact ⟨fun _ => trivial, fun _ S hS => by cases hS⟩
  | outboundCloses => exact ⟨fun _ => trivial, fun _ S hS => by cases hS⟩
  | rehash pendingSignals h => exact ⟨fun _ => trivial, fun _ S hS => by cases hS⟩

/-- The session a lone teardown takes out is its own. -/
theorem adm_of_aloneAt {description : Session → String} {room room' : RoomState} {i : RoomOp}
    {r : i.Reply} (halone : AloneAt room S i)
    (hperform : room.perform description i = some (r, room')) : (ownGhost S).adm () i r := by
  cases i with
  | removeSession c =>
    obtain ⟨rfl, _⟩ := RoomState.perform_removeSession hperform
    exact halone
  | _ => trivial

theorem ownTeardowns_step (hi : OwnTeardowns w) (halone : Alone w a)
    (hs : w.step codec a = some w') : OwnTeardowns w' := by
  intro id' S hid'
  cases step_cases hs with
  | run id i k r room hprog hperform =>
    rw [tasks_performed]
    split
    · next he =>
      subst he
      have hown := hi id' S hid'
      rw [hprog] at hown
      exact hown.2 r (adm_of_aloneAt (halone S i hid' (by rw [hprog]; rfl)) hperform)
    · exact hi id' S hid'
  | start id prog w₁ h hidle =>
    rw [h.tasks_setTask]
    split
    · next he => subst he; exact h.own hid'
    · exact hi id' S hid'
  | emulatorFails hidle => exact hi id' S hid'
  | outboundCloses => exact hi id' S hid'
  | rehash pendingSignals h => exact hi id' S hid'

theorem ownTeardowns_init : OwnTeardowns WorkerState.init := fun _ _ _ => trivial

end Steps

/-! ## The result -/

/-- **A teardown and the other instances.**  In a run, every teardown step of an instance spares
all others if and only if every teardown finds its own instance alone. -/
theorem teardown_spares_iff (codec : Codec) (as : List WorkerAction) (w : WorkerState) :
    RunWhen (Spares codec) (WorkerState.step codec) WorkerState.init as w ↔
      RunWhen Alone (WorkerState.step codec) WorkerState.init as w := by
  constructor
  · intro h
    refine h.strengthen fun as w a w' h hspares hs => ?_
    have hi : OwnTeardowns w := h.invariant ownTeardowns_init fun _ _ _ hi hspares hs =>
      ownTeardowns_step hi ((spares_iff_alone hi hs).mp hspares) hs
    exact (spares_iff_alone hi hs).mp hspares
  · intro h
    refine h.strengthen fun as w a w' h halone hs => ?_
    have hi : OwnTeardowns w := h.invariant ownTeardowns_init fun _ _ _ hi halone hs =>
      ownTeardowns_step hi halone hs
    exact (spares_iff_alone hi hs).mpr halone

/-- **A teardown of another instance.**  A client is initialised, terminated and initialised again
before the video task of its first session has seen its queue closed.  The end of that task then
takes the second session out of the room. -/
theorem teardown_removes_other :
    ∃ w w', Run (WorkerState.step plainCodec) WorkerState.init
        (.receive ⟨SignalIds.initWebrtc, none, some "c"⟩ true :: runs .router 6 ++
          .receive ⟨SignalIds.terminateSession, none, some "c"⟩ true :: runs .router 8 ++
          .receive ⟨SignalIds.initWebrtc, none, some "c"⟩ true :: runs .router 6 ++
          .videoEnds ⟨"c", 0⟩ false :: runs (.video ⟨"c", 0⟩) 1) w ∧
      w.step plainCodec (.run (.video ⟨"c", 0⟩)) = some w' ∧
      ¬ SparesOthers ⟨"c", 0⟩ w.room w'.room := by
  have hrun : ∃ w, Run (WorkerState.step plainCodec) WorkerState.init
        (.receive ⟨SignalIds.initWebrtc, none, some "c"⟩ true :: runs .router 6 ++
          .receive ⟨SignalIds.terminateSession, none, some "c"⟩ true :: runs .router 8 ++
          .receive ⟨SignalIds.initWebrtc, none, some "c"⟩ true :: runs .router 6 ++
          .videoEnds ⟨"c", 0⟩ false :: runs (.video ⟨"c", 0⟩) 1) w ∧
      w.room.sessions.lookup "c" = some ⟨"c", 1⟩ ∧
      (w.step plainCodec (.run (.video ⟨"c", 0⟩))).any
        (fun w' => w'.room.sessions.lookup "c" = none) = true :=
    execWhen_any (by decide +kernel)
  obtain ⟨w, hrun, hregistered, hstep⟩ := hrun
  obtain ⟨w', hs, hnone⟩ := (Option.any_eq_true _ _).mp hstep
  refine ⟨w, w', hrun, hs, fun hspares => ?_⟩
  have hkeep := (hspares.1 ⟨"c", 1⟩ (by decide) hregistered).1
  rw [of_decide_eq_true hnone] at hkeep
  cases hkeep

end CloudGame.Worker
