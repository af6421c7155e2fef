import CloudGame.Worker.Calls

/-!
# The reported player count

`assign_player_slot` counts the slots and reports the count while it holds their lock.  The release
paths release the slot, lock again to count, and report after they have let the lock go, so a report
can be overtaken: it is sent after a later assignment was reported (`report_stale`).

`ReportInTime` is the condition on the state before a step under which that does no harm: the count
a thread reports is still the current one, or another call in progress has a report to send.  Under
it the last report is current whenever no call is in progress (`report_current`).
-/

namespace CloudGame.Worker

open CloudGame.Lib CloudGame.Signal

/-- The last `updatePlayerCount` message placed on `signal_tx`. -/
def lastReport (room : RoomState) : Option SignalMessage :=
  room.outbound.find? fun msg => msg.id == SignalIds.updatePlayerCount

/-- The last report, if there is one, carries the current count. -/
def ReportCurrent (room : RoomState) : Prop :=
  ∀ msg, lastReport room = some msg → msg = playerCountMessage room.playerSlots.count

/-- Whatever it is answered, the program still reports a count. -/
def WillReport (prog : RoomM Unit) : Prop :=
  prog.Will (fun _ _ => True) fun i => ∃ n, i = .sendPlayerCount n

def ReportInTime (s : CallState) : CallAction → Prop
  | .run thread => ∀ n, (s.tasks thread).head = some (.sendPlayerCount n) →
      n = s.room.playerSlots.count ∨ ∃ t, t ≠ thread ∧ WillReport (s.tasks t)
  | _ => True

/-! ## The programs -/

/-- A slot that is released is reported. -/
def ReportsRelease : (i : RoomOp) → (i.Reply → RoomM Unit) → Prop
  | .releaseClient _, k => WillReport (k true)
  | _, _ => True

/-- The program releases no slot. -/
def KeepsSlots {α : Type} (prog : RoomM α) : Prop := prog.All fun i => ∀ c, i ≠ .releaseClient c

theorem KeepsSlots.reportsRelease {prog : RoomM Unit} (h : KeepsSlots prog) :
    prog.Along ReportsRelease := by
  refine Prog.All.along (fun i k hi => ?_) h
  cases i with
  | releaseClient c => exact absurd rfl (hi c)
  | _ => trivial

theorem keepsSlots_reportRelease (released : Bool) : KeepsSlots (reportRelease released) :=
  all_reportRelease nofun nofun

theorem willReport_reportRelease : WillReport (reportRelease true) :=
  Or.inr fun n _ => Or.inl ⟨n, rfl⟩

theorem reportsRelease_prog (method : RoomCall) : method.prog.Along ReportsRelease := by
  cases method with
  | unregisterClientSession c =>
    refine ⟨trivial, fun removed => ?_⟩
    cases removed with
    | none => trivial
    | some session =>
      refine ⟨trivial, fun _ => ⟨trivial, fun _ => ⟨willReport_reportRelease.bind.bind,
        fun released => ?_⟩⟩⟩
      have hrest : KeepsSlots (do reportRelease released; return some session) :=
        (keepsSlots_reportRelease released).bind fun _ => trivial
      exact KeepsSlots.reportsRelease (hrest.bind fun _ => trivial)
  | releaseInputSource c =>
    exact ⟨trivial, fun _ => ⟨willReport_reportRelease, fun released =>
      (keepsSlots_reportRelease released).reportsRelease⟩⟩
  | registerClientSession c session =>
    exact KeepsSlots.reportsRelease
      (all_prog fun i hi _ => by rcases hi with rfl | rfl <;> exact nofun)
  | joinRoom c =>
    exact KeepsSlots.reportsRelease
      (all_prog fun i hi _ => by rcases hi with rfl | rfl <;> exact nofun)
  | assignPlayerSlot c =>
    exact KeepsSlots.reportsRelease (all_prog fun i hi _ => by cases hi; exact nofun)
  | bufferOrSendInput c payload =>
    exact KeepsSlots.reportsRelease
      (all_bufferOrSendInput nofun nofun nofun nofun nofun fun _ => nofun)

theorem keepsSlots_handleInputEvent (input : InputEvent) : KeepsSlots (handleInputEvent input) := by
  refine ⟨nofun, fun slot => ?_⟩
  cases slot <;> exact ⟨nofun, fun _ => trivial⟩

/-! ## The operations -/

section Perform

variable {description : Session → String} {room room' : RoomState}

theorem lastReport_send (count : Nat) :
    lastReport (room.send (playerCountMessage count)) = some (playerCountMessage count) :=
  List.find?_cons_of_pos (by rfl)

/-- An assignment that is not new changes nothing. -/
theorem assignClient_old {slots : PlayerSlots} {c : String}
    (h : (slots.assignClient c).1.2 = false) : (slots.assignClient c).2 = slots := by
  unfold PlayerSlots.assignClient at h ⊢
  split at h
  · simp only
  · split at h
    · cases h
    · simp only

/-- An assignment changes nothing or is reported at once. -/
theorem assignPlayerSlot_reported (room : RoomState) (c : String) :
    (room.assignPlayerSlot c).2 = room ∨ ReportCurrent (room.assignPlayerSlot c).2 := by
  unfold RoomState.assignPlayerSlot
  dsimp only
  split
  · next slot hout =>
    left
    rw [assignClient_old (by rw [hout])]
  · right
    intro msg hmsg
    rw [lastReport_send] at hmsg
    exact (Option.some.inj hmsg).symm

/-- A release that finds no slot changes nothing. -/
theorem releaseClient_false {slots : PlayerSlots} {c : String}
    (h : (slots.releaseClient c).1 = false) : (slots.releaseClient c).2 = slots := by
  unfold PlayerSlots.releaseClient at h ⊢
  split at h
  · rfl
  · cases h

/-- The report stays current with every operation but a release, a report of another count and an
assignment. -/
theorem perform_keeps_report {i : RoomOp} {r : i.Reply}
    (hperform : room.perform description i = some (r, room')) (hseats : i.seats = false)
    (hreport : ∀ n, i ≠ .sendPlayerCount n) :
    lastReport room' = lastReport room ∧ room'.playerSlots = room.playerSlots := by
  refine ⟨?_, (RoomState.perform_frame hperform).2.1 hseats⟩
  cases i with
  | assignPlayerSlot c => cases hseats
  | releaseClient c => cases hseats
  | sendPlayerCount n => exact absurd rfl (hreport n)
  | insertSession c session =>
    rcases RoomState.perform_insertSession hperform with rfl | rfl <;> rfl
  | removeSession c => obtain ⟨_, rfl⟩ := RoomState.perform_removeSession hperform; rfl
  | withClientSession c => obtain ⟨_, rfl⟩ := RoomState.perform_withClientSession hperform; rfl
  | sendInput event => obtain ⟨_, rfl⟩ := RoomState.perform_sendInput hperform; rfl
  | sendOffer session =>
    cases hperform
    have hother : ¬ (SignalIds.offer == SignalIds.updatePlayerCount) = true := by decide
    unfold lastReport RoomState.sendOffer
    split
    · rfl
    · exact List.find?_cons_of_neg hother
  | updateInput player data => obtain ⟨_, rfl⟩ := RoomState.perform_updateInput hperform; rfl
  | _ => cases hperform; rfl

end Perform

/-! ## The result -/

section Steps

variable {description : Session → String} {s s' : CallState}

/-- A call in progress has a report to send. -/
def CallState.ReportOwed (s : CallState) : Prop :=
  Prog.Owes s.tasks (fun _ _ => True) fun i => ∃ n, i = .sendPlayerCount n

/-- An operation leaves the report current, or owed. -/
theorem report_performed {thread : ThreadId} {i : RoomOp} {k : i.Reply → RoomM Unit} {r : i.Reply}
    {room : RoomState} (h : ReportCurrent s.room ∨ s.ReportOwed)
    (hintime : ReportInTime s (.run thread)) (hprog : s.tasks thread = .op i k)
    (hperform : s.room.perform description i = some (r, room))
    (halong : (s.tasks thread).Along ReportsRelease) :
    ReportCurrent room ∨ (s.performed thread (k r) room).ReportOwed := by
  have howed : (∀ n, i ≠ .sendPlayerCount n) → s.ReportOwed →
      (s.performed thread (k r) room).ReportOwed := fun hmiss ho =>
    ho.perform hprog trivial fun ⟨n, he⟩ => hmiss n he
  rw [hprog] at halong
  cases i with
  | assignPlayerSlot c =>
    obtain rfl : (s.room.assignPlayerSlot c).2 = room :=
      congrArg Prod.snd (Option.some.inj hperform)
    rcases assignPlayerSlot_reported s.room c with hsame | hcurrent
    · rw [hsame]
      exact h.imp_right (howed nofun)
    · exact Or.inl hcurrent
  | releaseClient c =>
    cases hperform
    rcases Bool.eq_false_or_eq_true (s.room.playerSlots.releaseClient c).1 with hr | hr
    · refine Or.inr (Prog.owes_update ?_)
      rw [hr]
      exact halong.1
    · rw [releaseClient_false hr]
      exact h.imp_right (howed nofun)
  | sendPlayerCount n =>
    cases hperform
    rcases hintime n (by rw [hprog]; rfl) with rfl | ⟨t, hne, hwill⟩
    · left
      intro msg hmsg
      rw [lastReport_send] at hmsg
      exact (Option.some.inj hmsg).symm
    · -- the other thread still reports
      exact Or.inr ⟨t, by rw [CallState.tasks_performed, if_neg hne]; exact hwill⟩
  | _ =>
    obtain ⟨hreport, hslots⟩ := perform_keeps_report hperform rfl nofun
    refine h.imp (fun hcurrent msg hmsg => ?_) (howed nofun)
    rw [hreport] at hmsg
    rw [hslots]
    exact hcurrent msg hmsg

theorem report_step {a : CallAction} (h : ReportCurrent s.room ∨ s.ReportOwed)
    (hintime : ReportInTime s a) (halong : ∀ t, (s.tasks t).Along ReportsRelease)
    (hs : s.step description a = some s') : ReportCurrent s'.room ∨ s'.ReportOwed := by
  cases callStep_cases hs with
  | call n method hidle => exact h.imp_right fun ho => ho.start hidle
  | poll input rest hin hidle => exact h.imp_right fun ho => ho.start hidle
  | run thread i k r room hprog hperform =>
    exact report_performed h hintime hprog hperform (halong thread)
  | emulatorFails hidle => exact h

/-- The emulator thread reports nothing. -/
theorem EmulatorAt.silent {taken : Option InputEvent} {prog : RoomM Unit}
    (h : EmulatorAt taken prog) : ¬ WillReport prog := by
  have hmiss : prog.All fun i => ∀ n, i ≠ .sendPlayerCount n := by
    cases h with
    | idle => trivial
    | asks input =>
      refine ⟨nofun, fun slot => ?_⟩
      cases slot <;> exact ⟨nofun, fun _ => trivial⟩
    | applies input player => exact ⟨nofun, fun _ => trivial⟩
    | queues input => exact ⟨nofun, fun _ => trivial⟩
  refine Prog.All.not_will (fun i hi ⟨n, he⟩ => hi n he) (fun i => ?_) hmiss
  cases i <;> exact ⟨default, trivial⟩

/-- **The report is current.**  In a run in which no report is overtaken, the last report carries
the current count whenever no call is in progress. -/
theorem report_current {as : List CallAction}
    (h : RunWhen ReportInTime (CallState.step description) CallState.init as s) (hidle : s.Idle)
    {msg : SignalMessage} (hlast : lastReport s.room = some msg) :
    msg = playerCountMessage s.room.playerSlots.count := by
  have halong : ∀ {as s}, Run (CallState.step description) CallState.init as s →
      ∀ t, (s.tasks t).Along ReportsRelease := fun hrun =>
    along_run (P := fun _ => ReportsRelease) (fun _ method => reportsRelease_prog method)
      (fun input => (keepsSlots_handleInputEvent input).reportsRelease) hrun
  have hreported : ReportCurrent s.room ∨ s.ReportOwed :=
    h.relative (I := fun s => ReportCurrent s.room ∨ s.ReportOwed) (Or.inl fun _ h => by cases h)
      fun _ _ _ _ hrun hi hintime hs => report_step hi hintime (halong hrun) hs
  rcases hreported with hcurrent | ⟨t, hwill⟩
  · exact hcurrent msg hlast
  cases t with
  | caller n =>
    rw [hidle n] at hwill
    exact absurd hwill (Prog.will_ret ())
  | emulator => exact absurd hwill (emulatorAt_run h.run).silent

/-- A report is sent only while its count is current. -/
def reportsCurrent (s : CallState) : CallAction → Bool
  | .run thread =>
    match (s.tasks thread).head with
    | some (.sendPlayerCount n) => n = s.room.playerSlots.count
    | _ => true
  | _ => true

theorem reportInTime_of_current (s : CallState) (a : CallAction)
    (h : reportsCurrent s a = true) : ReportInTime s a := by
  cases a with
  | run thread =>
    intro n hhead
    simp only [reportsCurrent, hhead] at h
    exact Or.inl (of_decide_eq_true h)
  | _ => trivial

/-- Two clients are given slots, then one of them is released. -/
def assignTwiceThenRelease : List CallAction :=
  .call 0 (.assignPlayerSlot "a") :: callerRuns 0 1 ++
    .call 1 (.assignPlayerSlot "b") :: callerRuns 1 1 ++
    .call 0 (.releaseInputSource "a") :: callerRuns 0 4

theorem report_current_after_release :
    ∃ s, RunWhen ReportInTime (CallState.step fun _ => "") CallState.init assignTwiceThenRelease s ∧
      s.Idle ∧ lastReport s.room = some (playerCountMessage 1) ∧
      playerCountMessage 1 = playerCountMessage s.room.playerSlots.count := by
  have hrun : ∃ s, RunWhen (fun s a => reportsCurrent s a = true) (CallState.step fun _ => "")
      CallState.init assignTwiceThenRelease s ∧ s.Done assignTwiceThenRelease ∧
      lastReport s.room = some (playerCountMessage 1) :=
    execWhen_any (by decide +kernel)
  obtain ⟨s, hrun, hdone, hlast⟩ := hrun
  have hintime := hrun.mono reportInTime_of_current
  have hidle := callers_idle hrun.run hdone
  exact ⟨s, hintime, hidle, hlast, report_current hintime hidle hlast⟩

/-- The first client is released, and the second is given a slot before that is reported. -/
def assignDuringRelease : List CallAction :=
  .call 0 (.assignPlayerSlot "a") :: callerRuns 0 1 ++
    .call 1 (.releaseInputSource "a") :: callerRuns 1 3 ++
    .call 0 (.assignPlayerSlot "b") :: callerRuns 0 1 ++ callerRuns 1 1

/-- **A stale report.**  No call is in progress and a client has a slot, but the last report says
that there are no players. -/
theorem report_stale :
    ∃ s, Run (CallState.step fun _ => "") CallState.init assignDuringRelease s ∧ s.Idle ∧
      lastReport s.room = some (playerCountMessage 0) ∧ s.room.playerSlots.count = 1 := by
  have hrun : ∃ s, Run (CallState.step fun _ => "") CallState.init assignDuringRelease s ∧
      s.Done assignDuringRelease ∧ lastReport s.room = some (playerCountMessage 0) ∧
      s.room.playerSlots.count = 1 :=
    execWhen_any (by decide +kernel)
  obtain ⟨s, hrun, hdone, hlast, hcount⟩ := hrun
  exact ⟨s, hrun, callers_idle hrun hdone, hlast, hcount⟩

end Steps

end CloudGame.Worker
