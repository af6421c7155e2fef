import CloudGame.Signal.Orphans

/-!
# Bindings and the workers they name

`handle_browser_message` looks the worker up before it binds the client to it, but these are two
operations.  When the worker disconnects between them, the client is bound to a worker that is gone
(`bindings_dangle`), and no disconnect will unbind it any more.

`BindsPresent` is the condition on the state before a step under which this does not happen.
`bindings_intact_iff`: the runs in which every binding names a registered worker throughout are
exactly the runs whose steps all meet it; and in every run the disconnect of a worker unbinds the
clients that are bound to it and closes them.
-/

namespace CloudGame.Signal

open CloudGame.Lib

/-- Every binding names a registered worker. -/
def Intact (s : Server) : Prop :=
  ∀ c w, s.shared.registry.clientToWorker.lookup c = some w →
    s.shared.registry.workers.lookup w ≠ none

def StaysIntact (cfg : Config) (s : Server) (a : ServerAction) : Prop :=
  ∀ s', s.step cfg a = some s' → Intact s'

/-- A client is bound to a worker that is registered then. -/
def BindsPresent (s : Server) : ServerAction → Prop
  | .advance id _ => ∀ peer c w k, s.peers id = some peer →
      peer.prog = .op (.bindClientToWorker c w) k → s.shared.registry.workers.lookup w ≠ none
  | _ => True

/-! ## One step -/

section Steps

variable {cfg : Config} {s s' : Server} {a : ServerAction}

theorem intact_init : Intact Server.init := by
  intro c w h
  cases h

theorem intact_performed {id : String} {peer : Peer} {choice : Choice} {i : Op}
    {k : i.Reply → ServerM Unit} {r : i.Reply} {sh : Shared} (hi : Intact s)
    (hperform : Shared.perform cfg choice s.shared i = some (r, sh))
    (hbind : ∀ c w, i = .bindClientToWorker c w → s.shared.registry.workers.lookup w ≠ none) :
    Intact (s.performed id peer choice i k r sh) := by
  intro c w hw
  replace hw : sh.registry.clientToWorker.lookup c = some w := hw
  show sh.registry.workers.lookup w ≠ none
  rw [perform_binding hperform] at hw
  rw [perform_worker hperform]
  cases i with
  | bindClientToWorker c' w' =>
    simp only [Op.bindingAfter] at hw
    split at hw
    · cases hw; exact hbind c' w rfl
    · exact hi c w hw
  | unbindClient c' =>
    simp only [Op.bindingAfter] at hw
    split at hw
    · cases hw
    · exact hi c w hw
  | unregisterClient c' =>
    simp only [Op.bindingAfter] at hw
    split at hw
    · cases hw
    · exact hi c w hw
  | unregisterWorker w' =>
    -- the bindings to the worker go with it
    simp only [Op.bindingAfter] at hw
    split at hw
    · cases hw
    · next hne =>
      simp only [Op.workerAfter]
      split
      · next he => rw [hw, he] at hne; exact absurd rfl hne
      · exact hi c w hw
  | registerWorker w' tx =>
    simp only [Op.workerAfter]
    split
    · simp
    · exact hi c w hw
  | _ => exact hi c w hw

theorem staysIntact_iff (hi : Intact s) (hs : s.step cfg a = some s') :
    StaysIntact cfg s a ↔ BindsPresent s a := by
  have hsame : StaysIntact cfg s a ↔ Intact s' := by
    refine ⟨fun h => h s' hs, fun h s'' hs'' => ?_⟩
    rw [hs] at hs''
    cases hs''
    exact h
  rw [hsame]
  cases step_cases hs with
  | spawn id peer log hsp =>
    refine ⟨fun _ => ?_, fun _ => hi⟩
    cases hsp <;> trivial
  | advance id peer choice i k r sh hpeer hprog hnow hperform =>
    constructor
    · intro h peer' c w k' hpeer' hprog'
      rw [hpeer] at hpeer'
      cases hpeer'
      rw [hprog] at hprog'
      cases hprog'
      have hnew := h c w
      change sh.registry.clientToWorker.lookup c = some w →
        sh.registry.workers.lookup w ≠ none at hnew
      rw [perform_binding hperform, perform_worker hperform] at hnew
      exact hnew (if_pos rfl)
    · intro h
      refine intact_performed hi hperform fun c w he => ?_
      subst he
      exact h peer c w k hpeer hprog
  | rehash registry controllers hreg hc =>
    refine ⟨fun _ => trivial, fun _ c w hw => ?_⟩
    show registry.workers.lookup w ≠ none
    replace hw : registry.clientToWorker.lookup c = some w := hw
    rw [hreg.clientToWorker.lookup] at hw
    rw [hreg.workers.lookup]
    exact hi c w hw

end Steps

/-! ## The disconnect of a worker closes its clients -/

/-- The client was told to close, or a task will certainly tell it. -/
def Server.Closing (s : Server) (c : String) : Prop :=
  .close ∈ s.shared.queues c ∨ s.Owes (fun _ _ => True) (· = .send c .close)

/-- What is taken out with a worker is closed. -/
def Closes : (i : Op) → (i.Reply → ServerM Unit) → Prop
  | .unregisterWorker _, k => ∀ (clients : List (String × Tx)) c tx, (c, tx) ∈ clients →
      (k clients).Will (fun _ _ => True) (· = .send tx .close)
  | _, _ => True

theorem IsSpawned.along_closes {cfg : Config} {id : String} {peer : Peer}
    (h : IsSpawned cfg id peer) : peer.prog.Along Closes := by
  have hother : ∀ {p : ServerM Unit}, p.All (fun i => ∀ w, i ≠ .unregisterWorker w) →
      p.Along Closes := by
    intro p hall
    refine hall.along fun i k hi => ?_
    cases i with
    | unregisterWorker w => exact absurd rfl (hi w)
    | _ => trivial
  have hopen : peer.isOpen = true ∨ peer.role = .browser → peer.prog.Along Closes := by
    intro hp
    refine hother (h.headed.all.mono fun i hi w he => ?_)
    subst he
    rcases hp with hp | hp
    · rw [hp] at hi; cases hi.1
    · rw [hp] at hi; cases hi.2.1
  cases h with
  | start role => exact hopen (Or.inl rfl)
  | message role req => exact hopen (Or.inl rfl)
  | cleanup role =>
    cases role with
    | browser => exact hopen (Or.inr rfl)
    | worker =>
      refine ⟨fun clients c tx hmem => ?_, fun clients => hother ?_⟩
      · show ((Prog.each clients fun client => Call.send client.2 .close) >>=
          fun _ => broadcastGames).Will _ _
        refine Prog.Will.bind (Prog.Will.each hmem ?_)
        exact Or.inl rfl
      · have hlater : (Prog.each clients fun client => Call.send client.2 .close).All
            (fun i => ∀ w, i ≠ .unregisterWorker w) :=
          Prog.All.each fun client _ => ⟨fun w => by simp, fun _ => trivial⟩
        refine hlater.bind fun _ => ?_
        have hgames : broadcastGames.All (Op.Later .worker id false none) := later_broadcastGames
        refine hgames.mono fun i hi w he => ?_
        subst he
        cases hi.2

theorem closes_run {cfg : Config} {as : List ServerAction} {s : Server}
    (h : Run (Server.step cfg) Server.init as s) {id : String} {peer : Peer} {i : Op}
    {k : i.Reply → ServerM Unit} (hpeer : s.peers id = some peer) (hprog : peer.prog = .op i k) :
    Closes i k := by
  have halong := along_run (fun _ _ => IsSpawned.along_closes) h id peer hpeer
  rw [hprog] at halong
  exact halong.1

/-- A browser with an open socket is still about to register, is registered, or is being closed. -/
def OpenOrClosing (cfg : Config) (s : Server) : Prop :=
  ∀ c peer, s.peers c = some peer → peer.role = .browser → peer.isOpen = true →
    peer.prog = startProg cfg .browser c ∨ s.shared.registry.clients.lookup c ≠ none ∨ s.Closing c

/-- A bound client is registered or is being closed. -/
def BoundOrClosing (s : Server) : Prop :=
  ∀ c w, s.shared.registry.clientToWorker.lookup c = some w →
    s.shared.registry.clients.lookup c ≠ none ∨ s.Closing c

section Closing

variable {cfg : Config} {s : Server} {id : String} {peer : Peer} {choice : Choice} {i : Op}
  {k : i.Reply → ServerM Unit} {r : i.Reply} {sh : Shared} {c : String}

theorem Server.Closing.spawn {a : ServerAction} {log : List ServerEvent} (h : s.Closing c)
    (hs : Spawns cfg s a id peer log) :
    ({ s.setPeer id peer with log := log } : Server).Closing c :=
  h.imp (fun hq => hq) fun howes => howes.spawn hs

theorem Server.Closing.performed (h : s.Closing c) (hpeer : s.peers id = some peer)
    (hprog : peer.prog = .op i k) (hperform : Shared.perform cfg choice s.shared i = some (r, sh)) :
    (s.performed id peer choice i k r sh).Closing c := by
  have hqueue : (s.performed id peer choice i k r sh).shared.queues c =
      i.placed c ++ s.shared.queues c := perform_queues hperform c
  by_cases hhit : i = .send c .close
  · refine Or.inl ?_
    rw [hqueue, hhit]
    simp [Op.placed]
  · refine h.imp (fun hq => ?_) fun howes => howes.performed hpeer hprog trivial hhit
    rw [hqueue]
    exact List.mem_append_right _ hq

/-- A registered client is registered after the operation, is closed by it, or cleans up. -/
theorem registered_or_closing (hq : OwnQueues s) (hcloses : Closes i k)
    (hperform : Shared.perform cfg choice s.shared i = some (r, sh))
    (hc : s.shared.registry.clients.lookup c ≠ none) (hne : i ≠ .unregisterClient c) :
    sh.registry.clients.lookup c ≠ none ∨
      (s.performed id peer choice i k r sh).Closing c := by
  rw [perform_client hperform]
  cases i with
  | registerClient c' tx =>
    simp only [Op.clientAfter]
    split
    · exact Or.inl (by simp)
    · exact Or.inl hc
  | unregisterClient c' =>
    simp only [Op.clientAfter]
    rw [if_neg (by rintro rfl; exact hne rfl)]
    exact Or.inl hc
  | unregisterWorker w =>
    simp only [Op.clientAfter]
    split
    · next hbound =>
      -- the worker's cleanup sends a close to every client it took out
      obtain ⟨tx, htx⟩ := Option.ne_none_iff_exists'.mp hc
      cases hq.clients c tx htx
      cases hperform
      refine Or.inr (Or.inr (Server.Owes.of_rest (hcloses _ c c ?_)))
      show (c, c) ∈ (s.shared.registry.boundClients w).filterMap _
      refine List.mem_filterMap.mpr ⟨c, RegistryState.mem_boundClients.mpr hbound, ?_⟩
      rw [htx]
      rfl
    · exact Or.inl hc
  | _ => exact Or.inl hc

end Closing

theorem openOrClosing_run {cfg : Config} {as : List ServerAction} {s : Server}
    (h : Run (Server.step cfg) Server.init as s) : OpenOrClosing cfg s := by
  refine h.relative (I := OpenOrClosing cfg) (fun c peer hp => by cases hp)
    fun as s a s' hr hi _ hs c peer' hp hrole hopen => ?_
  cases step_cases hs with
  | spawn id peer log hsp =>
    rw [peers_setPeer] at hp
    split at hp
    · next he =>
      cases hp
      subst he
      cases hsp with
      | connect role hnew => exact Or.inl (by rw [show role = .browser from hrole])
      | receive old req hold ho hidle =>
        rcases hi c old hold hrole ho with hstart | hreg | hclosing
        · rw [hidle] at hstart
          exact absurd hstart.symm (startProg_ne_ret cfg _ c)
        · exact Or.inr (Or.inl hreg)
        · exact Or.inr (Or.inr (hclosing.spawn (.receive old req hold ho hidle)))
      | disconnect old hold _ _ => cases hopen
    · exact (hi c peer' hp hrole hopen).imp_right fun h =>
        h.imp_right fun hclosing => hclosing.spawn hsp
  | advance id peer choice i k r sh hpeer hprog hnow hperform =>
    have hown := (taskInv_run hr).owned hpeer hprog
    have hkeep : ∀ old, s.peers c = some old → old.isOpen = true →
        s.shared.registry.clients.lookup c ≠ none ∨ s.Closing c →
        sh.registry.clients.lookup c ≠ none ∨ (s.performed id peer choice i k r sh).Closing c := by
      rintro old hold ho (hreg | hclosing)
      · refine registered_or_closing (ownQueues_run hr) (closes_run hr hpeer hprog) hperform hreg ?_
        rintro rfl
        obtain ⟨hended, -, rfl⟩ := hown
        rw [hpeer] at hold
        cases hold
        rw [ho] at hended
        cases hended
      · exact Or.inr (hclosing.performed hpeer hprog hperform)
    rw [peers_performed] at hp
    split at hp
    · next he =>
      cases hp
      subst he
      right
      rcases hi c peer hpeer hrole hopen with hstart | hrest
      · rw [hprog] at hstart
        cases hstart
        refine Or.inl ?_
        show sh.registry.clients.lookup c ≠ none
        rw [perform_client hperform]
        simp [Op.clientAfter]
      · exact hkeep peer hpeer hopen hrest
    · exact (hi c peer' hp hrole hopen).imp_right fun hrest => hkeep peer' hp hopen hrest
  | rehash registry controllers hreg hc =>
    refine (hi c peer' hp hrole hopen).imp id fun h => h.imp (fun hcl => ?_) id
    show registry.clients.lookup c ≠ none
    rw [hreg.clients.lookup]
    exact hcl

theorem boundOrClosing_run {cfg : Config} {as : List ServerAction} {s : Server}
    (h : Run (Server.step cfg) Server.init as s) : BoundOrClosing s := by
  refine h.relative (I := BoundOrClosing) (fun c w hw => by cases hw)
    fun as s a s' hr hi _ hs c w hw => ?_
  cases step_cases hs with
  | spawn id peer log hsp => exact (hi c w hw).imp_right fun hclosing => hclosing.spawn hsp
  | advance id peer choice i k r sh hpeer hprog hnow hperform =>
    replace hw : sh.registry.clientToWorker.lookup c = some w := hw
    rw [perform_binding hperform] at hw
    have hown := (taskInv_run hr).owned hpeer hprog
    have hkeep : i ≠ .unregisterClient c →
        s.shared.registry.clients.lookup c ≠ none ∨ s.Closing c →
        sh.registry.clients.lookup c ≠ none ∨ (s.performed id peer choice i k r sh).Closing c := by
      rintro hne (hreg | hclosing)
      · exact registered_or_closing (ownQueues_run hr) (closes_run hr hpeer hprog) hperform hreg hne
      · exact Or.inr (hclosing.performed hpeer hprog hperform)
    by_cases hbind : ∃ w', i = .bindClientToWorker c w'
    · -- the client that binds itself has an open socket
      obtain ⟨w', rfl⟩ := hbind
      obtain ⟨ho, hrole, rfl, -⟩ := hown
      refine hkeep (fun he => by cases he) ?_
      refine (openOrClosing_run hr c peer hpeer hrole ho).resolve_left fun hstart => ?_
      rw [hprog] at hstart
      cases hstart
    · have hold : s.shared.registry.clientToWorker.lookup c = some w ∧ i ≠ .unregisterClient c := by
        cases i with
        | bindClientToWorker c' w' =>
          simp only [Op.bindingAfter] at hw
          split at hw
          · next he => exact absurd ⟨w', by rw [he]⟩ hbind
          · exact ⟨hw, fun he => by cases he⟩
        | unbindClient c' =>
          simp only [Op.bindingAfter] at hw
          split at hw
          · cases hw
          · exact ⟨hw, fun he => by cases he⟩
        | unregisterClient c' =>
          simp only [Op.bindingAfter] at hw
          split at hw
          · cases hw
          · next hne => exact ⟨hw, fun he => by cases he; exact hne rfl⟩
        | unregisterWorker w' =>
          simp only [Op.bindingAfter] at hw
          split at hw
          · cases hw
          · exact ⟨hw, fun he => by cases he⟩
        | _ => exact ⟨hw, fun he => by cases he⟩
      exact hkeep hold.2 (hi c w hold.1)
  | rehash registry controllers hreg hc =>
    replace hw : registry.clientToWorker.lookup c = some w := hw
    rw [hreg.clientToWorker.lookup] at hw
    refine (hi c w hw).imp (fun hcl => ?_) id
    show registry.clients.lookup c ≠ none
    rw [hreg.clients.lookup]
    exact hcl

/-! ## The result -/

/-- **Bindings stay intact exactly when each one is made to a worker that is still there.**  And in
every run, when a worker is taken out, each client bound to it is unbound, and is closed or will
certainly be. -/
theorem bindings_intact_iff (cfg : Config) (as : List ServerAction) (s : Server) :
    (RunWhen (StaysIntact cfg) (Server.step cfg) Server.init as s ↔
      RunWhen BindsPresent (Server.step cfg) Server.init as s) ∧
    (Run (Server.step cfg) Server.init as s → ∀ w peer choice k s', s.peers w = some peer →
      peer.prog = .op (.unregisterWorker w) k → s.step cfg (.advance w choice) = some s' →
      ∀ c, s.shared.registry.clientToWorker.lookup c = some w →
        s'.shared.registry.clientToWorker.lookup c = none ∧ s'.Closing c) := by
  refine ⟨⟨fun h => ?_, fun h => ?_⟩, ?_⟩
  · refine h.strengthen fun as s a s' h hstays hs => ?_
    have hi : Intact s := h.invariant intact_init fun _ _ _ _ hstays hs => hstays _ hs
    exact (staysIntact_iff hi hs).mp hstays
  · refine h.strengthen fun as s a s' h hpresent hs => ?_
    have hi : Intact s := h.invariant intact_init fun _ _ s' hi hpresent hs =>
      (staysIntact_iff hi hs).mpr hpresent s' hs
    exact (staysIntact_iff hi hs).mpr hpresent
  · intro h w peer choice k s' hpeer hprog hs c hbound
    cases step_cases hs with
    | spawn id peer' log hsp => cases hsp
    | advance _ peer' _ i k' r sh hpeer' hprog' hnow hperform =>
      rw [hpeer] at hpeer'
      cases hpeer'
      rw [hprog] at hprog'
      cases hprog'
      constructor
      · show sh.registry.clientToWorker.lookup c = none
        rw [perform_binding hperform]
        exact if_pos hbound
      · rcases boundOrClosing_run h c w hbound with hreg | hclosing
        · refine (registered_or_closing (ownQueues_run h) (closes_run h hpeer hprog) hperform hreg
            (fun he => by cases he)).resolve_left fun hne => hne ?_
          rw [perform_client hperform]
          exact if_pos hbound
        · exact hclosing.performed hpeer hprog hperform

/-- The condition, evaluated. -/
def bindsPresent (s : Server) : ServerAction → Bool
  | .advance id _ =>
    match (s.peers id).bind fun peer => peer.prog.head with
    | some (.bindClientToWorker _ w) => (s.shared.registry.workers.lookup w).isSome
    | _ => true
  | _ => true

theorem bindsPresent_of_evaluated (s : Server) (a : ServerAction) (h : bindsPresent s a = true) :
    BindsPresent s a := by
  cases a with
  | advance id choice =>
    intro peer c w k hpeer hprog
    simp only [bindsPresent, hpeer, Option.bind_some, hprog, Prog.head] at h
    exact Option.isSome_iff_ne_none.mp h
  | _ => trivial

/-- A browser is bound to a worker, which disconnects. -/
def bindThenDisconnect : List ServerAction :=
  .connect "worker" .worker :: advances "worker" 1 ++
    .connect "browser" .browser :: advances "browser" 5 ++
    .receive "browser" ⟨"initwebrtc", none, some "worker"⟩ :: advances "browser" 2 ++
    [.disconnect "worker"]

theorem bindings_intact_disconnect :
    ∃ s s', RunWhen (StaysIntact plainConfig) (Server.step plainConfig) Server.init
        bindThenDisconnect s ∧
      s.shared.registry.clientToWorker.lookup "browser" = some "worker" ∧
      s.step plainConfig (.advance "worker" ⟨0, 0, fun _ => 0⟩) = some s' ∧
      s'.shared.registry.clientToWorker.lookup "browser" = none ∧ s'.Closing "browser" := by
  have heval : ∃ s, RunWhen (fun s a => bindsPresent s a = true) (Server.step plainConfig)
      Server.init bindThenDisconnect s ∧
      s.shared.registry.clientToWorker.lookup "browser" = some "worker" ∧
      ((s.peers "worker").bind fun peer => peer.prog.head) = some (.unregisterWorker "worker") ∧
      (s.step plainConfig (.advance "worker" ⟨0, 0, fun _ => 0⟩)).isSome = true :=
    execWhen_any (by decide +kernel)
  obtain ⟨s, hrun, hbound, hhead, hs⟩ := heval
  obtain ⟨peer, hpeer, hprog⟩ := Option.bind_eq_some_iff.mp hhead
  obtain ⟨s', hs'⟩ := Option.isSome_iff_exists.mp hs
  have hpresent := hrun.mono bindsPresent_of_evaluated
  obtain ⟨hintact, hunbinds⟩ := bindings_intact_iff plainConfig bindThenDisconnect s
  obtain ⟨k, hk⟩ := Prog.eq_op_of_head hprog
  exact ⟨s, s', hintact.mpr hpresent, hbound, hs',
    hunbinds hpresent.run "worker" peer _ k s' hpeer hk hs' "browser" hbound⟩

/-- A worker disconnects while the server binds a browser to it: between the look at the worker and
the binding. -/
def lateBindRun : List ServerAction :=
  .connect "worker" .worker :: advances "worker" 1 ++
    .connect "browser" .browser :: advances "browser" 5 ++
    .receive "browser" ⟨"initwebrtc", none, some "worker"⟩ :: advances "browser" 1 ++
    .disconnect "worker" :: advances "worker" 1 ++ advances "browser" 1

theorem bindings_dangle : ∃ s, Run (Server.step plainConfig) Server.init lateBindRun s ∧
    s.shared.registry.clientToWorker.lookup "browser" = some "worker" ∧
    s.shared.registry.workers.lookup "worker" = none := by
  have heval : (execWhen (fun _ _ => True) (Server.step plainConfig) Server.init
      lateBindRun).any (fun s => decide (
        s.shared.registry.clientToWorker.lookup "browser" = some "worker" ∧
        s.shared.registry.workers.lookup "worker" = none)) = true := by decide +kernel
  exact execWhen_any heval

end CloudGame.Signal
