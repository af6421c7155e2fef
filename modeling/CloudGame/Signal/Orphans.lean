import CloudGame.Signal.Contacts

/-!
# No orphan session on a worker

The server tells a worker of a client's end from the binding and from the controller route it finds
when the client disconnects (`Shared.Covers`), so a worker is left with an orphan whenever one of
the two is overwritten while the worker still believes in the client, or is gone before a
`joinRoom` is sent.

`KeepsCover` is the condition that no step does that.  Under it every belief is covered by the
binding or the route, or some cleanup in progress is about to tell the worker
(`Server.WillTell`): `reported_run`.  The proof needs two more facts that hold in every run: that a
cleanup tells the workers of what it removes (`reports_run`), and that a binding or a route belongs
to a client whose socket is open or whose cleanup has not come to it (`attended_binding`,
`attended_route`).
-/

namespace CloudGame.Signal

open CloudGame.Lib

/-! ## What a worker believes, and who will tell it -/

/-- The end of `c` is reported to `w`: by its binding, or by its controller route. -/
def Shared.Covers (sh : Shared) (w c : String) : Prop :=
  sh.registry.clientToWorker.lookup c = some w ∨
    ∃ route, sh.controllers.controllerToHost.lookup c = some route ∧ route.workerId = w

/-- Replies while `w` is registered. -/
def registeredReply (w : String) : (i : Op) → i.Reply → Prop
  | .workerSender w', r => w' = w → r = some w
  | _, _ => True

/-- A cleanup in progress certainly tells `w`. -/
def Server.WillTell (s : Server) (w c : String) : Prop :=
  s.Owes (registeredReply w) (· = tell w c)

/-- `w` believes in `c` and no cleanup in progress tells it otherwise. -/
def Server.AtRisk (s : Server) (w c : String) : Prop :=
  s.shared.Believes w c ∧ s.shared.registry.workers.lookup w ≠ none ∧ ¬ s.WillTell w c

/-- The operation leaves nobody at risk: a binding or a route that is overwritten is not the only
cover of its worker, and the `joinRoom` of a `controllerJoin` is sent while its worker is covered
(or is about to be told of the end). -/
def KeepsCover (cfg : Config) (s : Server) (choice : Choice) (handling : Option BrowserCommand) :
    Op → Prop
  | .bindClientToWorker c w => ∀ old, s.shared.registry.clientToWorker.lookup c = some old →
      old ≠ w → s.AtRisk old c →
      ∃ route, s.shared.controllers.controllerToHost.lookup c = some route ∧ route.workerId = old
  | .join c code => ∀ registration route,
      s.shared.controllers.registrationOf cfg.caseMap code choice.now = some registration →
      s.shared.controllers.controllerToHost.lookup c = some route →
      route.workerId ≠ registration.workerId → s.AtRisk route.workerId c →
      s.shared.registry.clientToWorker.lookup c = some route.workerId
  | .registerHost h w => ∀ c route, s.shared.controllers.controllerToHost.lookup c = some route →
      route.hostClientId = h → route.workerId ≠ w → s.AtRisk route.workerId c →
      s.shared.registry.clientToWorker.lookup c = some route.workerId
  | .send w event => ∀ c code, handling = some (.controllerJoin code) →
      event.announces = some c → s.shared.registry.workers.lookup w ≠ none →
      s.shared.Covers w c ∨ s.WillTell w c
  | _ => True

/-- The condition on the steps of a run. -/
def NoOverwrite (cfg : Config) (s : Server) : ServerAction → Prop
  | .advance id choice => ∀ peer i k, s.peers id = some peer → peer.prog = .op i k →
      KeepsCover cfg s choice peer.handling i
  | _ => True

section Perform

variable {cfg : Config} {choice : Choice} {sh' : Shared} {i : Op} {r : i.Reply}

/-- While a worker is registered, the replies are those of a registered worker. -/
theorem registeredReply_perform {s : Server} (hq : OwnQueues s) {w : String}
    (hw : s.shared.registry.workers.lookup w ≠ none)
    (h : Shared.perform cfg choice s.shared i = some (r, sh')) : registeredReply w i r := by
  cases i with
  | workerSender w' =>
    rintro rfl
    cases h
    obtain ⟨tx, htx⟩ := Option.ne_none_iff_exists'.mp hw
    have he : tx = w' := hq.workers w' tx htx
    rw [he] at htx
    exact htx
  | _ => trivial

end Perform

/-! ## A cleanup tells the workers of what it removes -/

/-- What the rest of a program certainly does after it removed a binding or routes. -/
def Reports : (i : Op) → (i.Reply → ServerM Unit) → Prop
  | .unregisterClient c, k => ∀ w, (k (some w)).Will (registeredReply w) (· = tell w c)
  | .cleanupPeer _, k => ∀ (out : ControllerCleanup) w c, (w, c) ∈ out.workerTerminations →
      (k out).Will (registeredReply w) (· = tell w c)
  | _, _ => True

/-- The operations of sending a message. -/
def Op.isMessaging : Op → Bool
  | .clientSender _ => true
  | .workerSender _ => true
  | .send _ _ => true
  | _ => false

theorem will_tell (w c : String) :
    (sendToWorker w (terminateSessionMessage c)).Will (registeredReply w) (· = tell w c) := by
  refine Or.inr fun r hr => ?_
  have he : r = some w := hr rfl
  subst he
  exact Or.inl rfl

theorem messaging_sendToWorker (w : String) (msg : SignalMessage) :
    (sendToWorker w msg).All (fun i => i.isMessaging = true) :=
  ⟨rfl, fun _ => Prog.All.whenSome fun _ => ⟨rfl, fun _ => trivial⟩⟩

theorem messaging_sendToClient (c : String) (msg : SignalMessage) :
    (sendToClient c msg).All (fun i => i.isMessaging = true) :=
  ⟨rfl, fun _ => Prog.All.whenSome fun _ => ⟨rfl, fun _ => trivial⟩⟩

theorem along_reports_cleanupBrowser (c : String) : (cleanupBrowser c).Along Reports := by
  refine ⟨fun out w c' hmem => Or.inr fun dropped _ => ?_,
    fun out => ⟨fun w => ?_, fun dropped => ?_⟩⟩
  · refine .bind_right fun _ => .bind_right fun _ => .bind_right fun _ => .bind_right fun _ => ?_
    refine Prog.Will.each hmem ?_
    exact will_tell w c'
  · exact (will_tell w c).bind
  · have hall : ∀ i : Op, ∀ k, i.isMessaging = true → Reports i k := by
      intro i k hi
      cases i with
      | unregisterClient c => cases hi
      | cleanupPeer x => cases hi
      | _ => trivial
    refine Prog.All.along hall ?_
    refine (Prog.All.whenSome fun _ => messaging_sendToWorker _ _).bind fun _ => ?_
    refine (Prog.All.whenSome fun _ => messaging_sendToClient _ _).bind fun _ => ?_
    refine (Prog.All.each fun _ _ => messaging_sendToClient _ _).bind fun _ => ?_
    exact Prog.All.each fun _ _ => messaging_sendToWorker _ _

theorem IsSpawned.along_reports {cfg : Config} {id : String} {peer : Peer}
    (h : IsSpawned cfg id peer) : peer.prog.Along Reports := by
  -- only the cleanup of a browser removes a binding or routes
  have hother : (peer.isOpen = true ∨ peer.role = .worker) →
      peer.prog.All (Op.OwnedBy peer.role id peer.isOpen peer.handling) →
      peer.prog.Along Reports := by
    intro hp hall
    refine hall.along fun i k hi => ?_
    cases i with
    | unregisterClient c => rcases hp with hp | hp <;> simp [Op.OwnedBy, hp] at hi
    | cleanupPeer x => rcases hp with hp | hp <;> simp [Op.OwnedBy, hp] at hi
    | _ => trivial
  have hall := h.headed.all
  cases h with
  | start role => exact hother (Or.inl rfl) hall
  | message role req => exact hother (Or.inl rfl) hall
  | cleanup role =>
    cases role with
    | worker => exact hother (Or.inr rfl) hall
    | browser => exact along_reports_cleanupBrowser id

theorem reports_run {cfg : Config} {as : List ServerAction} {s : Server}
    (h : Run (Server.step cfg) Server.init as s) {id : String} {peer : Peer} {i : Op}
    {k : i.Reply → ServerM Unit} (hpeer : s.peers id = some peer) (hprog : peer.prog = .op i k) :
    Reports i k := by
  have halong := along_run (fun _ _ => IsSpawned.along_reports) h id peer hpeer
  rw [hprog] at halong
  exact halong.1

/-! ## Who still has a binding or a route -/

/-- The client's socket is open, or its cleanup has still to perform `last`. -/
def Attended (s : Server) (c : String) (last : Op) : Prop :=
  ∃ peer, s.peers c = some peer ∧ peer.role = .browser ∧
    (peer.isOpen = true ∨ peer.prog.Will (fun _ _ => True) (· = last))

theorem Attended.spawn {cfg : Config} {s : Server} {a : ServerAction} {c : String} {last : Op}
    {id : String} {peer : Peer} {log : List ServerEvent} (h : Attended s c last)
    (hs : Spawns cfg s a id peer log)
    (hlast : (cleanupBrowser c).Will (fun _ _ => True) (· = last)) :
    Attended { s.setPeer id peer with log := log } c last := by
  obtain ⟨now, hnow, hrole, ho⟩ := h
  by_cases hc : c = id
  · subst hc
    refine ⟨peer, by rw [peers_setPeer, if_pos rfl], ?_⟩
    cases hs with
    | connect role hnew => rw [hnew] at hnow; cases hnow
    | receive old req hold _ _ =>
      rw [hold] at hnow
      cases hnow
      exact ⟨hrole, Or.inl rfl⟩
    | disconnect old hold _ _ =>
      rw [hold] at hnow
      cases hnow
      refine ⟨hrole, Or.inr ?_⟩
      show (cleanupProg now.role c).Will _ _
      rw [hrole]
      exact hlast
  · exact ⟨now, by rw [peers_setPeer, if_neg hc, hnow], hrole, ho⟩

theorem Attended.performed {s : Server} {c : String} {last : Op} {id : String} {peer : Peer}
    {choice : Choice} {i : Op} {k : i.Reply → ServerM Unit} {r : i.Reply} {sh : Shared}
    (h : Attended s c last) (hpeer : s.peers id = some peer) (hprog : peer.prog = .op i k)
    (hmiss : i ≠ last) : Attended (s.performed id peer choice i k r sh) c last := by
  obtain ⟨now, hnow, hrole, ho⟩ := h
  by_cases hc : c = id
  · subst hc
    rw [hpeer] at hnow
    cases hnow
    refine ⟨{ peer with prog := k r }, by rw [peers_performed, if_pos rfl], hrole,
      ho.imp (fun hopen => hopen) fun hw => ?_⟩
    rw [hprog] at hw
    exact (hw.resolve_left hmiss) r trivial
  · exact ⟨now, by rw [peers_performed, if_neg hc, hnow], hrole, ho⟩

theorem attended_binding {cfg : Config} {as : List ServerAction} {s : Server}
    (h : Run (Server.step cfg) Server.init as s) {c : String}
    (hb : s.shared.registry.clientToWorker.lookup c ≠ none) :
    Attended s c (.unregisterClient c) := by
  refine h.relative (I := fun s => ∀ c, s.shared.registry.clientToWorker.lookup c ≠ none →
    Attended s c (.unregisterClient c)) (fun c hb => absurd rfl hb) ?_ c hb
  intro as s a s' hr hi _ hs c hb
  cases step_cases hs with
  | spawn id peer log hsp => exact (hi c hb).spawn hsp (Or.inr fun _ _ => Or.inl rfl)
  | advance id peer choice i k r sh hpeer hprog hnow hperform =>
    have hown := (taskInv_run hr).owned hpeer hprog
    replace hb : sh.registry.clientToWorker.lookup c ≠ none := hb
    rw [perform_binding hperform] at hb
    by_cases hold : s.shared.registry.clientToWorker.lookup c = none
    · -- the binding is new
      cases i with
      | bindClientToWorker c' w =>
        simp only [Op.bindingAfter] at hb
        split at hb
        · next hc =>
          obtain ⟨hopen, hrole, hid, -⟩ := hown
          exact ⟨{ peer with prog := k r }, by rw [peers_performed, if_pos (hc.trans hid)], hrole,
            Or.inl hopen⟩
        · exact absurd hold hb
      | unbindClient c' => simp [Op.bindingAfter, hold] at hb
      | unregisterClient c' => simp [Op.bindingAfter, hold] at hb
      | unregisterWorker w => simp [Op.bindingAfter, hold] at hb
      | _ => exact absurd hold hb
    · refine (hi c hold).performed hpeer hprog ?_
      rintro rfl
      exact hb (if_pos rfl)
  | rehash registry controllers hreg hc =>
    refine hi c ?_
    rw [← hreg.clientToWorker.lookup]
    exact hb

theorem attended_route {cfg : Config} {as : List ServerAction} {s : Server}
    (h : Run (Server.step cfg) Server.init as s) {c : String}
    (hb : s.shared.controllers.controllerToHost.lookup c ≠ none) :
    Attended s c (.cleanupPeer c) := by
  refine h.relative (I := fun s => ∀ c, s.shared.controllers.controllerToHost.lookup c ≠ none →
    Attended s c (.cleanupPeer c)) (fun c hb => absurd rfl hb) ?_ c hb
  intro as s a s' hr hi _ hs c hb
  cases step_cases hs with
  | spawn id peer log hsp => exact (hi c hb).spawn hsp (Or.inl rfl)
  | advance id peer choice i k r sh hpeer hprog hnow hperform =>
    have hown := (taskInv_run hr).owned hpeer hprog
    rcases perform_route_new (linked_run hr) hperform hb with hold | ⟨code, rfl⟩
    · refine (hi c hold).performed hpeer hprog ?_
      rintro rfl
      -- the cleanup of a client removes its own route
      obtain ⟨own, hown'⟩ := Option.ne_none_iff_exists'.mp hold
      cases hperform
      refine hb ?_
      show (s.shared.controllers.cleanupPeer c).2.controllerToHost.lookup c = none
      rw [ControllerState.cleanupPeer_routed hown']
      exact AList.lookup_erase ..
    · obtain ⟨hopen, hrole, hid, -⟩ := hown
      exact ⟨{ peer with prog := k r }, by rw [peers_performed, if_pos hid], hrole, Or.inl hopen⟩
  | rehash registry controllers hreg hc =>
    refine hi c ?_
    rw [← hc.2.2.lookup]
    exact hb

/-! ## Every belief is covered, or about to be corrected -/

def Reported (s : Server) : Prop :=
  ∀ w c, s.shared.Believes w c → s.shared.registry.workers.lookup w ≠ none →
    s.shared.Covers w c ∨ s.WillTell w c

section Advance

variable {cfg : Config} {s : Server} {id : String} {peer : Peer} {choice : Choice} {i : Op}
  {k : i.Reply → ServerM Unit} {r : i.Reply} {sh : Shared} {w c : String}

/-- The binding of `c` to a worker at risk stays, or its cleanup will tell the worker, or `c` is
bound to another worker. -/
theorem binding_step (hs : Sound cfg s) (hc : ContactInv s) (hrep : Reports i k)
    (hpeer : s.peers id = some peer) (hprog : peer.prog = .op i k)
    (hperform : Shared.perform cfg choice s.shared i = some (r, sh)) (hrisk : s.AtRisk w c)
    (hreg : sh.registry.workers.lookup w ≠ none)
    (hb : s.shared.registry.clientToWorker.lookup c = some w) :
    sh.registry.clientToWorker.lookup c = some w ∨
      (s.performed id peer choice i k r sh).WillTell w c ∨
      ∃ w', i = .bindClientToWorker c w' ∧ w ≠ w' := by
  have hown := hs.tasks.owned hpeer hprog
  have hbinding := perform_binding hperform c
  rw [hb] at hbinding
  cases i with
  | bindClientToWorker c' w' =>
    by_cases he : c = c'
    · subst he
      by_cases hw : w = w'
      · exact Or.inl (by rw [hbinding, hw]; exact if_pos rfl)
      · exact Or.inr (Or.inr ⟨w', rfl, hw⟩)
    · exact Or.inl (hbinding.trans (if_neg he))
  | unbindClient c' =>
    by_cases he : c = c'
    · -- the handler told the worker before it unbinds
      obtain ⟨-, -, hid, -⟩ := hown
      obtain ⟨g, hg, hwp⟩ := hc.tasks id peer hpeer
      rw [hprog] at hwp
      obtain ⟨w', hl, ht⟩ := hwp.1
      have hww : w' = w := by
        rcases (hg.looked w' hl).2 with hb' | hb'
        · rw [← hid, ← he, hb] at hb'; exact (Option.some.inj hb').symm
        · rw [← hid, ← he, hb] at hb'; cases hb'
      subst hww
      rcases hg.told w' ht hl with hn | hn
      · rw [← hid, ← he] at hn; exact absurd hrisk.1 hn
      · exact absurd hn hrisk.2.1
    · exact Or.inl (hbinding.trans (if_neg he))
  | unregisterClient c' =>
    by_cases he : c = c'
    · subst he
      have hr : r = some w := by cases hperform; exact hb
      subst hr
      exact Or.inr (Or.inl (.of_rest (hrep w)))
    · exact Or.inl (hbinding.trans (if_neg he))
  | unregisterWorker w' =>
    by_cases he : w = w'
    · subst he
      rw [perform_worker hperform] at hreg
      exact absurd (if_pos rfl) hreg
    · exact Or.inl (hbinding.trans (if_neg fun h => he (Option.some.inj h)))
  | _ => exact Or.inl hbinding

/-- The route of `c` to a worker at risk keeps its worker, or its cleanup will tell the worker, or
`c` joins a host of another worker, or its host registers with another worker. -/
theorem route_step (hs : Sound cfg s) (hrep : Reports i k)
    (hperform : Shared.perform cfg choice s.shared i = some (r, sh)) {route : ControllerRoute}
    (hr : s.shared.controllers.controllerToHost.lookup c = some route)
    (hw : route.workerId = w) :
    (∃ route', sh.controllers.controllerToHost.lookup c = some route' ∧ route'.workerId = w) ∨
      (s.performed id peer choice i k r sh).WillTell w c ∨
      (∃ code registration, i = .join c code ∧
        s.shared.controllers.registrationOf cfg.caseMap code choice.now = some registration ∧
        w ≠ registration.workerId) ∨
      ∃ w', i = .registerHost route.hostClientId w' ∧ w ≠ w' := by
  subst hw
  rcases perform_route hs.linked hperform hr with hk | ⟨code, reg, rfl, hreg, hn⟩ | ⟨w', rfl, hn⟩ |
    ⟨x, rfl, hmem⟩
  · exact Or.inl ⟨route, hk, rfl⟩
  · by_cases he : route.workerId = reg.workerId
    · exact Or.inl ⟨_, hn, he.symm⟩
    · exact Or.inr (Or.inr (Or.inl ⟨code, reg, rfl, hreg, he⟩))
  · by_cases he : route.workerId = w'
    · exact Or.inl ⟨_, hn, he.symm⟩
    · exact Or.inr (Or.inr (Or.inr ⟨w', rfl, he⟩))
  · have hout : r = (s.shared.controllers.cleanupPeer x).1 := by cases hperform; rfl
    subst hout
    exact Or.inr (Or.inl (.of_rest (hrep _ _ _ hmem)))

/-- The cover of a worker at risk outlasts an operation that keeps it. -/
theorem covers_performed (hs : Sound cfg s) (hc : ContactInv s) (hrep : Reports i k)
    (hkeep : KeepsCover cfg s choice peer.handling i) (hpeer : s.peers id = some peer)
    (hprog : peer.prog = .op i k)
    (hperform : Shared.perform cfg choice s.shared i = some (r, sh)) (hrisk : s.AtRisk w c)
    (hreg : sh.registry.workers.lookup w ≠ none) (hcov : s.shared.Covers w c) :
    sh.Covers w c ∨ (s.performed id peer choice i k r sh).WillTell w c := by
  have hbind : s.shared.registry.clientToWorker.lookup c = some w → i.reroutes = true →
      sh.registry.clientToWorker.lookup c = some w := by
    intro hb hi
    rw [perform_binding hperform, hb]
    cases i with
    | registerHost h w => rfl
    | join x code => rfl
    | cleanupPeer x => rfl
    | _ => cases hi
  rcases hcov with hb | ⟨route, hr, hw⟩
  · rcases binding_step hs hc hrep hpeer hprog hperform hrisk hreg hb with hk | hwill |
      ⟨w', rfl, hne⟩
    · exact Or.inl (Or.inl hk)
    · exact Or.inr hwill
    · obtain ⟨route, hr, hw⟩ := hkeep w hb hne hrisk
      refine Or.inl (Or.inr ⟨route, ?_, hw⟩)
      rw [perform_controllers hperform rfl, hr]
  · rcases route_step hs hrep hperform hr hw with hk | hwill | ⟨code, reg, rfl, hjoin, hne⟩ |
      ⟨w', rfl, hne⟩
    · exact Or.inl (Or.inr hk)
    · exact Or.inr hwill
    · subst hw
      exact Or.inl (Or.inl (hbind (hkeep reg route hjoin hr hne hrisk) rfl))
    · subst hw
      exact Or.inl (Or.inl (hbind (hkeep c route hr rfl hne hrisk) rfl))

theorem reported_performed (hi : Reported s) (hs : Sound cfg s) (hc : ContactInv s)
    (hrep : Reports i k) (hkeep : KeepsCover cfg s choice peer.handling i)
    (hpeer : s.peers id = some peer) (hprog : peer.prog = .op i k)
    (hperform : Shared.perform cfg choice s.shared i = some (r, sh)) :
    Reported (s.performed id peer choice i k r sh) := by
  intro w c hb hreg
  replace hreg : sh.registry.workers.lookup w ≠ none := hreg
  have howed : i ≠ tell w c → s.shared.registry.workers.lookup w ≠ none → s.WillTell w c →
      (s.performed id peer choice i k r sh).WillTell w c := fun hmiss hreg₀ hwill =>
    hwill.performed hpeer hprog (registeredReply_perform hs.queues hreg₀ hperform) hmiss
  rcases believes_perform hperform hb with hold | ⟨event, rfl, ha⟩
  · have hreg₀ := registered_performed hs hpeer hprog hperform (hc.believed w c hold) hreg
    have hmiss : i ≠ tell w c := by
      rintro rfl
      exact not_believes_tell hperform hb
    by_cases hwill : s.WillTell w c
    · exact Or.inr (howed hmiss hreg₀ hwill)
    · have hcov := (hi w c hold hreg₀).resolve_right hwill
      have hcov' := covers_performed hs hc hrep hkeep hpeer hprog hperform ⟨hold, hreg₀, hwill⟩ hreg
        hcov
      exact hcov'
  · -- `c` is announced by its own handler
    have hid := announces_own (hs.tasks.owned hpeer hprog) rfl ha
    subst hid
    have hmiss : Op.send w event ≠ tell w c := by
      rintro ⟨⟩
      cases ha
    have hregistry : sh.registry = s.shared.registry := by cases hperform; rfl
    have hcontrollers : sh.controllers = s.shared.controllers := by cases hperform; rfl
    rw [hregistry] at hreg
    have hcov : s.shared.Covers w c ∨ s.WillTell w c := by
      by_cases hj : ∃ code, peer.handling = some (.controllerJoin code)
      · obtain ⟨code, hj⟩ := hj
        exact hkeep c code hj ha hreg
      · obtain ⟨g, hg, hwp⟩ := hc.tasks c peer hpeer
        rw [hprog] at hwp
        have hbound := (hwp.1 ha).2 fun code he => hj ⟨code, he⟩
        exact Or.inl (Or.inl ((hg.bound w hbound).2.resolve_right hreg))
    rcases hcov with hcov | hwill
    · refine Or.inl ?_
      show sh.Covers w c
      unfold Shared.Covers
      rw [hregistry, hcontrollers]
      exact hcov
    · exact Or.inr (howed hmiss hreg hwill)

end Advance

theorem reported_run {cfg : Config} {as : List ServerAction} {s : Server}
    (h : RunWhen (NoOverwrite cfg) (Server.step cfg) Server.init as s) : Reported s := by
  refine h.relative (I := Reported) (fun w c hb => by cases hb) fun as s a s' hr hi hok hs => ?_
  cases step_cases hs with
  | spawn id peer log hsp =>
    intro w c hb hreg
    exact (hi w c hb hreg).imp (fun hcov => hcov) fun hwill => hwill.spawn hsp
  | advance id peer choice i k r sh hpeer hprog hnow hperform =>
    exact reported_performed hi (sound_run hr) (contactInv_run hr) (reports_run hr hpeer hprog)
      (hok peer i k hpeer hprog) hpeer hprog hperform
  | rehash registry controllers hreg hc =>
    intro w c hb hw
    refine (hi w c hb ?_).imp ?_ fun hwill => hwill
    · rw [← hreg.workers.lookup]
      exact hw
    · unfold Shared.Covers
      rw [hreg.clientToWorker.lookup, hc.2.2.lookup]
      exact fun hcov => hcov

/-! ## The result -/

def Server.Connected (s : Server) (id : String) (role : PeerRole) : Prop :=
  ∃ peer, s.peers id = some peer ∧ peer.role = role ∧ peer.isOpen = true

/-- Every worker that has registered is registered while its socket is open. -/
def OpenRegistered (s : Server) : Prop :=
  ∀ w, s.Connected w .worker → Met w s.log → s.shared.registry.workers.lookup w ≠ none

theorem openRegistered_spawn {cfg : Config} {s : Server} {a : ServerAction} {id : String}
    {peer : Peer} {log : List ServerEvent} (hi : OpenRegistered s) (hm : MetInv cfg s)
    (h : Spawns cfg s a id peer log) :
    OpenRegistered { s.setPeer id peer with log := log } := by
  rintro w ⟨now, hnow, hrole, hopen⟩ hmet
  replace hmet : Met w s.log := (h.met_iff w).mp hmet
  rw [peers_setPeer] at hnow
  split at hnow
  · next hw =>
    cases hnow
    subst hw
    cases h with
    | connect role hnew => exact absurd hmet (hm.unknown w hnew)
    | receive old req hold ho _ => exact hi w ⟨old, hold, hrole, ho⟩ hmet
    | disconnect old hold _ _ => cases hopen
  · exact hi w ⟨now, hnow, hrole, hopen⟩ hmet

theorem openRegistered_performed {cfg : Config} {s : Server} {id : String} {peer : Peer}
    {choice : Choice} {i : Op} {k : i.Reply → ServerM Unit} {r : i.Reply} {sh : Shared}
    (hi : OpenRegistered s) (hown : i.OwnedBy peer.role id peer.isOpen peer.handling)
    (hpeer : s.peers id = some peer)
    (hperform : Shared.perform cfg choice s.shared i = some (r, sh)) :
    OpenRegistered (s.performed id peer choice i k r sh) := by
  rintro w ⟨now, hnow, hrole, hopen⟩ hmet
  have hconnected : s.Connected w .worker := by
    rw [peers_performed] at hnow
    split at hnow
    · next hw => cases hnow; exact ⟨peer, hw ▸ hpeer, hrole, hopen⟩
    · exact ⟨now, hnow, hrole, hopen⟩
  have hold : (∀ tx, i ≠ .registerWorker w tx) →
      s.shared.registry.workers.lookup w ≠ none := by
    intro hne
    refine hi w hconnected ((met_cons.mp hmet).resolve_left ?_)
    rintro ⟨_, tx, he⟩
    cases he
    exact hne tx rfl
  show sh.registry.workers.lookup w ≠ none
  rw [perform_worker hperform]
  cases i with
  | registerWorker w' tx =>
    simp only [Op.workerAfter]
    split
    · simp
    · next hw =>
      refine hold ?_
      rintro tx' ⟨⟩
      exact hw rfl
  | unregisterWorker w' =>
    simp only [Op.workerAfter]
    split
    · -- a worker is taken out when its socket has ended
      next hw =>
      obtain ⟨peer', hpeer', -, ho⟩ := hconnected
      rw [hw.trans hown.2.2, hpeer] at hpeer'
      cases hpeer'
      rw [hown.1] at ho
      cases ho
    · exact hold fun tx he => by cases he
  | _ => exact hold fun tx he => by cases he

theorem openRegistered_run {cfg : Config} {as : List ServerAction} {s : Server}
    (h : Run (Server.step cfg) Server.init as s) : OpenRegistered s := by
  refine h.relative (I := OpenRegistered) (fun w ⟨_, hp, _⟩ => by cases hp)
    fun as s a s' hr hi _ hs => ?_
  cases step_cases hs with
  | spawn id peer log hsp => exact openRegistered_spawn hi (metInv_run hr) hsp
  | advance id peer choice i k r sh hpeer hprog hnow hperform =>
    exact openRegistered_performed hi ((taskInv_run hr).owned hpeer hprog) hpeer hperform
  | rehash registry controllers hreg hc =>
    intro w hconnected hmet
    show registry.workers.lookup w ≠ none
    rw [hreg.workers.lookup]
    exact hi w hconnected hmet

/-- **No orphan session.**  In a run that overwrites no cover, whenever no handler or cleanup is
in progress: a client that a connected worker believes in is connected, and the worker is its
binding or the worker of its route. -/
theorem no_orphan {cfg : Config} {as : List ServerAction} {s : Server}
    (h : RunWhen (NoOverwrite cfg) (Server.step cfg) Server.init as s) (hq : s.Quiescent)
    {w c : String} (hw : s.Connected w .worker) (hb : s.shared.Believes w c) :
    s.Connected c .browser ∧ s.shared.Covers w c := by
  obtain ⟨worker, hworker, hrole, -⟩ := id hw
  have hmet := (metInv_run h.run).idle hworker (hq w worker hworker) hrole
  have hreg := openRegistered_run h.run w hw hmet
  have hcov := (reported_run h w c hb hreg).resolve_right hq.not_owes
  refine ⟨?_, hcov⟩
  have hopen : ∀ {last : Op}, Attended s c last → s.Connected c .browser := by
    rintro last ⟨peer, hpeer, hrole, ho⟩
    refine ⟨peer, hpeer, hrole, ho.resolve_right fun hwill => ?_⟩
    rw [hq c peer hpeer] at hwill
    exact hwill
  rcases hcov with hbind | ⟨route, hroute, -⟩
  · exact hopen (attended_binding h.run (by rw [hbind]; simp))
  · exact hopen (attended_route h.run (by rw [hroute]; simp))

instance (sh : Shared) (w c : String) : Decidable (sh.Believes w c) :=
  inferInstanceAs (Decidable (_ = _))

instance (sh : Shared) (w c : String) : Decidable (sh.Covers w c) :=
  decidable_of_iff (sh.registry.clientToWorker.lookup c = some w ∨
    (sh.controllers.controllerToHost.lookup c).map ControllerRoute.workerId = some w)
    (or_congr Iff.rfl Option.map_eq_some_iff)

instance (s : Server) (id : String) (role : PeerRole) : Decidable (s.Connected id role) :=
  decidable_of_iff ((s.peers id).any (fun peer => peer.role = role ∧ peer.isOpen = true) = true)
    (by simp [Option.any_eq_true, Server.Connected])

/-- A step that overwrites nothing and sends a `joinRoom` along the route, as far as a look at the
state tells. -/
def calm (s : Server) : ServerAction → Bool
  | .advance id _ =>
    match s.peers id with
    | some ⟨_, _, handling, .op i _⟩ =>
      match i with
      | .bindClientToWorker c _ => (s.shared.registry.clientToWorker.lookup c).isNone
      | .join c _ => (s.shared.controllers.controllerToHost.lookup c).isNone
      | .registerHost _ _ => s.shared.controllers.controllerToHost.entries.isEmpty
      | .send w event =>
        match handling, event.announces with
        | some (.controllerJoin _), some c => decide (s.shared.Covers w c)
        | _, _ => true
      | _ => true
    | _ => true
  | _ => true

theorem noOverwrite_of_calm (cfg : Config) (s : Server) (a : ServerAction) (h : calm s a = true) :
    NoOverwrite cfg s a := by
  cases a with
  | advance id choice =>
    rintro ⟨role, isOpen, handling, prog⟩ i k hpeer rfl
    simp only [calm, hpeer] at h
    cases i with
    | bindClientToWorker c w =>
      intro old hold
      simp [hold] at h
    | join c code =>
      intro registration route _ hroute
      simp [hroute] at h
    | registerHost host w =>
      intro c route hroute
      rw [HashMap.lookup_eq_some, List.isEmpty_iff.mp h] at hroute
      cases hroute
    | send w event =>
      intro c code hcode ha _
      replace hcode : handling = some (.controllerJoin code) := hcode
      dsimp only at h
      rw [hcode, ha] at h
      exact Or.inl (of_decide_eq_true h)
    | _ => trivial
  | _ => trivial

/-- A browser hosts on a worker, and a phone joins it with the host's code. -/
def joinRun : List ServerAction :=
  .connect "worker" .worker :: advances "worker" 1 ++
    .connect "host" .browser :: advances "host" 5 ++
    .receive "host" ⟨"initwebrtc", none, some "worker"⟩ :: advances "host" 4 ++
    .receive "host" ⟨"controllerHost", none, some "worker"⟩ :: advances "host" 4 ++
    .connect "phone" .browser :: advances "phone" 5 ++
    .receive "phone" ⟨"controllerJoin", some "AAAAAA", none⟩ :: advances "phone" 7

theorem no_orphan_join : ∃ s, Run (Server.step plainConfig) Server.init joinRun s ∧
    s.shared.Believes "worker" "phone" ∧ s.Connected "phone" .browser ∧
    s.shared.Covers "worker" "phone" := by
  have heval : (execWhen (fun s a => calm s a = true) (Server.step plainConfig) Server.init
      joinRun).any (fun s => decide (s.Done joinRun ∧ s.Connected "worker" .worker ∧
        s.shared.Believes "worker" "phone")) = true := by decide +kernel
  obtain ⟨s, hrun, hdone, hw, hb⟩ := execWhen_any heval
  exact ⟨s, hrun.run, hb, no_orphan (hrun.mono (noOverwrite_of_calm plainConfig))
    (quiescent_of_done hrun.run hdone) hw hb⟩

/-- A browser starts a session on one worker and then on another, and ends none. -/
def rebindRun : List ServerAction :=
  .connect "worker-1" .worker :: advances "worker-1" 1 ++
    .connect "worker-2" .worker :: advances "worker-2" 1 ++
    .connect "browser" .browser :: advances "browser" 5 ++
    .receive "browser" ⟨"initwebrtc", none, some "worker-1"⟩ :: advances "browser" 4 ++
    .receive "browser" ⟨"initwebrtc", none, some "worker-2"⟩ :: advances "browser" 4

theorem no_orphan_fails : ∃ s, Run (Server.step plainConfig) Server.init rebindRun s ∧
    s.Quiescent ∧ s.Connected "worker-1" .worker ∧ s.shared.Believes "worker-1" "browser" ∧
    ¬ s.shared.Covers "worker-1" "browser" := by
  have heval : (execWhen (fun _ _ => True) (Server.step plainConfig) Server.init
      rebindRun).any (fun s => decide (s.Done rebindRun ∧ s.Connected "worker-1" .worker ∧
        s.shared.Believes "worker-1" "browser" ∧
        ¬ s.shared.Covers "worker-1" "browser")) = true := by decide +kernel
  obtain ⟨s, hrun, hdone, h⟩ := execWhen_any heval
  exact ⟨s, hrun, quiescent_of_done hrun hdone, h⟩

end CloudGame.Signal
