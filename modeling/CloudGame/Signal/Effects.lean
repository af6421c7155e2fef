import CloudGame.Signal.ControllerHistory
import CloudGame.Signal.Tasks

/-!
# What an operation does to the shared state

For each part of the state that the results about it follow, what an operation makes of it: the
binding of a client (`Op.bindingAfter`), the queue of a worker and of a client
(`Op.workerAfter`, `Op.clientAfter`), what is placed on a queue (`Op.placed`), and the route of a
controller (`perform_route`).

Three facts then hold in every run: the code maps of the directory are inverse to each other
(`linked_run`), a queue is registered under the id of its own connection (`ownQueues_run`), and a
worker that anyone knows has registered and does so once (`metInv_run`).
-/

namespace CloudGame.Signal

open CloudGame.Lib

namespace Op

/-- The worker client `c` is bound to after the operation, from the one before. -/
def bindingAfter (c : String) (before : Option String) : Op → Option String
  | .bindClientToWorker c' w => if c = c' then some w else before
  | .unbindClient c' => if c = c' then none else before
  | .unregisterClient c' => if c = c' then none else before
  | .unregisterWorker w => if before = some w then none else before
  | _ => before

/-- The queue registered for worker `w` after the operation. -/
def workerAfter (w : String) (before : Option Tx) : Op → Option Tx
  | .registerWorker w' tx => if w = w' then some tx else before
  | .unregisterWorker w' => if w = w' then none else before
  | _ => before

/-- The queue registered for client `c` after the operation; `bound` is the worker it is bound
to. -/
def clientAfter (c : String) (bound : Option String) (before : Option Tx) : Op → Option Tx
  | .registerClient c' tx => if c = c' then some tx else before
  | .unregisterClient c' => if c = c' then none else before
  | .unregisterWorker w => if bound = some w then none else before
  | _ => before

/-- What the operation places on the queue `tx`. -/
def placed (tx : Tx) : Op → List OutboundEvent
  | .send tx' event => if tx = tx' then [event] else []
  | _ => []

end Op

section Perform

variable {cfg : Config} {choice : Choice} {sh sh' : Shared} {i : Op} {r : i.Reply}

/-- A new game of a worker changes the rooms at most. -/
theorem perform_setWorkerGame {w : String} {game : Option String} {changed : Bool}
    (h : Shared.perform cfg choice sh (.setWorkerGame w game) = some (changed, sh')) :
    ∃ rooms, sh' = sh.setRegistry { sh.registry with gameRooms := rooms } := by
  simp only [Shared.perform, Option.some.injEq, Prod.mk.injEq] at h
  obtain ⟨-, rfl⟩ := h
  rcases RegistryState.setWorkerGame_cases cfg.caseMap sh.registry w game with he | ⟨name, he⟩
  · exact ⟨sh.registry.gameRooms, by rw [he]⟩
  · exact ⟨sh.registry.gameRooms.insert w name, by rw [he]⟩

theorem perform_registerHost {host w code : String}
    (h : Shared.perform cfg choice sh (.registerHost host w) = some (code, sh')) :
    ∃ controllers, sh' = sh.setControllers controllers := by
  obtain ⟨out, -, he⟩ := Option.map_eq_some_iff.mp h
  cases he
  exact ⟨out.2, rfl⟩

theorem perform_binding (h : Shared.perform cfg choice sh i = some (r, sh')) (c : String) :
    sh'.registry.clientToWorker.lookup c =
      i.bindingAfter c (sh.registry.clientToWorker.lookup c) := by
  cases i with
  | registerHost host w =>
    obtain ⟨controllers, rfl⟩ := perform_registerHost h
    rfl
  | setWorkerGame w game =>
    obtain ⟨rooms, rfl⟩ := perform_setWorkerGame h
    rfl
  | unregisterClient c' => cases h; exact HashMap.lookup_erase_eq_ite _ _ _
  | unregisterWorker w => cases h; exact RegistryState.lookup_clientToWorker_unregisterWorker _ _ _
  | bindClientToWorker c' w => cases h; exact HashMap.lookup_insert_eq_ite _ _ _ _
  | unbindClient c' => cases h; exact HashMap.lookup_erase_eq_ite _ _ _
  | _ => cases h; rfl

theorem perform_worker (h : Shared.perform cfg choice sh i = some (r, sh')) (w : String) :
    sh'.registry.workers.lookup w = i.workerAfter w (sh.registry.workers.lookup w) := by
  cases i with
  | registerHost host w =>
    obtain ⟨controllers, rfl⟩ := perform_registerHost h
    rfl
  | setWorkerGame w game =>
    obtain ⟨rooms, rfl⟩ := perform_setWorkerGame h
    rfl
  | registerWorker w' tx => cases h; exact HashMap.lookup_insert_eq_ite _ _ _ _
  | unregisterWorker w' => cases h; exact HashMap.lookup_erase_eq_ite _ _ _
  | _ => cases h; rfl

theorem perform_client (h : Shared.perform cfg choice sh i = some (r, sh')) (c : String) :
    sh'.registry.clients.lookup c =
      i.clientAfter c (sh.registry.clientToWorker.lookup c) (sh.registry.clients.lookup c) := by
  cases i with
  | registerHost host w =>
    obtain ⟨controllers, rfl⟩ := perform_registerHost h
    rfl
  | setWorkerGame w game =>
    obtain ⟨rooms, rfl⟩ := perform_setWorkerGame h
    rfl
  | registerClient c' tx => cases h; exact HashMap.lookup_insert_eq_ite _ _ _ _
  | unregisterClient c' => cases h; exact HashMap.lookup_erase_eq_ite _ _ _
  | unregisterWorker w => cases h; exact RegistryState.lookup_clients_unregisterWorker _ _ _
  | _ => cases h; rfl

theorem perform_queues (h : Shared.perform cfg choice sh i = some (r, sh')) (tx : Tx) :
    sh'.queues tx = i.placed tx ++ sh.queues tx := by
  cases i with
  | registerHost host w =>
    obtain ⟨controllers, rfl⟩ := perform_registerHost h
    rfl
  | setWorkerGame w game =>
    obtain ⟨rooms, rfl⟩ := perform_setWorkerGame h
    rfl
  | send tx' event =>
    cases h
    show Function.update sh.queues tx' (event :: sh.queues tx') tx = _
    rw [Function.update_apply]
    simp only [Op.placed]
    split
    · next he => subst he; rfl
    · rfl
  | _ => cases h; rfl

/-! ## The controller directory -/

theorem perform_linked (hl : sh.controllers.Linked)
    (h : Shared.perform cfg choice sh i = some (r, sh')) : sh'.controllers.Linked := by
  cases i with
  | registerHost host w =>
    obtain ⟨⟨code, controllers⟩, hr, he⟩ := Option.map_eq_some_iff.mp h
    cases he
    exact (ControllerState.registerHost_registered hl hr).linked
  | join c code =>
    cases h
    cases hj : sh.controllers.join cfg.caseMap c code choice.now with
    | mk result controllers =>
      cases result with
      | ok target => exact (ControllerState.join_ok hl hj).1
      | error e => exact (ControllerState.join_error hl hj).1
  | cleanupPeer x => cases h; exact ControllerState.cleanupPeer_linked hl x
  | setWorkerGame w game =>
    obtain ⟨rooms, rfl⟩ := perform_setWorkerGame h
    exact hl
  | _ => cases h; exact hl

/-- The operations that change routes. -/
def Op.reroutes : Op → Bool
  | .registerHost _ _ => true
  | .join _ _ => true
  | .cleanupPeer _ => true
  | _ => false

theorem perform_controllers (h : Shared.perform cfg choice sh i = some (r, sh'))
    (hi : i.reroutes = false) : sh'.controllers = sh.controllers := by
  cases i with
  | registerHost host w => cases hi
  | join c code => cases hi
  | cleanupPeer x => cases hi
  | setWorkerGame w game =>
    obtain ⟨rooms, rfl⟩ := perform_setWorkerGame h
    rfl
  | _ => cases h; rfl

end Perform

theorem linked_run {cfg : Config} {as : List ServerAction} {s : Server}
    (h : Run (Server.step cfg) Server.init as s) : s.shared.controllers.Linked := by
  refine h.invariant (I := fun s => s.shared.controllers.Linked) ControllerState.linked_empty
    fun s a s' hl _ hs => ?_
  cases step_cases hs with
  | spawn id peer log hsp => exact hl
  | advance id peer choice i k r sh hpeer hprog hnow hperform =>
    have hl' := perform_linked hl hperform
    exact hl'
  | rehash registry controllers hr hc => exact hl.rehashed hc

/-! ## What becomes of a route -/

/-- The registration a controller's code leads to. -/
def ControllerState.registrationOf (cm : CaseMap) (s : ControllerState) (code : String)
    (now : Nat) : Option HostRegistration :=
  (s.pruneExpired now).codeToHost.lookup (cm.toUppercase (trim code))

section Routes

variable {cfg : Config} {choice : Choice} {sh sh' : Shared} {i : Op} {r : i.Reply} {c : String}
  {route : ControllerRoute}

/-- A cleanup leaves a route as it is, or removes it and names its worker and controller. -/
theorem cleanupPeer_route {s : ControllerState} (hl : s.Linked) (x : String)
    (hr : s.controllerToHost.lookup c = some route) :
    (s.cleanupPeer x).2.controllerToHost.lookup c = some route ∨
      ((s.cleanupPeer x).2.controllerToHost.lookup c = none ∧
        (route.workerId, c) ∈ (s.cleanupPeer x).1.workerTerminations) := by
  cases hx : s.controllerToHost.lookup x with
  | some own =>
    rw [ControllerState.cleanupPeer_routed hx]
    show (s.controllerToHost.erase x).lookup c = _ ∨ (s.controllerToHost.erase x).lookup c = _ ∧ _
    rw [HashMap.lookup_erase_eq_ite]
    by_cases hc : c = x
    · subst hc
      rw [hr] at hx
      cases hx
      exact Or.inr ⟨if_pos rfl, List.mem_singleton.mpr rfl⟩
    · exact Or.inl (by rw [if_neg hc, hr])
  | none =>
    rw [(ControllerState.cleanupPeer_unrouted hl hx).2.2.2 c, hr, Option.filter_some]
    by_cases hh : route.hostClientId = x
    · refine Or.inr ⟨by simp [hh], ?_⟩
      exact ((cleanupComplete_unrouted hl hx).terminated.2 _ _).mpr ⟨route, hr, rfl, Or.inl hh⟩
    · exact Or.inl (by simp [hh])

theorem registrationOf_of_join {cm : CaseMap} {s s' : ControllerState} {x code : String}
    {now : Nat} {target : ControllerJoinTarget} (hj : s.join cm x code now = (.ok target, s')) :
    ∃ registration, s.registrationOf cm code now = some registration ∧
      target = ⟨registration.hostClientId, registration.workerId⟩ := by
  unfold ControllerState.join at hj
  dsimp only at hj
  split at hj
  · cases hj
  · split at hj
    · cases hj
    · next registration hr =>
      simp only [Prod.mk.injEq, Except.ok.injEq] at hj
      exact ⟨registration, hr, hj.1.symm⟩

/-- What an operation makes of the route of `c`: it stays, or `c` joins anew, or its host
registers again, or a cleanup removes it and says so. -/
theorem perform_route (hl : sh.controllers.Linked)
    (h : Shared.perform cfg choice sh i = some (r, sh'))
    (hr : sh.controllers.controllerToHost.lookup c = some route) :
    sh'.controllers.controllerToHost.lookup c = some route ∨
    (∃ code registration, i = .join c code ∧
      sh.controllers.registrationOf cfg.caseMap code choice.now = some registration ∧
      sh'.controllers.controllerToHost.lookup c =
        some ⟨registration.hostClientId, registration.workerId⟩) ∨
    (∃ w, i = .registerHost route.hostClientId w ∧
      sh'.controllers.controllerToHost.lookup c = some { route with workerId := w }) ∨
    ∃ x, i = .cleanupPeer x ∧
      (route.workerId, c) ∈ (sh.controllers.cleanupPeer x).1.workerTerminations := by
  cases i with
  | registerHost host w =>
    obtain ⟨⟨code, controllers⟩, hreg, he⟩ := Option.map_eq_some_iff.mp h
    cases he
    have hroute := (ControllerState.registerHost_registered hl hreg).routes c
    rw [hr, Option.map_some] at hroute
    by_cases hh : route.hostClientId = host
    · refine Or.inr (Or.inr (Or.inl ⟨w, by rw [hh], ?_⟩))
      show controllers.controllerToHost.lookup c = _
      rw [hroute, ControllerState.reroute, if_pos hh]
    · refine Or.inl ?_
      show controllers.controllerToHost.lookup c = _
      rw [hroute, ControllerState.reroute, if_neg hh]
  | join x code =>
    cases h
    show (sh.controllers.join cfg.caseMap x code choice.now).2.controllerToHost.lookup c = _ ∨ _
    cases hj : sh.controllers.join cfg.caseMap x code choice.now with
    | mk result controllers =>
      cases result with
      | error e =>
        rw [(ControllerState.join_error hl hj).2.1]
        exact Or.inl hr
      | ok target =>
        have hroute := (ControllerState.join_ok hl hj).2.2.2 c
        by_cases hc : c = x
        · obtain ⟨registration, hreg, rfl⟩ := registrationOf_of_join hj
          refine Or.inr (Or.inl ⟨code, registration, by rw [hc], hreg, ?_⟩)
          show controllers.controllerToHost.lookup c = _
          rw [hroute, if_pos hc]
        · exact Or.inl (by rw [hroute, if_neg hc, hr])
  | cleanupPeer x =>
    cases h
    rcases cleanupPeer_route hl x hr with hkeep | ⟨-, hmem⟩
    · exact Or.inl hkeep
    · exact Or.inr (Or.inr (Or.inr ⟨x, rfl, hmem⟩))
  | _ =>
    rw [perform_controllers h rfl]
    exact Or.inl hr

/-- A route was there, or its host registers now with its worker, or its controller joins now with a
code that has not expired. -/
theorem perform_route_from (hl : sh.controllers.Linked)
    (h : Shared.perform cfg choice sh i = some (r, sh'))
    (hr : sh'.controllers.controllerToHost.lookup c = some route) :
    sh.controllers.controllerToHost.lookup c = some route ∨
    (i = .registerHost route.hostClientId route.workerId ∧ ∃ old,
      sh.controllers.controllerToHost.lookup c = some old ∧
        old.hostClientId = route.hostClientId) ∨
    ∃ code k registration, i = .join c code ∧ Shared.perform cfg choice sh (.join c code) =
        some (.ok ⟨route.hostClientId, route.workerId⟩, sh') ∧
      sh.controllers.codeToHost.lookup k = some registration ∧
      choice.now < registration.expiresAt ∧
      route = ⟨registration.hostClientId, registration.workerId⟩ := by
  cases i with
  | registerHost host w =>
    obtain ⟨⟨code, controllers⟩, hreg, he⟩ := Option.map_eq_some_iff.mp h
    cases he
    replace hr : controllers.controllerToHost.lookup c = some route := hr
    rw [(ControllerState.registerHost_registered hl hreg).routes c] at hr
    obtain ⟨old, hold, rfl⟩ := Option.map_eq_some_iff.mp hr
    by_cases hh : old.hostClientId = host
    · have hnew : ControllerState.reroute host w old = { old with workerId := w } := if_pos hh
      rw [hnew]
      exact Or.inr (Or.inl ⟨by rw [hh], old, hold, rfl⟩)
    · have hsame : ControllerState.reroute host w old = old := if_neg hh
      rw [hsame]
      exact Or.inl hold
  | join x code =>
    have hperform := h
    cases h
    replace hr : (sh.controllers.join cfg.caseMap x code choice.now).2.controllerToHost.lookup c =
      some route := hr
    cases hj : sh.controllers.join cfg.caseMap x code choice.now with
    | mk result controllers =>
      rw [hj] at hr hperform
      cases result with
      | error e =>
        rw [(ControllerState.join_error hl hj).2.1] at hr
        exact Or.inl hr
      | ok target =>
        obtain ⟨-, ⟨k, registration, hk, hlive, rfl⟩, -, hroutes⟩ := ControllerState.join_ok hl hj
        rw [hroutes c] at hr
        split at hr
        · next hc =>
          cases hr
          subst hc
          exact Or.inr (Or.inr ⟨code, k, registration, rfl, hperform, hk, hlive, rfl⟩)
        · exact Or.inl hr
  | cleanupPeer x =>
    cases h
    exact Or.inl (ControllerState.cleanupPeer_routes_old hl hr).2
  | _ =>
    rw [perform_controllers h rfl] at hr
    exact Or.inl hr

/-- A route comes from a join. -/
theorem perform_route_new (hl : sh.controllers.Linked)
    (h : Shared.perform cfg choice sh i = some (r, sh'))
    (hnew : sh'.controllers.controllerToHost.lookup c ≠ none) :
    sh.controllers.controllerToHost.lookup c ≠ none ∨ ∃ code, i = .join c code := by
  obtain ⟨route, hr⟩ := Option.ne_none_iff_exists'.mp hnew
  rcases perform_route_from hl h hr with hsame | ⟨-, old, hold, -⟩ | ⟨code, _, _, hi, _⟩
  · exact Or.inl (by rw [hsame]; simp)
  · exact Or.inl (by rw [hold]; simp)
  · exact Or.inr ⟨code, hi⟩

/-- A registration was there, or its host registers now. -/
theorem perform_code {k : String} {registration : HostRegistration} (hl : sh.controllers.Linked)
    (h : Shared.perform cfg choice sh i = some (r, sh'))
    (hk : sh'.controllers.codeToHost.lookup k = some registration) :
    sh.controllers.codeToHost.lookup k = some registration ∨
      i = .registerHost registration.hostClientId registration.workerId := by
  cases i with
  | registerHost host w =>
    obtain ⟨⟨code, controllers⟩, hreg, he⟩ := Option.map_eq_some_iff.mp h
    cases he
    replace hk : controllers.codeToHost.lookup k = some registration := hk
    rw [(ControllerState.registerHost_registered hl hreg).codes k] at hk
    split at hk
    · cases hk
      exact Or.inr rfl
    · exact Or.inl (Option.filter_eq_some_iff.mp hk).1
  | join x code =>
    cases h
    replace hk : (sh.controllers.join cfg.caseMap x code choice.now).2.codeToHost.lookup k =
      some registration := hk
    cases hj : sh.controllers.join cfg.caseMap x code choice.now with
    | mk result controllers =>
      rw [hj] at hk
      cases result with
      | ok target =>
        rw [(ControllerState.join_ok hl hj).2.2.1 k] at hk
        exact Or.inl (Option.filter_eq_some_iff.mp hk).1
      | error e => exact Or.inl ((ControllerState.join_error hl hj).2.2 k registration hk)
  | cleanupPeer x =>
    cases h
    exact Or.inl (ControllerState.cleanupPeer_codes_old hl hk)
  | _ =>
    rw [perform_controllers h rfl] at hk
    exact Or.inl hk

end Routes

/-! ## A queue is registered under the id of its connection -/

structure OwnQueues (s : Server) : Prop where
  workers : ∀ w tx, s.shared.registry.workers.lookup w = some tx → tx = w
  clients : ∀ c tx, s.shared.registry.clients.lookup c = some tx → tx = c

theorem ownQueues_performed {cfg : Config} {s : Server} {id : String} {peer : Peer}
    {choice : Choice} {i : Op} {k : i.Reply → ServerM Unit} {r : i.Reply} {sh : Shared}
    (hi : OwnQueues s) (hown : i.OwnedBy peer.role id peer.isOpen peer.handling)
    (hperform : Shared.perform cfg choice s.shared i = some (r, sh)) :
    OwnQueues (s.performed id peer choice i k r sh) := by
  constructor
  · intro w tx hw
    replace hw : sh.registry.workers.lookup w = some tx := hw
    rw [perform_worker hperform] at hw
    cases i with
    | registerWorker w' tx' =>
      simp only [Op.workerAfter] at hw
      split at hw
      · next he => cases hw; rw [he, hown.2.2.1, hown.2.2.2]
      · exact hi.workers w tx hw
    | unregisterWorker w' =>
      simp only [Op.workerAfter] at hw
      split at hw
      · cases hw
      · exact hi.workers w tx hw
    | _ => exact hi.workers w tx hw
  · intro c tx hc
    replace hc : sh.registry.clients.lookup c = some tx := hc
    rw [perform_client hperform] at hc
    cases i with
    | registerClient c' tx' =>
      simp only [Op.clientAfter] at hc
      split at hc
      · next he => cases hc; rw [he, hown.2.2.1, hown.2.2.2]
      · exact hi.clients c tx hc
    | unregisterClient c' =>
      simp only [Op.clientAfter] at hc
      split at hc
      · cases hc
      · exact hi.clients c tx hc
    | unregisterWorker w =>
      simp only [Op.clientAfter] at hc
      split at hc
      · cases hc
      · exact hi.clients c tx hc
    | _ => exact hi.clients c tx hc

theorem ownQueues_run {cfg : Config} {as : List ServerAction} {s : Server}
    (h : Run (Server.step cfg) Server.init as s) : OwnQueues s := by
  refine h.relative (I := OwnQueues) ⟨?_, ?_⟩ fun as s a s' hr hi _ hs => ?_
  · intro w tx hw
    cases hw
  · intro c tx hc
    cases hc
  · cases step_cases hs with
    | spawn id peer log hsp => exact ⟨hi.workers, hi.clients⟩
    | advance id peer choice i k r sh hpeer hprog hnow hperform =>
      exact ownQueues_performed hi ((taskInv_run hr).owned hpeer hprog) hperform
    | rehash registry controllers hreg hc =>
      refine ⟨fun w tx hw => hi.workers w tx ?_, fun c tx hc => hi.clients c tx ?_⟩
      · rw [← hreg.workers.lookup]; exact hw
      · rw [← hreg.clients.lookup]; exact hc

/-! ## Registration comes first -/

/-- The worker has registered. -/
def Met (w : String) (log : List ServerEvent) : Prop :=
  ∃ handling tx, .performed w handling (.registerWorker w tx) () ∈ log

def Op.isRegistration : Op → Bool
  | .registerClient _ _ => true
  | .registerWorker _ _ => true
  | _ => false

/-- The task of a worker is about to register it, or did. -/
structure MetInv (cfg : Config) (s : Server) : Prop where
  unknown : ∀ w, s.peers w = none → ¬ Met w s.log
  known : ∀ w peer, s.peers w = some peer →
    (peer.prog = startProg cfg peer.role w ∧ ¬ Met w s.log) ∨
    (peer.prog.All (fun i => i.isRegistration = false) ∧ (peer.role = .worker → Met w s.log))
  registered : ∀ w tx, s.shared.registry.workers.lookup w = some tx → Met w s.log

theorem met_cons {w : String} {log : List ServerEvent} {e : ServerEvent} :
    Met w (e :: log) ↔
      (∃ handling tx, e = .performed w handling (.registerWorker w tx) ()) ∨ Met w log := by
  simp only [Met, List.mem_cons]
  constructor
  · rintro ⟨handling, tx, he | hm⟩
    · exact Or.inl ⟨handling, tx, he.symm⟩
    · exact Or.inr ⟨handling, tx, hm⟩
  · rintro (⟨handling, tx, he⟩ | ⟨handling, tx, hm⟩)
    · exact ⟨handling, tx, Or.inl he.symm⟩
    · exact ⟨handling, tx, Or.inr hm⟩

theorem Met.performed {s : Server} {w id : String} {peer : Peer} {choice : Choice} {i : Op}
    {k : i.Reply → ServerM Unit} {r : i.Reply} {sh : Shared} (h : Met w s.log) :
    Met w (s.performed id peer choice i k r sh).log := by
  obtain ⟨handling, tx, hmem⟩ := h
  exact ⟨handling, tx, log_performed s id peer choice i k r sh _ hmem⟩

theorem notRegistration_of_later {role : PeerRole} {id : String} {isOpen : Bool}
    {handling : Option BrowserCommand} (i : Op) (h : i.Later role id isOpen handling) :
    i.isRegistration = false := by
  have hhead := h.2
  cases i with
  | registerClient c tx => cases hhead
  | registerWorker w tx => cases hhead
  | _ => rfl

/-- What a program with heads in front registers, it registers first. -/
theorem notRegistration_of_headed {role : PeerRole} {id : String} {isOpen : Bool}
    {handling : Option BrowserCommand} {p : ServerM Unit} (h : Headed role id isOpen handling p)
    (hhead : ∀ i k, p = .op i k → i.isRegistration = false) :
    p.All (fun i => i.isRegistration = false) := by
  cases p with
  | ret a => trivial
  | op i k => exact ⟨hhead i k rfl, fun r => (h.2 r).mono notRegistration_of_later⟩

theorem notRegistration_messageProg (cfg : Config) (role : PeerRole) (id : String)
    (req : SignalMessage) :
    (messageProg cfg role id req).All (fun i => i.isRegistration = false) := by
  cases role with
  | browser => exact (later_handleBrowserMessage cfg req).mono notRegistration_of_later
  | worker =>
    refine notRegistration_of_headed (headed_messageProg cfg req) fun i k he => ?_
    replace he : handleWorkerMessage id req = .op i k := he
    unfold handleWorkerMessage at he
    split at he
    · next cmd hcmd => cases cmd <;> cases he <;> rfl
    · cases he

theorem notRegistration_cleanupProg (role : PeerRole) (id : String) :
    (cleanupProg role id).All (fun i => i.isRegistration = false) := by
  have hheaded : Headed role id false none (cleanupProg role id) := headed_cleanupProg
  refine notRegistration_of_headed hheaded fun i k he => ?_
  cases role <;> cases he <;> rfl

theorem startProg_ne_ret (cfg : Config) (role : PeerRole) (id : String) :
    startProg cfg role id ≠ .ret () := by
  intro h
  cases role <;> cases h

/-- An idle task has registered. -/
theorem MetInv.idle {cfg : Config} {s : Server} (hi : MetInv cfg s) {w : String} {peer : Peer}
    (hpeer : s.peers w = some peer) (hidle : peer.prog = .ret ()) (hrole : peer.role = .worker) :
    Met w s.log := by
  rcases hi.known w peer hpeer with ⟨hstart, -⟩ | ⟨-, hmet⟩
  · rw [hidle] at hstart
    exact absurd hstart.symm (startProg_ne_ret cfg peer.role w)
  · exact hmet hrole

/-- No worker registers by starting a program. -/
theorem Spawns.met_iff {cfg : Config} {s : Server} {a : ServerAction} {id : String} {peer : Peer}
    {log : List ServerEvent} (h : Spawns cfg s a id peer log) (w : String) :
    Met w log ↔ Met w s.log := by
  simp only [Met, h.performed_mem_iff]

theorem metInv_spawn {cfg : Config} {s : Server} {a : ServerAction} {id : String} {peer : Peer}
    {log : List ServerEvent} (hi : MetInv cfg s) (h : Spawns cfg s a id peer log) :
    MetInv cfg { s.setPeer id peer with log := log } := by
  refine ⟨fun w hw => ?_, fun w peer' hp => ?_,
    fun w tx hw => (h.met_iff w).mpr (hi.registered w tx hw)⟩
  · rw [peers_setPeer] at hw
    split at hw
    · cases hw
    · exact (h.met_iff w).not.mpr (hi.unknown w hw)
  · show (_ ∧ ¬ Met w log) ∨ (_ ∧ (_ → Met w log))
    rw [h.met_iff]
    rw [peers_setPeer] at hp
    split at hp
    · next he =>
      cases hp
      subst he
      cases h with
      | connect role hnew => exact Or.inl ⟨rfl, hi.unknown w hnew⟩
      | receive old req hold _ hidle =>
        exact Or.inr ⟨notRegistration_messageProg cfg old.role w req, fun hrole =>
          hi.idle hold hidle hrole⟩
      | disconnect old hold _ hidle =>
        exact Or.inr ⟨notRegistration_cleanupProg old.role w, fun hrole =>
          hi.idle hold hidle hrole⟩
    · exact hi.known w peer' hp

section Advance

variable {cfg : Config} {s : Server} {id : String} {peer : Peer} {choice : Choice} {i : Op}
  {k : i.Reply → ServerM Unit} {r : i.Reply} {sh : Shared}

/-- A task that registers its worker is at its start, and nobody has met the worker. -/
theorem MetInv.fresh (hi : MetInv cfg s) (hpeer : s.peers id = some peer)
    (hprog : peer.prog = .op i k) (hreg : i.isRegistration = true) :
    peer.prog = startProg cfg peer.role id ∧ ¬ Met id s.log := by
  rcases hi.known id peer hpeer with h | ⟨hall, -⟩
  · exact h
  · rw [hprog] at hall
    rw [hall.1] at hreg
    cases hreg

/-- No task registers after its first operation. -/
theorem MetInv.rest (hi : MetInv cfg s) (hpeer : s.peers id = some peer)
    (hprog : peer.prog = .op i k) (r : i.Reply) :
    (k r).All (fun i => i.isRegistration = false) := by
  rcases hi.known id peer hpeer with ⟨hstart, -⟩ | ⟨hall, -⟩
  · have hheaded : Headed peer.role id true none (startProg cfg peer.role id) :=
      headed_startProg cfg
    rw [← hstart, hprog] at hheaded
    exact (hheaded.2 r).mono notRegistration_of_later
  · rw [hprog] at hall
    exact hall.2 r

theorem metInv_performed (hi : MetInv cfg s) (ht : TaskInv cfg s) (hpeer : s.peers id = some peer)
    (hprog : peer.prog = .op i k)
    (hperform : Shared.perform cfg choice s.shared i = some (r, sh)) :
    MetInv cfg (s.performed id peer choice i k r sh) := by
  have hown := ht.owned hpeer hprog
  -- the log of another worker's registration does not change
  have hother : ∀ w, w ≠ id → (Met w (.performed id peer.handling i r :: s.log) ↔ Met w s.log) := by
    intro w hw
    simp only [Met, performed_mem_cons_of_ne hw]
  have hkeep : ∀ w, Met w s.log → Met w (.performed id peer.handling i r :: s.log) :=
    fun w hm => met_cons.mpr (Or.inr hm)
  refine ⟨fun w hw => ?_, fun w peer' hp => ?_, fun w tx hw => ?_⟩
  · rw [peers_performed] at hw
    split at hw
    · cases hw
    · next hne => exact (hother w hne).not.mpr (hi.unknown w hw)
  · rw [peers_performed] at hp
    split at hp
    · next he =>
      cases hp
      subst he
      refine Or.inr ⟨hi.rest hpeer hprog r, fun hrole => ?_⟩
      rcases hi.known w peer hpeer with ⟨hstart, -⟩ | ⟨-, hmet⟩
      · rw [hrole, hprog] at hstart
        cases hstart
        exact met_cons.mpr (Or.inl ⟨_, _, rfl⟩)
      · exact hkeep w (hmet hrole)
    · next hne =>
      rcases hi.known w peer' hp with ⟨hstart, hmet⟩ | ⟨hall, hmet⟩
      · exact Or.inl ⟨hstart, (hother w hne).not.mpr hmet⟩
      · exact Or.inr ⟨hall, fun hrole => hkeep w (hmet hrole)⟩
  · replace hw : sh.registry.workers.lookup w = some tx := hw
    rw [perform_worker hperform] at hw
    cases i with
    | registerWorker w' tx' =>
      simp only [Op.workerAfter] at hw
      split at hw
      · next he =>
        obtain ⟨-, -, rfl, -⟩ := hown
        subst he
        exact met_cons.mpr (Or.inl ⟨_, _, rfl⟩)
      · exact hkeep w (hi.registered w tx hw)
    | unregisterWorker w' =>
      simp only [Op.workerAfter] at hw
      split at hw
      · cases hw
      · exact hkeep w (hi.registered w tx hw)
    | _ => exact hkeep w (hi.registered w tx hw)

end Advance

theorem metInv_run {cfg : Config} {as : List ServerAction} {s : Server}
    (h : Run (Server.step cfg) Server.init as s) : MetInv cfg s := by
  refine h.relative (I := MetInv cfg) ⟨?_, ?_, ?_⟩ fun as s a s' hr hi _ hs => ?_
  · rintro w - ⟨_, _, hm⟩
    cases hm
  · intro w peer hp
    cases hp
  · intro w tx hw
    cases hw
  · cases step_cases hs with
    | spawn id peer log hsp => exact metInv_spawn hi hsp
    | advance id peer choice i k r sh hpeer hprog hnow hperform =>
      exact metInv_performed hi (taskInv_run hr) hpeer hprog hperform
    | rehash registry controllers hreg hc =>
      refine ⟨hi.unknown, hi.known, fun w tx hw => hi.registered w tx ?_⟩
      rw [← hreg.workers.lookup]
      exact hw

end CloudGame.Signal
