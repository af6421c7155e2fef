import CloudGame.Signal.Orphans

/-!
# The room a controller drives

A host may register a join code only for the worker it is bound to, and from then on its code and
the routes of its controllers lead to that worker (`handle_browser_message`).  The binding is not
looked at again: a host that ends its session or starts one on another worker keeps its code and its
controllers, and their input goes on to the former worker.

`RoomInv` is what holds while no host does that: a code that has not expired and a route lead to the
worker their host is bound to, or to one that has gone for good.  The handler of a `controllerInput`
found such a route and a queue for its worker; `RoomView` is what it has seen, and since the
handlers run one after another it is still so when the input is sent.

`controllerInput_within_room`: in such a run an input is forwarded to the worker that its host is
bound to.
-/

namespace CloudGame.Signal

open CloudGame.Lib

/-! ## Handlers one after another -/

/-- A task starts a program when no other is in progress. -/
def TakesTurns (s : Server) : ServerAction → Prop
  | .advance _ _ => True
  | .rehash _ _ => True
  | _ => s.Quiescent

/-- While one task is in progress the others are idle. -/
def OneBusy (s : Server) : Prop :=
  ∀ id peer, s.peers id = some peer → peer.prog ≠ .ret () → ∀ x other, s.peers x = some other →
    x ≠ id → other.prog = .ret ()

theorem Spawns.quiescent {cfg : Config} {s : Server} {a : ServerAction} {id : String} {peer : Peer}
    {log : List ServerEvent} (h : Spawns cfg s a id peer log) (hturns : TakesTurns s a) :
    s.Quiescent := by
  cases h with
  | connect role _ => exact hturns
  | receive old req _ _ _ => exact hturns
  | disconnect old _ _ _ => exact hturns

theorem OneBusy.step {cfg : Config} {s s' : Server} {a : ServerAction} (hi : OneBusy s)
    (hturns : TakesTurns s a) (hs : StepTo cfg s a s') : OneBusy s' := by
  cases hs with
  | spawn id peer log hsp =>
    have hq := hsp.quiescent hturns
    -- nobody else is in progress
    intro x busy hbusy hne y other hother hy
    rw [peers_setPeer] at hbusy hother
    split at hbusy
    · next hx =>
      rw [if_neg (by rw [← hx]; exact hy)] at hother
      exact hq y other hother
    · exact absurd (hq x busy hbusy) hne
  | advance id peer choice i k r sh hpeer hprog hnow hperform =>
    have hothers : ∀ y other, s.peers y = some other → y ≠ id → other.prog = .ret () :=
      hi id peer hpeer (by rw [hprog]; simp)
    intro x busy hbusy hne y other hother hy
    rw [peers_performed] at hbusy hother
    split at hbusy
    · next hx =>
      rw [if_neg (by rw [← hx]; exact hy)] at hother
      exact hothers y other hother (by rw [← hx]; exact hy)
    · next hx => exact absurd (hothers x busy hbusy hx) hne
  | rehash registry controllers hreg hc => exact hi

/-! ## What leads to a worker -/

/-- A code of `host` that has not expired, or a route to it, leads to `w`. -/
def Shared.LeadsTo (sh : Shared) (now : Nat) (host w : String) : Prop :=
  (∃ k registration, sh.controllers.codeToHost.lookup k = some registration ∧
    registration.hostClientId = host ∧ registration.workerId = w ∧
      now < registration.expiresAt) ∨
  ∃ c route, sh.controllers.controllerToHost.lookup c = some route ∧
    route.hostClientId = host ∧ route.workerId = w

/-- The step takes no host from the worker that its code or a route to it leads to, unless that
worker leaves. -/
def KeepsHost (s : Server) : ServerAction → Prop
  | .advance id choice => ∀ peer i k, s.peers id = some peer → peer.prog = .op i k →
      ∀ host w, s.shared.registry.clientToWorker.lookup host = some w →
        s.shared.LeadsTo choice.now host w →
        i.bindingAfter host (some w) = some w ∨ i = .unregisterWorker w
  | _ => True

/-- The host is bound to the worker, or the worker has gone. -/
def HeldBy (s : Server) (host w : String) : Prop :=
  Met w s.log ∧ (s.shared.registry.clientToWorker.lookup host = some w ∨
    s.shared.registry.workers.lookup w = none)

/-! ## What a handler has seen -/

/-- The worker a handler found its client bound to, the one it found for an input, and one whose
queue it looked up. -/
structure RoomView where
  bound : Option String
  found : Option String
  reached : Option String

def RoomView.blank : RoomView := ⟨none, none, none⟩

/-- The handler of `c` registers it as a host of the worker it is bound to, and forwards an input to
a worker it found and reached. -/
def roomOk (c : String) (handling : Option BrowserCommand) (g : RoomView) : Op → Prop
  | .registerHost _ w => g.bound = some w
  | .workerForInput _ h => ∀ host data, handling = some (.controllerInput host data) → h = host
  | .send w event => ∀ host data, handling = some (.controllerInput host data) →
      event = .message (forwardToWorkerMessage .input c (some data)) ∧
        g.found = some w ∧ g.reached = some w
  | _ => True

/-- The operations that change who is registered or bound, or what is shown of a worker. -/
def Op.changesRegistry : Op → Bool
  | .registerClient _ _ => true
  | .registerWorker _ _ => true
  | .unregisterClient _ => true
  | .unregisterWorker _ => true
  | .bindClientToWorker _ _ => true
  | .unbindClient _ => true
  | .setWorkerGame _ _ => true
  | .setWorkerPlayerCount _ _ => true
  | _ => false

def RoomView.next (g : RoomView) : (i : Op) → i.Reply → RoomView
  | .isClientBoundToWorker _ w, r => if r then { g with bound := some w } else g
  | .workerForInput _ _, r => { g with found := r }
  | .workerSender w, r => if r.isSome then { g with reached := some w } else g
  | i, _ => if i.changesRegistry then .blank else g

def roomGhost (c : String) (handling : Option BrowserCommand) :
    Prog.Ghost Op Op.Reply RoomView where
  ok := roomOk c handling
  adm _ := relayAdm
  next := RoomView.next

section Programs

variable {c : String} {handling : Option BrowserCommand} {g : RoomView}

/-- The handlers of the other commands register no host and forward no controller's input. -/
theorem roomOk_of_owned {role : PeerRole} {isOpen : Bool}
    (hhost : ∀ w, handling ≠ some (.controllerHost w))
    (hinput : ∀ host data, handling ≠ some (.controllerInput host data)) (g : RoomView) (i : Op)
    (h : i.OwnedBy role c isOpen handling) : roomOk c handling g i := by
  cases i with
  | registerHost x w =>
    obtain ⟨-, -, -, hcmd⟩ := h
    exact absurd hcmd (hhost w)
  | workerForInput x y => exact fun host data hcmd => absurd hcmd (hinput host data)
  | send w event => exact fun host data hcmd => absurd hcmd (hinput host data)
  | _ => trivial

theorem room_handleControllerHost (cfg : Config) (w : String) :
    (handleControllerHost cfg c w).Wp (roomGhost c (some (.controllerHost w)))
      (fun _ _ => True) g := by
  refine ⟨trivial, fun isBound _ => ?_⟩
  cases isBound with
  | false => trivial
  | true =>
    refine ⟨rfl, fun code _ => ⟨trivial, fun sender _ => ?_⟩⟩
    cases sender with
    | none => trivial
    | some tx =>
      refine ⟨?_, fun _ _ => trivial⟩
      rintro host data ⟨⟩

theorem room_handleControllerInput (host data : String) :
    (handleControllerInput c host data).Wp (roomGhost c (some (.controllerInput host data)))
      (fun _ _ => True) g := by
  refine ⟨?_, fun found _ => ?_⟩
  · rintro host' data' ⟨⟩
    rfl
  cases found with
  | none => trivial
  | some w =>
    refine ⟨trivial, fun sender hadm => ?_⟩
    cases sender with
    | none => trivial
    | some tx =>
      obtain rfl : tx = w := hadm tx rfl
      refine ⟨?_, fun _ _ => trivial⟩
      rintro host' data' ⟨⟩
      exact ⟨rfl, rfl, rfl⟩

theorem IsSpawned.room {cfg : Config} {peer : Peer} (h : IsSpawned cfg c peer) (g : RoomView) :
    peer.prog.Wp (roomGhost c peer.handling) (fun _ _ => True) g := by
  by_cases hhost : ∃ w, peer.handling = some (.controllerHost w)
  · obtain ⟨w, hcmd⟩ := hhost
    rw [h.handler hcmd, hcmd]
    exact room_handleControllerHost cfg w
  · by_cases hinput : ∃ host data, peer.handling = some (.controllerInput host data)
    · obtain ⟨host, data, hcmd⟩ := hinput
      rw [h.handler hcmd, hcmd]
      exact room_handleControllerInput host data
    · exact h.headed.all.wp (roomOk_of_owned (fun w he => hhost ⟨w, he⟩)
        fun host data he => hinput ⟨host, data, he⟩) g

end Programs

/-- What was seen is still so. -/
structure RoomView.Holds (g : RoomView) (c : String) (handling : Option BrowserCommand)
    (s : Server) : Prop where
  bound : ∀ w, g.bound = some w → HeldBy s c w
  found : ∀ host data w, handling = some (.controllerInput host data) → g.found = some w →
    HeldBy s host w
  reached : ∀ w, g.reached = some w → s.shared.registry.workers.lookup w ≠ none

theorem RoomView.blank_holds (c : String) (handling : Option BrowserCommand) (s : Server) :
    RoomView.blank.Holds c handling s :=
  ⟨nofun, fun _ _ _ _ => nofun, nofun⟩

/-! ## The invariant -/

structure RoomInv (s : Server) : Prop where
  codes : ∀ k registration, s.shared.controllers.codeToHost.lookup k = some registration →
    registration.expiresAt ≤ s.shared.clock ∨
      HeldBy s registration.hostClientId registration.workerId
  routes : ∀ c route, s.shared.controllers.controllerToHost.lookup c = some route →
    HeldBy s route.hostClientId route.workerId
  tasks : ∀ c peer, s.peers c = some peer → ∃ g : RoomView, g.Holds c peer.handling s ∧
    peer.prog.Wp (roomGhost c peer.handling) (fun _ _ => True) g

section Advance

variable {cfg : Config} {s : Server} {id : String} {peer : Peer} {choice : Choice} {i : Op}
  {k : i.Reply → ServerM Unit} {r : i.Reply} {sh : Shared} {host w : String}

theorem perform_registry (h : Shared.perform cfg choice s.shared i = some (r, sh))
    (hi : i.changesRegistry = false) : sh.registry = s.shared.registry := by
  cases i with
  | registerHost x w =>
    obtain ⟨controllers, rfl⟩ := perform_registerHost h
    rfl
  | registerClient c tx => cases hi
  | registerWorker w tx => cases hi
  | unregisterClient c => cases hi
  | unregisterWorker w => cases hi
  | bindClientToWorker c w => cases hi
  | unbindClient c => cases hi
  | setWorkerGame w game => cases hi
  | setWorkerPlayerCount w count => cases hi
  | _ => cases h; rfl

theorem HeldBy.performed (hheld : HeldBy s host w) (hs : Sound cfg s)
    (hpeer : s.peers id = some peer) (hprog : peer.prog = .op i k)
    (hperform : Shared.perform cfg choice s.shared i = some (r, sh))
    (hkeep : s.shared.registry.clientToWorker.lookup host = some w →
      i.bindingAfter host (some w) = some w ∨ i = .unregisterWorker w) :
    HeldBy (s.performed id peer choice i k r sh) host w := by
  obtain ⟨hmet, hbound | hgone⟩ := hheld
  · refine ⟨hmet.performed, ?_⟩
    rcases hkeep hbound with hsame | rfl
    · refine Or.inl ?_
      show sh.registry.clientToWorker.lookup host = some w
      rw [perform_binding hperform, hbound, hsame]
    · refine Or.inr ?_
      show sh.registry.workers.lookup w = none
      rw [perform_worker hperform]
      exact if_pos rfl
  · exact ⟨hmet.performed, Or.inr (gone_performed hs hpeer hprog hperform hmet hgone)⟩

theorem HeldBy.same_registry (hheld : HeldBy s host w)
    (hregistry : sh.registry = s.shared.registry) :
    HeldBy (s.performed id peer choice i k r sh) host w := by
  refine ⟨hheld.1.performed, ?_⟩
  show sh.registry.clientToWorker.lookup host = some w ∨ sh.registry.workers.lookup w = none
  rw [hregistry]
  exact hheld.2

/-- What the task that performs the operation has seen. -/
theorem RoomView.Holds.own {g : RoomView} (hg : g.Holds id peer.handling s) (hi : RoomInv s)
    (hc : ContactInv s) (hown : i.OwnedBy peer.role id peer.isOpen peer.handling)
    (hok : roomOk id peer.handling g i)
    (hperform : Shared.perform cfg choice s.shared i = some (r, sh)) :
    (g.next i r).Holds id peer.handling (s.performed id peer choice i k r sh) := by
  cases hchange : i.changesRegistry with
  | true =>
    have hblank : g.next i r = .blank := by
      cases i <;> first | rfl | cases hchange
    rw [hblank]
    exact RoomView.blank_holds _ _ _
  | false =>
    have hregistry := perform_registry hperform hchange
    have hsame : g.Holds id peer.handling (s.performed id peer choice i k r sh) := by
      refine ⟨fun w hw => (hg.bound w hw).same_registry hregistry,
        fun host data w hcmd hw => (hg.found host data w hcmd hw).same_registry hregistry,
        fun w hw => ?_⟩
      show sh.registry.workers.lookup w ≠ none
      rw [hregistry]
      exact hg.reached w hw
    cases i with
    | isClientBoundToWorker c w =>
      obtain ⟨-, -, rfl⟩ := hown
      cases r with
      | false => exact hsame
      | true =>
        refine ⟨fun w' hw' => ?_, hsame.found, hsame.reached⟩
        cases hw'
        have hbound : decide (s.shared.registry.clientToWorker.lookup c = some w) = true :=
          congrArg Prod.fst (Option.some.inj hperform)
        have hheld : HeldBy s c w :=
          ⟨hc.bindings c w (of_decide_eq_true hbound), Or.inl (of_decide_eq_true hbound)⟩
        exact hheld.same_registry hregistry
    | workerForInput c h =>
      obtain ⟨-, -, rfl⟩ := hown
      refine ⟨hsame.bound, fun host data w hcmd hw => ?_, hsame.reached⟩
      obtain rfl := hok host data hcmd
      obtain rfl : r = some w := hw
      have hfound : s.shared.controllers.workerForInput c h = some w :=
        congrArg Prod.fst (Option.some.inj hperform)
      unfold ControllerState.workerForInput at hfound
      split at hfound
      · cases hfound
      · next route hroute =>
        split at hfound
        · next hhost =>
          cases hfound
          rw [← hhost]
          exact (hi.routes c route hroute).same_registry hregistry
        · cases hfound
    | workerSender w =>
      cases r with
      | none => exact hsame
      | some tx =>
        refine ⟨hsame.bound, hsame.found, fun w' hw' => ?_⟩
        cases hw'
        have htx : s.shared.registry.workers.lookup w = some tx :=
          congrArg Prod.fst (Option.some.inj hperform)
        show sh.registry.workers.lookup w ≠ none
        rw [hregistry, htx]
        simp
    | _ => first | exact hsame | cases hchange

theorem roomInv_performed (hi : RoomInv s) (hs : Sound cfg s) (hc : ContactInv s)
    (hbusy : OneBusy s) (hkeeps : KeepsHost s (.advance id choice)) (hpeer : s.peers id = some peer)
    (hprog : peer.prog = .op i k) (hnow : s.shared.clock ≤ choice.now ∧ choice.now ≤ choice.later)
    (hperform : Shared.perform cfg choice s.shared i = some (r, sh)) :
    RoomInv (s.performed id peer choice i k r sh) := by
  have hown := hs.tasks.owned hpeer hprog
  obtain ⟨g, hg, hwp⟩ := hi.tasks id peer hpeer
  rw [hprog] at hwp
  obtain ⟨hok, hrest⟩ := hwp
  have hkept : ∀ host w, HeldBy s host w → s.shared.LeadsTo choice.now host w →
      HeldBy (s.performed id peer choice i k r sh) host w := fun host w hheld hleads =>
    hheld.performed hs hpeer hprog hperform fun hbound =>
      hkeeps peer i k hpeer hprog host w hbound hleads
  -- a host registers for the worker it was found bound to
  have hregister : ∀ host w, i = .registerHost host w →
      HeldBy (s.performed id peer choice i k r sh) host w := by
    rintro host w rfl
    obtain ⟨-, -, rfl, -⟩ := hown
    exact (hg.bound w hok).same_registry (perform_registry hperform rfl)
  refine ⟨fun key registration hk => ?_, fun c route hr => ?_, fun c peer' hp => ?_⟩
  · show registration.expiresAt ≤ choice.later ∨ _
    rcases perform_code hs.linked hperform hk with hold | hreg
    · by_cases hlive : choice.now < registration.expiresAt
      · have hheld : HeldBy s registration.hostClientId registration.workerId :=
          (hi.codes key registration hold).resolve_left (by omega)
        exact Or.inr (hkept _ _ hheld (Or.inl ⟨key, registration, hold, rfl, rfl, hlive⟩))
      · exact Or.inl (by omega)
    · exact Or.inr (hregister _ _ hreg)
  · rcases perform_route_from hs.linked hperform hr with hold | ⟨hreg, -⟩ |
      ⟨code, key, registration, rfl, -, hk, hlive, rfl⟩
    · exact hkept _ _ (hi.routes c route hold) (Or.inr ⟨c, route, hold, rfl, rfl⟩)
    · exact hregister _ _ hreg
    · have hheld : HeldBy s registration.hostClientId registration.workerId :=
        (hi.codes key registration hk).resolve_left (by omega)
      exact hheld.same_registry (perform_registry hperform rfl)
  · rw [peers_performed] at hp
    split at hp
    · next hid =>
      cases hp
      subst hid
      exact ⟨g.next i r, hg.own hi hc hown hok hperform,
        hrest r (relayAdm_perform hs.queues hperform)⟩
    · next hne =>
      refine ⟨.blank, RoomView.blank_holds _ _ _, ?_⟩
      rw [hbusy id peer hpeer (by rw [hprog]; simp) c peer' hp hne]
      trivial

end Advance

theorem HeldBy.spawn {cfg : Config} {s : Server} {a : ServerAction} {id : String} {peer : Peer}
    {log : List ServerEvent} {host w : String} (hheld : HeldBy s host w)
    (h : Spawns cfg s a id peer log) : HeldBy { s.setPeer id peer with log := log } host w :=
  ⟨(h.met_iff w).mpr hheld.1, hheld.2⟩

theorem roomInv_spawn {cfg : Config} {s : Server} {a : ServerAction} {id : String} {peer : Peer}
    {log : List ServerEvent} (hi : RoomInv s) (hq : s.Quiescent) (h : Spawns cfg s a id peer log) :
    RoomInv { s.setPeer id peer with log := log } := by
  refine ⟨fun key registration hk => (hi.codes key registration hk).imp_right fun hh => hh.spawn h,
    fun c route hr => (hi.routes c route hr).spawn h, fun c peer' hp => ?_⟩
  refine ⟨.blank, RoomView.blank_holds _ _ _, ?_⟩
  rw [peers_setPeer] at hp
  split at hp
  · next hc =>
    cases hp
    subst hc
    exact h.isSpawned.room _
  · rw [hq c peer' hp]
    trivial

theorem HeldBy.rehash {s : Server} {registry : RegistryState} {controllers : ControllerState}
    {host w : String} (hheld : HeldBy s host w)
    (hreg : RegistryState.Rehashed s.shared.registry registry) :
    HeldBy { s with shared := { s.shared with
      registry := registry, controllers := controllers } } host w := by
  refine ⟨hheld.1, ?_⟩
  show registry.clientToWorker.lookup host = some w ∨ registry.workers.lookup w = none
  rw [hreg.clientToWorker.lookup, hreg.workers.lookup]
  exact hheld.2

theorem roomInv_run {cfg : Config} {as : List ServerAction} {s : Server}
    (h : RunWhen (fun s a => TakesTurns s a ∧ KeepsHost s a) (Server.step cfg) Server.init as s) :
    RoomInv s ∧ OneBusy s := by
  refine h.relative (I := fun s => RoomInv s ∧ OneBusy s) ⟨⟨?_, ?_, ?_⟩, ?_⟩
    fun as s a s' hr hi hok hs => ⟨?_, hi.2.step hok.1 (step_cases hs)⟩
  · intro key registration hk
    cases hk
  · intro c route hr
    cases hr
  · intro c peer hp
    cases hp
  · intro id peer hp
    cases hp
  · cases step_cases hs with
    | spawn id peer log hsp => exact roomInv_spawn hi.1 (hsp.quiescent hok.1) hsp
    | advance id peer choice i k r sh hpeer hprog hnow hperform =>
      exact roomInv_performed hi.1 (sound_run hr) (contactInv_run hr) hi.2 hok.2 hpeer hprog hnow
        hperform
    | rehash registry controllers hreg hc =>
      refine ⟨fun key registration hk => ?_, fun c route hroute => ?_, fun c peer hp => ?_⟩
      · replace hk : controllers.codeToHost.lookup key = some registration := hk
        rw [hc.1.lookup] at hk
        exact (hi.1.codes key registration hk).imp_right fun hheld => hheld.rehash hreg
      · replace hroute : controllers.controllerToHost.lookup c = some route := hroute
        rw [hc.2.2.lookup] at hroute
        exact (hi.1.routes c route hroute).rehash hreg
      · obtain ⟨g, hg, hwp⟩ := hi.1.tasks c peer hp
        refine ⟨g, ⟨fun w hw => (hg.bound w hw).rehash hreg,
          fun host data w hcmd hw => (hg.found host data w hcmd hw).rehash hreg,
          fun w hw => ?_⟩, hwp⟩
        show registry.workers.lookup w ≠ none
        rw [hreg.workers.lookup]
        exact hg.reached w hw

/-! ## The result -/

/-- **Controllers drive the room of their host.**  The handlers run one after another, and no host
is taken from a worker that a code of it that has not expired or a route to it leads to, but by that
worker leaving.  Then what the handler of a `controllerInput` sends is that input, and it goes to
the worker that the host it names is bound to. -/
theorem controllerInput_within_room {cfg : Config} {as : List ServerAction} {s : Server}
    (h : RunWhen (fun s a => TakesTurns s a ∧ KeepsHost s a) (Server.step cfg) Server.init as s)
    {c host data w : String} {peer : Peer} {event : OutboundEvent} (hpeer : s.peers c = some peer)
    (hinput : peer.handling = some (.controllerInput host data))
    (hsend : peer.prog.head = some (.send w event)) :
    event = .message (forwardToWorkerMessage .input c (some data)) ∧
      s.shared.registry.isClientBoundToWorker host w = true := by
  obtain ⟨g, hg, hwp⟩ := (roomInv_run h).1.tasks c peer hpeer
  obtain ⟨k, hprog⟩ := Prog.eq_op_of_head hsend
  rw [hprog] at hwp
  obtain ⟨hevent, hfound, hreached⟩ := hwp.1 host data hinput
  have hbound : s.shared.registry.clientToWorker.lookup host = some w :=
    (hg.found host data w hinput hfound).2.resolve_right (hg.reached w hreached)
  exact ⟨hevent, decide_eq_true hbound⟩

/-- The tasks among `ids` are the only ones, and take turns. -/
def inTurn (ids : List String) (s : Server) : ServerAction → Bool
  | .connect id _ =>
    decide (id ∈ ids) && ids.all fun x => (s.peers x).all fun peer => peer.prog.isDone
  | .advance _ _ => true
  | .rehash _ _ => true
  | _ => ids.all fun x => (s.peers x).all fun peer => peer.prog.isDone

theorem takesTurns_of_inTurn {ids : List String} {ok : Server → ServerAction → Prop}
    (hturns : ∀ s a, ok s a → inTurn ids s a = true) {cfg : Config} {as : List ServerAction}
    {s : Server} (h : RunWhen ok (Server.step cfg) Server.init as s) {a : ServerAction}
    (ha : ok s a) : TakesTurns s a := by
  have hids : ∀ id, s.peers id ≠ none → id ∈ ids := by
    refine h.invariant (I := fun s => ∀ id, s.peers id ≠ none → id ∈ ids)
      (fun id hp => absurd rfl hp) fun s a s' hi hok hs id hp => ?_
    rcases peers_new (step_cases hs) hp with hold | ⟨role, rfl⟩
    · exact hi id hold
    · have hturn := hturns s _ hok
      simp only [inTurn, Bool.and_eq_true, decide_eq_true_eq] at hturn
      exact hturn.1
  have hquiescent : (ids.all fun x => (s.peers x).all fun peer => peer.prog.isDone) = true →
      s.Quiescent := by
    intro hall id peer hpeer
    have hdone := List.all_eq_true.mp hall id (hids id (by rw [hpeer]; simp))
    rw [hpeer] at hdone
    exact Prog.eq_ret_of_isDone hdone
  have hturn := hturns s a ha
  cases a with
  | connect id role =>
    simp only [inTurn, Bool.and_eq_true] at hturn
    exact hquiescent hturn.2
  | receive id req => exact hquiescent hturn
  | disconnect id => exact hquiescent hturn
  | advance id choice => trivial
  | rehash registry controllers => trivial

/-- A step that binds nobody anew and unbinds nobody, as far as a look at the state tells. -/
def bindsOnce (s : Server) : ServerAction → Bool
  | .advance id _ =>
    match s.peers id with
    | some ⟨_, _, _, .op i _⟩ =>
      match i with
      | .bindClientToWorker c _ => (s.shared.registry.clientToWorker.lookup c).isNone
      | .unbindClient _ => false
      | .unregisterClient _ => false
      | _ => true
    | _ => true
  | _ => true

theorem keepsHost_of_bindsOnce (s : Server) (a : ServerAction) (h : bindsOnce s a = true) :
    KeepsHost s a := by
  cases a with
  | advance id choice =>
    rintro ⟨role, isOpen, handling, prog⟩ i k hpeer rfl host w hbound _
    simp only [bindsOnce, hpeer] at h
    cases i with
    | bindClientToWorker c w' =>
      refine Or.inl (if_neg ?_)
      rintro rfl
      simp [hbound] at h
    | unbindClient c => cases h
    | unregisterClient c => cases h
    | unregisterWorker w' =>
      by_cases hw : w = w'
      · exact Or.inr (by rw [hw])
      · exact Or.inl (if_neg (by simpa using hw))
    | _ => exact Or.inl rfl
  | _ => trivial

/-- The command that the task handles and the operation it performs next. -/
def Server.handles (s : Server) (id : String) : Option (Option BrowserCommand × Op) :=
  (s.peers id).bind fun peer => peer.prog.head.map fun i => (peer.handling, i)

theorem Server.handles_eq_some {s : Server} {id : String} {handling : Option BrowserCommand}
    {i : Op} (h : s.handles id = some (handling, i)) :
    ∃ peer, s.peers id = some peer ∧ peer.handling = handling ∧ peer.prog.head = some i := by
  obtain ⟨peer, hpeer, hmap⟩ := Option.bind_eq_some_iff.mp h
  obtain ⟨i', hhead, he⟩ := Option.map_eq_some_iff.mp hmap
  cases he
  exact ⟨peer, hpeer, rfl, hhead⟩

/-- The phone that joined sends an input, up to where its handler forwards it. -/
def inputRun : List ServerAction :=
  joinRun ++ .receive "phone" ⟨"controllerInput", some "1", some "host"⟩ :: advances "phone" 2

theorem controllerInput_within_room_joined :
    ∃ s, RunWhen (fun s a => TakesTurns s a ∧ KeepsHost s a) (Server.step plainConfig) Server.init
        inputRun s ∧
      s.handles "phone" = some (some (.controllerInput "host" "1"),
        .send "worker" (.message ⟨"input", some "1", some "phone"⟩)) ∧
      s.shared.registry.isClientBoundToWorker "host" "worker" = true := by
  have heval : ∃ s, RunWhen (fun s a => inTurn ["worker", "host", "phone"] s a = true ∧
      bindsOnce s a = true) (Server.step plainConfig) Server.init inputRun s ∧
      s.handles "phone" = some (some (.controllerInput "host" "1"),
        .send "worker" (.message ⟨"input", some "1", some "phone"⟩)) :=
    execWhen_any (by decide +kernel)
  obtain ⟨s, hrun, hhandles⟩ := heval
  have hrun' : RunWhen (fun s a => TakesTurns s a ∧ KeepsHost s a) (Server.step plainConfig)
      Server.init inputRun s :=
    hrun.strengthen fun _ s a _ h hok _ =>
      ⟨takesTurns_of_inTurn (fun _ _ hok => hok.1) h hok, keepsHost_of_bindsOnce s a hok.2⟩
  obtain ⟨peer, hpeer, hinput, hsend⟩ := Server.handles_eq_some hhandles
  exact ⟨s, hrun', hhandles, (controllerInput_within_room hrun' hpeer hinput hsend).2⟩

/-- The host ends its session before that. -/
def terminateRun : List ServerAction :=
  joinRun ++ .receive "host" ⟨"terminateSession", none, none⟩ :: advances "host" 4 ++
    .receive "phone" ⟨"controllerInput", some "1", some "host"⟩ :: advances "phone" 2

theorem controllerInput_outlives_session :
    ∃ s, RunWhen TakesTurns (Server.step plainConfig) Server.init terminateRun s ∧
      s.handles "phone" = some (some (.controllerInput "host" "1"),
        .send "worker" (.message (forwardToWorkerMessage .input "phone" (some "1")))) ∧
      s.shared.registry.isClientBoundToWorker "host" "worker" = false := by
  have heval : ∃ s, RunWhen (fun s a => inTurn ["worker", "host", "phone"] s a = true)
      (Server.step plainConfig) Server.init terminateRun s ∧
      s.handles "phone" = some (some (.controllerInput "host" "1"),
        .send "worker" (.message (forwardToWorkerMessage .input "phone" (some "1")))) ∧
      s.shared.registry.isClientBoundToWorker "host" "worker" = false :=
    execWhen_any (by decide +kernel)
  obtain ⟨s, hrun, hrest⟩ := heval
  exact ⟨s, hrun.strengthen fun _ _ _ _ h hok _ => takesTurns_of_inTurn (fun _ _ hok => hok) h hok,
    hrest⟩

end CloudGame.Signal
