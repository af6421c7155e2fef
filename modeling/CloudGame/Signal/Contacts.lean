import CloudGame.Signal.Relay

/-!
# What the workers are told of the clients

A worker believes in a client when the last `initwebrtc`, `joinRoom` or `terminateSession` about it
on the worker's queue is not `terminateSession` (`Shared.Believes`).  Only the client's own handlers
make a worker believe in it, and they do so with care: a handler announces its client to a worker
whose queue it looked up and, but for a `controllerJoin`, to which it bound it; and it unbinds the
client from a worker only after it told that worker of the end.

That is a ghost state of the task again, `Contact`; `contactGhost` says what the handler may do with
it and `contactInv_run` that it is right about every reachable state.
-/

namespace CloudGame.Signal

open CloudGame.Lib

/-! ## News on a queue -/

/-- What an event tells a worker of client `c`: that it has a session, or that it has none. -/
def sessionNews (c : String) : OutboundEvent → Option Bool
  | .message msg =>
    if msg.sessionId = some c then
      if msg.id = SignalIds.initWebrtc ∨ msg.id = SignalIds.joinRoom then some true
      else if msg.id = SignalIds.terminateSession then some false
      else none
    else none
  | .close => none

/-- The last of these messages about `c` on the queue of `w` is not `terminateSession`. -/
def Shared.Believes (sh : Shared) (w c : String) : Prop :=
  (sh.queues w).findSome? (sessionNews c) = some true

/-- The send that tells `w` of the end of `c`. -/
def tell (w c : String) : Op := .send w (.message (terminateSessionMessage c))

theorem sessionNews_eq_true {c : String} {event : OutboundEvent} :
    sessionNews c event = some true ↔ event.announces = some c := by
  cases event with
  | close => simp [sessionNews, OutboundEvent.announces]
  | message msg =>
    simp only [sessionNews, OutboundEvent.announces]
    by_cases hs : msg.sessionId = some c
    · by_cases hi : msg.id = SignalIds.initWebrtc ∨ msg.id = SignalIds.joinRoom
      · simp [hs, hi]
      · simp [hs, hi]
    · by_cases hi : msg.id = SignalIds.initWebrtc ∨ msg.id = SignalIds.joinRoom
      · simp [hs, hi]
      · simp [hs, hi]

theorem sessionNews_terminate (c : String) :
    sessionNews c (.message (terminateSessionMessage c)) = some false := by
  have hid : ¬ (SignalIds.terminateSession = SignalIds.initWebrtc ∨
      SignalIds.terminateSession = SignalIds.joinRoom) := by decide
  simp [sessionNews, terminateSessionMessage, hid]

section Perform

variable {cfg : Config} {choice : Choice} {sh sh' : Shared} {i : Op} {r : i.Reply}

/-- A worker comes to believe in a client by a message that announces it. -/
theorem believes_perform (h : Shared.perform cfg choice sh i = some (r, sh')) {w c : String}
    (hb : sh'.Believes w c) :
    sh.Believes w c ∨ ∃ event, i = .send w event ∧ event.announces = some c := by
  unfold Shared.Believes at hb
  rw [perform_queues h] at hb
  cases i with
  | send tx event =>
    simp only [Op.placed] at hb
    split at hb
    · next he =>
      subst he
      rw [List.singleton_append, List.findSome?_cons] at hb
      split at hb
      · next b hnews =>
        cases hb
        exact Or.inr ⟨event, rfl, sessionNews_eq_true.mp hnews⟩
      · exact Or.inl hb
    · exact Or.inl hb
  | _ => exact Or.inl hb

/-- A worker that has been told believes no more. -/
theorem not_believes_tell {w c : String}
    (h : Shared.perform cfg choice sh (tell w c) = some ((), sh')) :
    ¬ sh'.Believes w c := by
  unfold Shared.Believes
  rw [perform_queues h]
  simp only [tell, Op.placed, if_true, List.singleton_append, List.findSome?_cons,
    sessionNews_terminate]
  simp

end Perform

/-! ## Whom a handler has met and told -/

/-- The workers whose queue the handler looked up, the one its client is bound to as far as it
knows, the one it found its client bound to, and the one it told of the end. -/
structure Contact where
  met : List String
  bound : Option String
  looked : Option String
  told : Option String

/-- What the handler of `c` may do: announce its client to a worker it met and (but for a
`controllerJoin`) bound it to, and unbind it from a worker it told. -/
def contactOk (c : String) (handling : Option BrowserCommand) (g : Contact) : Op → Prop
  | .bindClientToWorker _ w => w ∈ g.met
  | .unbindClient _ => ∃ w, g.looked = some w ∧ g.told = some w
  | .send w event => event.announces = some c → w ∈ g.met ∧
      ((∀ code, handling ≠ some (.controllerJoin code)) → g.bound = some w)
  | _ => True

def contactAdm : (i : Op) → i.Reply → Prop
  | .workerSender w, r => ∀ tx, r = some tx → tx = w
  | _, _ => True

def Contact.next (c : String) (g : Contact) : (i : Op) → i.Reply → Contact
  | .workerSender w, r =>
    if r.isSome then { g with met := w :: g.met } else { g with told := some w }
  | .bindClientToWorker _ w, _ => { g with bound := some w, looked := none }
  | .isClientBoundToWorker _ w, r => if r then { g with bound := some w } else g
  | .workerForClient _, r => { g with looked := r, told := none }
  | .unbindClient _, _ => ⟨g.met, none, none, none⟩
  | .unregisterClient _, _ => ⟨g.met, none, none, none⟩
  | .send w event, _ =>
    if event = .message (terminateSessionMessage c) then { g with told := some w }
    else if event.announces = some c then { g with told := none }
    else g
  | _, _ => g

def contactGhost (c : String) (handling : Option BrowserCommand) :
    Prog.Ghost Op Op.Reply Contact where
  ok := contactOk c handling
  adm _ := contactAdm
  next := Contact.next c

section Programs

variable {c : String} {handling : Option BrowserCommand} {g : Contact}

theorem contact_sendToWorker (w : String) (msg : SignalMessage) {Q : Contact → Unit → Prop}
    (hok : contactOk c handling { g with met := w :: g.met } (.send w (.message msg)))
    (hnone : Q { g with told := some w } ())
    (hsome : Q (Contact.next c { g with met := w :: g.met } (.send w (.message msg)) ()) ()) :
    (sendToWorker w msg).Wp (contactGhost c handling) Q g := by
  refine ⟨trivial, fun sender hadm => ?_⟩
  cases sender with
  | none => exact hnone
  | some tx =>
    have htx : tx = w := hadm tx rfl
    subst htx
    exact ⟨hok, fun _ _ => hsome⟩

theorem contact_sendToClient (x : String) {msg : SignalMessage} (hplain : Plain (.message msg))
    {Q : Contact → Unit → Prop} (hq : ∀ g, Q g ()) :
    (sendToClient x msg).Wp (contactGhost c handling) Q g := by
  refine ⟨trivial, fun sender _ => Prog.Wp.whenSome (fun _ => hq _) fun tx _ => ?_⟩
  refine ⟨fun h => ?_, fun _ _ => hq _⟩
  rw [hplain] at h
  cases h

theorem contact_handleForwardToWorker (w : String) (event : WorkerEventKind)
    (data : Option String) (bindClient : Bool) :
    (handleForwardToWorker c w event data bindClient).Wp
      (contactGhost c (some (.forwardToWorker w event data bindClient))) (fun _ _ => True) g := by
  unfold handleForwardToWorker
  cases bindClient with
  | true =>
    refine ⟨trivial, fun sender _ => ?_⟩
    cases sender with
    | none => trivial
    | some tx =>
      refine ⟨List.mem_cons_self .., fun _ _ => ?_⟩
      exact contact_sendToWorker w _ (fun _ => ⟨List.mem_cons_self .., fun _ => rfl⟩) trivial
        trivial
  | false =>
    refine ⟨trivial, fun isBound _ => ?_⟩
    cases isBound with
    | false => trivial
    | true =>
      exact contact_sendToWorker w _ (fun _ => ⟨List.mem_cons_self .., fun _ => rfl⟩) trivial
        trivial

theorem contact_handleTerminateSession (target : Option String) :
    (handleTerminateSession c target).Wp (contactGhost c (some (.terminateSession target)))
      (fun _ _ => True) g := by
  refine ⟨trivial, fun bound _ => Prog.Wp.whenSome (fun _ => trivial) fun w htarget => ?_⟩
  have hbound : bound = some w := terminateTarget_eq_some htarget
  refine Prog.Wp.bind (contact_sendToWorker w _ (fun h => ?_) ?_ ?_)
  · cases h
  · exact ⟨⟨w, hbound, rfl⟩, fun _ _ => trivial⟩
  · refine ⟨⟨w, ?_, ?_⟩, fun _ _ => trivial⟩
    · simpa [Contact.next, contactGhost] using hbound
    · simp [Contact.next]

theorem contact_handleControllerJoin (code : String) :
    (handleControllerJoin c code).Wp (contactGhost c (some (.controllerJoin code)))
      (fun _ _ => True) g := by
  refine ⟨trivial, fun result _ => ?_⟩
  cases result with
  | error reason => exact contact_sendToClient c (by rfl) fun _ => trivial
  | ok target =>
    have hplain : ∀ x, Plain (.message (controllerJoinedMessage x)) := fun _ => rfl
    show Prog.Wp _ _ (sendToClient c (controllerJoinedMessage target.hostClientId) >>= _) _
    refine Prog.Wp.bind (contact_sendToClient c (hplain _) fun _ => ?_)
    refine Prog.Wp.bind (contact_sendToClient target.hostClientId (hplain _) fun _ => ?_)
    refine contact_sendToWorker _ _ (fun _ => ⟨List.mem_cons_self .., fun h => ?_⟩) trivial trivial
    exact absurd rfl (h code)

/-- The handlers of the other commands bind, unbind and announce nobody. -/
theorem contactOk_of_owned {role : PeerRole} {isOpen : Bool}
    (hannounce : ∀ cmd, handling = some cmd → cmd.announces = false)
    (hterminate : ∀ target, handling ≠ some (.terminateSession target)) (g : Contact) (i : Op)
    (h : i.OwnedBy role c isOpen handling) : contactOk c handling g i := by
  cases i with
  | bindClientToWorker x w =>
    obtain ⟨-, -, -, event, data, -, hcmd⟩ := h
    cases hannounce _ hcmd
  | unbindClient x =>
    obtain ⟨-, -, -, target, hcmd⟩ := h
    exact absurd hcmd (hterminate target)
  | send w event =>
    intro he
    obtain ⟨-, -, -, cmd, hcmd, hann⟩ := h c he
    rw [hannounce cmd hcmd] at hann
    cases hann
  | _ => trivial

theorem IsSpawned.contact {cfg : Config} {peer : Peer} (h : IsSpawned cfg c peer) (g : Contact) :
    peer.prog.Wp (contactGhost c peer.handling) (fun _ _ => True) g := by
  have hother : (∀ cmd, peer.handling = some cmd → cmd.announces = false) →
      (∀ target, peer.handling ≠ some (.terminateSession target)) →
      peer.prog.Wp (contactGhost c peer.handling) (fun _ _ => True) g :=
    fun ha ht => h.headed.all.wp (contactOk_of_owned ha ht) g
  cases hhandling : peer.handling with
  | none =>
    rw [hhandling] at hother
    exact hother nofun nofun
  | some cmd =>
    rw [hhandling] at hother
    rw [h.handler hhandling] at hother ⊢
    cases cmd with
    | forwardToWorker w event data bind => exact contact_handleForwardToWorker w event data bind
    | terminateSession target => exact contact_handleTerminateSession target
    | controllerJoin code => exact contact_handleControllerJoin code
    | _ => exact hother (fun cmd' hc => by cases hc; rfl) nofun

end Programs

/-- The contact is right about the state. -/
structure Contact.Holds (g : Contact) (c : String) (s : Server) : Prop where
  met : ∀ w ∈ g.met, Met w s.log
  bound : ∀ w, g.bound = some w → Met w s.log ∧
    (s.shared.registry.clientToWorker.lookup c = some w ∨
      s.shared.registry.workers.lookup w = none)
  looked : ∀ w, g.looked = some w → Met w s.log ∧
    (s.shared.registry.clientToWorker.lookup c = some w ∨
      s.shared.registry.clientToWorker.lookup c = none)
  told : ∀ w, g.told = some w → g.looked = some w →
    ¬ s.shared.Believes w c ∨ s.shared.registry.workers.lookup w = none

structure ContactInv (s : Server) : Prop where
  tasks : ∀ c peer, s.peers c = some peer → ∃ g : Contact, g.Holds c s ∧
    peer.prog.Wp (contactGhost c peer.handling) (fun _ _ => True) g
  bindings : ∀ c w, s.shared.registry.clientToWorker.lookup c = some w → Met w s.log
  believed : ∀ w c, s.shared.Believes w c → Met w s.log

/-- What the proofs use of every reachable state. -/
structure Sound (cfg : Config) (s : Server) : Prop where
  tasks : TaskInv cfg s
  queues : OwnQueues s
  met : MetInv cfg s
  linked : s.shared.controllers.Linked

theorem sound_run {cfg : Config} {as : List ServerAction} {s : Server}
    (h : Run (Server.step cfg) Server.init as s) : Sound cfg s :=
  ⟨taskInv_run h, ownQueues_run h, metInv_run h, linked_run h⟩

section Advance

variable {cfg : Config} {s : Server} {id : String} {peer : Peer} {choice : Choice} {i : Op}
  {k : i.Reply → ServerM Unit} {r : i.Reply} {sh : Shared}

/-- A worker that is gone does not come back. -/
theorem gone_performed (hs : Sound cfg s) (hpeer : s.peers id = some peer)
    (hprog : peer.prog = .op i k) (hperform : Shared.perform cfg choice s.shared i = some (r, sh))
    {w : String} (hmet : Met w s.log) (hnone : s.shared.registry.workers.lookup w = none) :
    sh.registry.workers.lookup w = none := by
  rw [perform_worker hperform]
  cases i with
  | registerWorker w' tx =>
    have hown := hs.tasks.owned hpeer hprog
    have hfresh := (hs.met.fresh hpeer hprog rfl).2
    simp only [Op.workerAfter]
    rw [if_neg]
    · exact hnone
    · rintro rfl
      rw [← hown.2.2.1] at hfresh
      exact hfresh hmet
  | unregisterWorker w' => simp only [Op.workerAfter, hnone, ite_self]
  | _ => exact hnone

/-- A worker that is registered was so, or registers now and is met for the first time. -/
theorem registered_performed (hs : Sound cfg s) (hpeer : s.peers id = some peer)
    (hprog : peer.prog = .op i k) (hperform : Shared.perform cfg choice s.shared i = some (r, sh))
    {w : String} (hmet : Met w s.log) (hreg : sh.registry.workers.lookup w ≠ none) :
    s.shared.registry.workers.lookup w ≠ none :=
  fun hnone => hreg (gone_performed hs hpeer hprog hperform hmet hnone)

/-- The binding of `c` is not changed, but for its worker leaving. -/
def BindingKept (c : String) (s : Server) (i : Op) : Prop :=
  i.bindingAfter c (s.shared.registry.clientToWorker.lookup c) =
      s.shared.registry.clientToWorker.lookup c ∨
    ∃ w, i = .unregisterWorker w ∧ s.shared.registry.clientToWorker.lookup c = some w

theorem bindingKept_other (hown : i.OwnedBy peer.role id peer.isOpen peer.handling) {c : String}
    (hc : c ≠ id) : BindingKept c s i := by
  cases i with
  | bindClientToWorker c' w =>
    exact Or.inl (if_neg fun he => hc (he.trans hown.2.2.1))
  | unbindClient c' => exact Or.inl (if_neg fun he => hc (he.trans hown.2.2.1))
  | unregisterClient c' => exact Or.inl (if_neg fun he => hc (he.trans hown.2.2))
  | unregisterWorker w =>
    by_cases hw : s.shared.registry.clientToWorker.lookup c = some w
    · exact Or.inr ⟨w, rfl, hw⟩
    · exact Or.inl (if_neg hw)
  | _ => exact Or.inl rfl

/-- The contact of `c` stays right through operations that neither bind nor announce `c`. -/
theorem Contact.Holds.keep {g : Contact} {c : String} (hg : g.Holds c s) (hs : Sound cfg s)
    (hpeer : s.peers id = some peer) (hprog : peer.prog = .op i k)
    (hperform : Shared.perform cfg choice s.shared i = some (r, sh)) (hkept : BindingKept c s i)
    (hnews : ∀ w event, i = .send w event → event.announces ≠ some c) :
    g.Holds c (s.performed id peer choice i k r sh) := by
  have hmet : ∀ w, Met w s.log → Met w (s.performed id peer choice i k r sh).log :=
    fun _ hw => hw.performed
  have hgone : ∀ w, Met w s.log → s.shared.registry.workers.lookup w = none →
      sh.registry.workers.lookup w = none :=
    fun w => gone_performed hs hpeer hprog hperform
  have hbinding := perform_binding hperform c
  refine ⟨fun w hw => hmet w (hg.met w hw), fun w hw => ?_, fun w hw => ?_, fun w ht hl => ?_⟩
  · obtain ⟨hm, hb⟩ := hg.bound w hw
    refine ⟨hmet w hm, ?_⟩
    show sh.registry.clientToWorker.lookup c = some w ∨ sh.registry.workers.lookup w = none
    rcases hb with hb | hb
    · rcases hkept with hk | ⟨w', rfl, hk⟩
      · exact Or.inl (by rw [hbinding, hk, hb])
      · rw [hb] at hk
        cases hk
        refine Or.inr ?_
        rw [perform_worker hperform]
        exact if_pos rfl
    · exact Or.inr (hgone w hm hb)
  · obtain ⟨hm, hb⟩ := hg.looked w hw
    refine ⟨hmet w hm, ?_⟩
    show sh.registry.clientToWorker.lookup c = some w ∨ sh.registry.clientToWorker.lookup c = none
    rcases hkept with hk | ⟨w', rfl, hk⟩
    · rw [hbinding, hk]
      exact hb
    · refine Or.inr ?_
      rw [hbinding]
      exact if_pos hk
  · show ¬ sh.Believes w c ∨ sh.registry.workers.lookup w = none
    rcases hg.told w ht hl with hb | hb
    · refine Or.inl fun hb' => ?_
      rcases believes_perform hperform hb' with hb' | ⟨event, he, ha⟩
      · exact hb hb'
      · exact hnews w event he ha
    · exact Or.inr (hgone w (hg.looked w hl).1 hb)

/-- The contact of the task that performs the operation. -/
theorem Contact.Holds.own {g : Contact} (hg : g.Holds id s) (hi : ContactInv s) (hs : Sound cfg s)
    (hpeer : s.peers id = some peer) (hprog : peer.prog = .op i k)
    (hperform : Shared.perform cfg choice s.shared i = some (r, sh))
    (hok : contactOk id peer.handling g i) :
    (g.next id i r).Holds id (s.performed id peer choice i k r sh) := by
  have hown := hs.tasks.owned hpeer hprog
  have hmet : ∀ w, Met w s.log → Met w (s.performed id peer choice i k r sh).log :=
    fun _ hw => hw.performed
  have hbinding := perform_binding hperform id
  have hkeep : BindingKept id s i → (∀ w event, i = .send w event → event.announces ≠ some id) →
      g.Holds id (s.performed id peer choice i k r sh) :=
    hg.keep hs hpeer hprog hperform
  have hforget : Contact.Holds ⟨g.met, none, none, none⟩ id (s.performed id peer choice i k r sh) :=
    ⟨fun w hw => hmet w (hg.met w hw), nofun, nofun, nofun⟩
  cases i with
  | bindClientToWorker c w =>
    obtain ⟨-, -, rfl, -⟩ := hown
    refine ⟨fun w' hw' => hmet w' (hg.met w' hw'), fun w' hw' => ?_, fun w' hw' => ?_,
      fun w' _ hl => ?_⟩
    · cases hw'
      refine ⟨hmet w (hg.met w hok), Or.inl ?_⟩
      show sh.registry.clientToWorker.lookup c = some w
      rw [hbinding]
      exact if_pos rfl
    · cases hw'
    · cases hl
  | unbindClient c => exact hforget
  | unregisterClient c => exact hforget
  | isClientBoundToWorker c w =>
    obtain ⟨-, -, rfl⟩ := hown
    have hg' := hkeep (Or.inl rfl) (by simp)
    cases r with
    | false => exact hg'
    | true =>
      simp only [Shared.perform, RegistryState.isClientBoundToWorker, Option.some.injEq,
        Prod.mk.injEq, decide_eq_true_eq] at hperform
      obtain ⟨hb, rfl⟩ := hperform
      refine ⟨hg'.met, fun w' hw' => ?_, hg'.looked, hg'.told⟩
      cases hw'
      exact ⟨hmet w (hi.bindings c w hb), Or.inl hb⟩
  | workerForClient c =>
    obtain ⟨-, -, rfl, -⟩ := hown
    have hg' := hkeep (Or.inl rfl) (by simp)
    cases hperform
    refine ⟨hg'.met, hg'.bound, fun w' hw' => ?_, fun w' ht => by cases ht⟩
    exact ⟨hmet w' (hi.bindings c w' hw'), Or.inl hw'⟩
  | workerSender w =>
    have hg' := hkeep (Or.inl rfl) (by simp)
    have hr : s.shared.registry.workers.lookup w = r := by cases hperform; rfl
    have hshared : sh = s.shared := by cases hperform; rfl
    cases r with
    | none =>
      refine ⟨hg'.met, hg'.bound, hg'.looked, fun w' ht _ => ?_⟩
      cases ht
      refine Or.inr ?_
      show sh.registry.workers.lookup w = none
      rw [hshared, hr]
    | some tx =>
      refine ⟨fun w' hw' => ?_, hg'.bound, hg'.looked, hg'.told⟩
      rcases List.mem_cons.mp hw' with rfl | hw'
      · exact hmet w' (hs.met.registered w' tx hr)
      · exact hg'.met w' hw'
  | send w event =>
    by_cases ht : event = .message (terminateSessionMessage id)
    · have hg' := hkeep (Or.inl rfl) (by rintro _ _ ⟨⟩ ha; rw [ht] at ha; cases ha)
      subst ht
      have hnext : g.next id (.send w (.message (terminateSessionMessage id))) r =
          { g with told := some w } := if_pos rfl
      rw [hnext]
      refine ⟨hg'.met, hg'.bound, hg'.looked, fun w' ht _ => Or.inl ?_⟩
      cases ht
      have hb : ¬ sh.Believes w id := not_believes_tell hperform
      exact hb
    · by_cases ha : event.announces = some id
      · have hnext : g.next id (.send w event) r = { g with told := none } := by
          show (if _ then _ else if _ then _ else _) = _
          rw [if_neg ht, if_pos ha]
        rw [hnext]
        have hshared : sh.registry = s.shared.registry := by cases hperform; rfl
        refine ⟨fun w' hw' => hmet w' (hg.met w' hw'), fun w' hw' => ?_, fun w' hw' => ?_,
          fun w' ht => ?_⟩
        · refine ⟨hmet w' (hg.bound w' hw').1, ?_⟩
          show sh.registry.clientToWorker.lookup id = some w' ∨ sh.registry.workers.lookup w' = none
          rw [hshared]
          exact (hg.bound w' hw').2
        · refine ⟨hmet w' (hg.looked w' hw').1, ?_⟩
          show sh.registry.clientToWorker.lookup id = some w' ∨
            sh.registry.clientToWorker.lookup id = none
          rw [hshared]
          exact (hg.looked w' hw').2
        · cases ht
      · have hnext : g.next id (.send w event) r = g := by
          show (if _ then _ else if _ then _ else _) = _
          rw [if_neg ht, if_neg ha]
        rw [hnext]
        exact hkeep (Or.inl rfl) (by rintro _ _ ⟨⟩; exact ha)
  | unregisterWorker w =>
    refine hkeep ?_ (by simp)
    by_cases hw : s.shared.registry.clientToWorker.lookup id = some w
    · exact Or.inr ⟨w, rfl, hw⟩
    · exact Or.inl (if_neg hw)
  | _ => exact hkeep (Or.inl rfl) (by simp)

/-- Only the task of a client announces it. -/
theorem announces_own (hown : i.OwnedBy peer.role id peer.isOpen peer.handling) {w c : String}
    {event : OutboundEvent} (hi : i = .send w event) (ha : event.announces = some c) : c = id := by
  subst hi
  exact (hown c ha).2.2.1

theorem contactInv_performed (hi : ContactInv s) (hs : Sound cfg s)
    (hpeer : s.peers id = some peer) (hprog : peer.prog = .op i k)
    (hperform : Shared.perform cfg choice s.shared i = some (r, sh)) :
    ContactInv (s.performed id peer choice i k r sh) := by
  have hown := hs.tasks.owned hpeer hprog
  obtain ⟨g, hg, hwp⟩ := hi.tasks id peer hpeer
  rw [hprog] at hwp
  obtain ⟨hok, hnext⟩ := hwp
  have hmet : ∀ w, Met w s.log → Met w (s.performed id peer choice i k r sh).log :=
    fun _ hw => hw.performed
  refine ⟨fun c peer' hp => ?_, fun c w hb => ?_, fun w c hb => ?_⟩
  · rw [peers_performed] at hp
    split at hp
    · next hc =>
      cases hp
      subst hc
      refine ⟨g.next c i r, hg.own hi hs hpeer hprog hperform hok, hnext r ?_⟩
      cases i with
      | workerSender w => cases hperform; exact hs.queues.workers w
      | _ => trivial
    · next hc =>
      obtain ⟨g', hg', hwp'⟩ := hi.tasks c peer' hp
      exact ⟨g', hg'.keep hs hpeer hprog hperform (bindingKept_other hown hc)
        fun w event he ha => hc (announces_own hown he ha), hwp'⟩
  · replace hb : sh.registry.clientToWorker.lookup c = some w := hb
    rw [perform_binding hperform] at hb
    cases i with
    | bindClientToWorker c' w' =>
      simp only [Op.bindingAfter] at hb
      split at hb
      · cases hb; exact hmet w (hg.met w hok)
      · exact hmet w (hi.bindings c w hb)
    | unbindClient c' =>
      simp only [Op.bindingAfter] at hb
      split at hb
      · cases hb
      · exact hmet w (hi.bindings c w hb)
    | unregisterClient c' =>
      simp only [Op.bindingAfter] at hb
      split at hb
      · cases hb
      · exact hmet w (hi.bindings c w hb)
    | unregisterWorker w' =>
      simp only [Op.bindingAfter] at hb
      split at hb
      · cases hb
      · exact hmet w (hi.bindings c w hb)
    | _ => exact hmet w (hi.bindings c w hb)
  · rcases believes_perform hperform hb with hb | ⟨event, rfl, ha⟩
    · exact hmet w (hi.believed w c hb)
    · have hc := announces_own hown rfl ha
      subst hc
      exact hmet w (hg.met w (hok ha).1)

end Advance

theorem Contact.Holds.none (c : String) (s : Server) :
    Contact.Holds ⟨[], none, none, none⟩ c s := by
  refine ⟨fun w hw => ?_, fun w hw => ?_, fun w hw => ?_, fun w hw => ?_⟩ <;> cases hw

theorem contactInv_run {cfg : Config} {as : List ServerAction} {s : Server}
    (h : Run (Server.step cfg) Server.init as s) : ContactInv s := by
  refine h.relative (I := ContactInv) ⟨?_, ?_, ?_⟩ fun as s a s' hr hi _ hs => ?_
  · intro c peer hp; cases hp
  · intro c w hb; cases hb
  · intro w c hb; cases hb
  · cases step_cases hs with
    | spawn id peer log hsp =>
      have hmet : ∀ w, Met w s.log → Met w log := fun w => (hsp.met_iff w).mpr
      refine ⟨fun c peer' hp => ?_, fun c w hb => hmet w (hi.bindings c w hb),
        fun w c hb => hmet w (hi.believed w c hb)⟩
      rw [peers_setPeer] at hp
      split at hp
      · next hc =>
        cases hp
        subst hc
        exact ⟨_, .none _ _, hsp.isSpawned.contact _⟩
      · obtain ⟨g, hg, hwp⟩ := hi.tasks c peer' hp
        exact ⟨g, ⟨fun w hw => hmet w (hg.met w hw), fun w hw => ⟨hmet w (hg.bound w hw).1,
          (hg.bound w hw).2⟩, fun w hw => ⟨hmet w (hg.looked w hw).1, (hg.looked w hw).2⟩,
          hg.told⟩, hwp⟩
    | advance id peer choice i k r sh hpeer hprog hnow hperform =>
      exact contactInv_performed hi (sound_run hr) hpeer hprog hperform
    | rehash registry controllers hreg hc =>
      have hb : ∀ c, registry.clientToWorker.lookup c =
          s.shared.registry.clientToWorker.lookup c := hreg.clientToWorker.lookup
      have hw : ∀ w, registry.workers.lookup w = s.shared.registry.workers.lookup w :=
        hreg.workers.lookup
      refine ⟨fun c peer' hp => ?_, fun c w hbw => hi.bindings c w ((hb c).symm.trans hbw),
        hi.believed⟩
      obtain ⟨g, hg, hwp⟩ := hi.tasks c peer' hp
      refine ⟨g, ⟨hg.met, fun w hgw => ?_, fun w hgw => ?_, fun w ht hl => ?_⟩, hwp⟩
      · rw [hb, hw]; exact hg.bound w hgw
      · rw [hb]; exact hg.looked w hgw
      · rw [hw]; exact hg.told w ht hl

end CloudGame.Signal
