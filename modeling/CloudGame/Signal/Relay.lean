import CloudGame.Lib.Since
import CloudGame.Signal.Effects

/-!
# Relay authorization

The handler of a `ForwardToWorker` command checks the binding of its client and sends in two
steps, and between them the binding may go.  What still holds when it sends is a fact about the
history: the client was bound by its own last accepted `initwebrtc` or `joinRoom`, and only the
client's own task binds or unbinds it.

A task carries that fact as a ghost state (`Standing`): the worker it knows its client to be bound
to, and the worker it found when it looked the binding up.  `relayGhost` says what the task may
send with it; every handler keeps to it (`IsSpawned.wp`).  `relayInv_run` is the resulting
property of every message in the log, and `relay_authorized` states it for each of the commands.
-/

namespace CloudGame.Signal

open CloudGame.Lib

/-! ## What the log tells -/

/-- An accepted `initwebrtc` or `joinRoom` of `c` that named `w`. -/
def Accepted (c w : String) (e : ServerEvent) : Prop :=
  ∃ event data, (event = .initWebrtc ∨ event = .joinRoom) ∧
    e = .performed c (some (.forwardToWorker w event data true)) (.bindClientToWorker c w) ()

/-- `c` is neither bound again nor unbound by a command. -/
def NotRebound (c : String) : ServerEvent → Prop
  | .performed _ _ (.bindClientToWorker c' _) _ => c' ≠ c
  | .performed _ _ (.unbindClient c') _ => c' ≠ c
  | _ => True

/-- The lookup of the binding of `c`, which is `w`, by the task that handles `handling`. -/
def LookedUp (c : String) (handling : Option BrowserCommand) (w : String) (e : ServerEvent) :
    Prop :=
  e = .performed c handling (.workerForClient c) (some w)

def NotReceived (c : String) : ServerEvent → Prop
  | .received c' _ => c' ≠ c
  | _ => True

/-- What is known of a message when it is placed on the queue of `w`. -/
def Authorized (e : ServerEvent) (older : List ServerEvent) : Prop :=
  match e with
  | .performed c handling (.send w (.message msg)) _ =>
    match handling with
    | some (.forwardToWorker _ _ _ _) =>
      msg.sessionId = some c ∧ Since (Accepted c w) (NotRebound c) older
    | some (.terminateSession target) =>
      msg = terminateSessionMessage c ∧
        Since (LookedUp c (some (.terminateSession target)) w) (NotReceived c) older
    | _ => True
  | _ => True

/-! ## The ghost state of a task -/

/-- The worker the task knows its client to be bound to, and the one it looked up. -/
structure Standing where
  bound : Option String
  looked : Option String

/-- What the task `c` may send while it handles `handling`. -/
def relayOk (c : String) (handling : Option BrowserCommand) (g : Standing) : Op → Prop
  | .send tx (.message msg) =>
    match handling with
    | some (.forwardToWorker _ _ _ _) => msg.sessionId = some c ∧ g.bound = some tx
    | some (.terminateSession _) => msg = terminateSessionMessage c ∧ g.looked = some tx
    | _ => True
  | _ => True

def relayAdm : (i : Op) → i.Reply → Prop
  | .workerSender w, r => ∀ tx, r = some tx → tx = w
  | _, _ => True

def Standing.next (g : Standing) : (i : Op) → i.Reply → Standing
  | .bindClientToWorker _ w, _ => { g with bound := some w }
  | .unbindClient _, _ => { g with bound := none }
  | .isClientBoundToWorker _ w, r => if r then { g with bound := some w } else g
  | .workerForClient _, r => { g with looked := r }
  | _, _ => g

def relayGhost (c : String) (handling : Option BrowserCommand) :
    Prog.Ghost Op Op.Reply Standing where
  ok := relayOk c handling
  adm _ := relayAdm
  next := Standing.next

structure Standing.Holds (g : Standing) (c : String) (handling : Option BrowserCommand)
    (log : List ServerEvent) : Prop where
  bound : ∀ w, g.bound = some w → Since (Accepted c w) (NotRebound c) log
  looked : ∀ w, g.looked = some w → Since (LookedUp c handling w) (NotReceived c) log

section Programs

variable {c : String} {handling : Option BrowserCommand} {g : Standing}

/-- `sendToWorker` keeps to the ghost state when its message may go to the worker it names. -/
theorem wp_sendToWorker (w : String) (msg : SignalMessage) {Q : Standing → Unit → Prop}
    (hok : relayOk c handling g (.send w (.message msg))) (hq : Q g ()) :
    (sendToWorker w msg).Wp (relayGhost c handling) Q g := by
  refine ⟨trivial, fun sender hadm => Prog.Wp.whenSome (fun _ => hq) fun tx htx => ?_⟩
  obtain rfl : tx = w := hadm tx htx
  exact ⟨hok, fun _ _ => hq⟩

theorem wp_handleForwardToWorker (w : String) (event : WorkerEventKind) (data : Option String)
    (bindClient : Bool) :
    (handleForwardToWorker c w event data bindClient).Wp
      (relayGhost c (some (.forwardToWorker w event data bindClient))) (fun _ _ => True) g := by
  unfold handleForwardToWorker
  cases bindClient with
  | true =>
    refine ⟨trivial, fun sender _ => ?_⟩
    cases sender with
    | none => trivial
    | some tx => exact ⟨trivial, fun _ _ => wp_sendToWorker w _ ⟨rfl, rfl⟩ trivial⟩
  | false =>
    refine ⟨trivial, fun isBound _ => ?_⟩
    cases isBound with
    | false => trivial
    | true => exact wp_sendToWorker w _ ⟨rfl, rfl⟩ trivial

theorem terminateTarget_eq_some {target bound : Option String} {w : String}
    (h : terminateTarget target bound = some w) : bound = some w := by
  unfold terminateTarget at h
  split at h
  · split at h
    · exact h
    · cases h
  · cases h
  · exact h

theorem wp_handleTerminateSession (target : Option String) :
    (handleTerminateSession c target).Wp (relayGhost c (some (.terminateSession target)))
      (fun _ _ => True) g := by
  refine ⟨trivial, fun bound _ => Prog.Wp.whenSome (fun _ => trivial) fun w htarget => ?_⟩
  have hbound : bound = some w := terminateTarget_eq_some htarget
  refine Prog.Wp.bind (wp_sendToWorker w _ ⟨rfl, hbound⟩ ?_)
  exact ⟨trivial, fun _ _ => trivial⟩

/-- Where nothing is restricted. -/
theorem wp_of_free (hfree : ∀ g i, relayOk c handling g i) (p : ServerM Unit) (g : Standing) :
    p.Wp (relayGhost c handling) (fun _ _ => True) g := by
  have hall : p.All fun _ => True := Prog.all_true p
  exact hall.wp (fun g i _ => hfree g i) g

theorem relayOk_none (g : Standing) (i : Op) : relayOk c none g i := by
  unfold relayOk
  split <;> trivial

theorem IsSpawned.wp {cfg : Config} {peer : Peer} (h : IsSpawned cfg c peer) (g : Standing) :
    peer.prog.Wp (relayGhost c peer.handling) (fun _ _ => True) g := by
  cases hhandling : peer.handling with
  | none => exact wp_of_free relayOk_none _ g
  | some cmd =>
    rw [h.handler hhandling]
    cases cmd with
    | forwardToWorker w event data bind => exact wp_handleForwardToWorker w event data bind
    | terminateSession target => exact wp_handleTerminateSession target
    | _ => exact wp_of_free (fun g i => by unfold relayOk; split <;> trivial) _ g

end Programs

/-! ## The invariant -/

structure RelayInv (s : Server) : Prop where
  bindings : ∀ c w, s.shared.registry.clientToWorker.lookup c = some w →
    Since (Accepted c w) (NotRebound c) s.log
  tasks : ∀ c peer, s.peers c = some peer → ∃ g : Standing, g.Holds c peer.handling s.log ∧
    peer.prog.Wp (relayGhost c peer.handling) (fun _ _ => True) g
  relayed : Throughout Authorized s.log

theorem relayInv_init : RelayInv Server.init where
  bindings c w h := by cases h
  tasks c peer h := by cases h
  relayed := throughout_nil _

theorem Standing.Holds.none (c : String) (handling : Option BrowserCommand)
    (log : List ServerEvent) : Standing.Holds ⟨none, none⟩ c handling log where
  bound w h := by cases h
  looked w h := by cases h

/-- What another task does, or being handed a message, leaves the standing of `c` as it is. -/
theorem Standing.Holds.cons {g : Standing} {c : String} {handling : Option BrowserCommand}
    {log : List ServerEvent} {e : ServerEvent} (h : g.Holds c handling log) (hb : NotRebound c e)
    (hl : NotReceived c e) : g.Holds c handling (e :: log) where
  bound w hw := since_cons.mpr (Or.inr ⟨hb, h.bound w hw⟩)
  looked w hw := since_cons.mpr (Or.inr ⟨hl, h.looked w hw⟩)

theorem relayInv_spawn {cfg : Config} {s : Server} {a : ServerAction} {id : String} {peer : Peer}
    {log : List ServerEvent} (hi : RelayInv s) (h : Spawns cfg s a id peer log) :
    RelayInv { s.setPeer id peer with log := log } := by
  -- the log grows at most by the message handed to the task
  have hlog : log = s.log ∨ ∃ req, log = .received id req :: s.log := by
    cases h with
    | connect role hnew => exact Or.inl rfl
    | receive old req _ _ _ => exact Or.inr ⟨req, rfl⟩
    | disconnect old _ _ _ => exact Or.inl rfl
  refine ⟨fun c w hw => ?_, fun c peer' hp => ?_, ?_⟩
  · have hs := hi.bindings c w hw
    rcases hlog with rfl | ⟨req, rfl⟩
    · exact hs
    · exact since_cons.mpr (Or.inr ⟨trivial, hs⟩)
  · rw [peers_setPeer] at hp
    split at hp
    · next hc =>
      cases hp
      subst hc
      exact ⟨⟨none, none⟩, .none _ _ _, h.isSpawned.wp _⟩
    · next hc =>
      obtain ⟨g, hg, hwp⟩ := hi.tasks c peer' hp
      refine ⟨g, ?_, hwp⟩
      rcases hlog with rfl | ⟨req, rfl⟩
      · exact hg
      · exact hg.cons trivial fun he => hc he.symm
  · rcases hlog with rfl | ⟨req, rfl⟩
    · exact hi.relayed
    · exact throughout_cons.mpr ⟨trivial, hi.relayed⟩

section Advance

variable {cfg : Config} {s : Server} {id : String} {peer : Peer} {choice : Choice} {i : Op}
  {k : i.Reply → ServerM Unit} {r : i.Reply} {sh : Shared}

/-- Only the task of a client rebinds it. -/
theorem notRebound_performed (hown : i.OwnedBy peer.role id peer.isOpen peer.handling) {c : String}
    (hc : c ≠ id) : NotRebound c (.performed id peer.handling i r) := by
  cases i with
  | bindClientToWorker c' w => exact fun he => hc (he ▸ hown.2.2.1)
  | unbindClient c' => exact fun he => hc (he ▸ hown.2.2.1)
  | _ => trivial

theorem relayAdm_perform (hq : OwnQueues s)
    (hperform : Shared.perform cfg choice s.shared i = some (r, sh)) : relayAdm i r := by
  cases i with
  | workerSender w => cases hperform; exact hq.workers w
  | _ => trivial

/-- The binding of `c` after a step is the one its last accepted message named. -/
theorem bindings_performed (hi : RelayInv s)
    (hown : i.OwnedBy peer.role id peer.isOpen peer.handling)
    (hperform : Shared.perform cfg choice s.shared i = some (r, sh)) (c w : String)
    (hw : sh.registry.clientToWorker.lookup c = some w) :
    Since (Accepted c w) (NotRebound c) (.performed id peer.handling i r :: s.log) := by
  rw [perform_binding hperform] at hw
  rw [since_cons]
  cases i with
  | bindClientToWorker c' w' =>
    simp only [Op.bindingAfter] at hw
    split at hw
    · next hc =>
      obtain ⟨-, -, hid, event, data, hev, hh⟩ := hown
      cases hw
      exact Or.inl ⟨event, data, hev, by rw [hh, hc, hid]⟩
    · next hc => exact Or.inr ⟨fun he => hc he.symm, hi.bindings c w hw⟩
  | unbindClient c' =>
    simp only [Op.bindingAfter] at hw
    split at hw
    · cases hw
    · next hc => exact Or.inr ⟨fun he => hc he.symm, hi.bindings c w hw⟩
  | unregisterClient c' =>
    simp only [Op.bindingAfter] at hw
    split at hw
    · cases hw
    · exact Or.inr ⟨trivial, hi.bindings c w hw⟩
  | unregisterWorker w' =>
    simp only [Op.bindingAfter] at hw
    split at hw
    · cases hw
    · exact Or.inr ⟨trivial, hi.bindings c w hw⟩
  | _ => exact Or.inr ⟨trivial, hi.bindings c w hw⟩

/-- The standing of the task that performs the operation. -/
theorem holds_performed (hi : RelayInv s) (hown : i.OwnedBy peer.role id peer.isOpen peer.handling)
    (hperform : Shared.perform cfg choice s.shared i = some (r, sh)) {g : Standing}
    (hg : g.Holds id peer.handling s.log) :
    (g.next i r).Holds id peer.handling (.performed id peer.handling i r :: s.log) := by
  have hbound := bindings_performed hi hown hperform id
  cases i with
  | bindClientToWorker c w =>
    obtain ⟨-, -, rfl, -⟩ := hown
    refine ⟨fun w' hw' => hbound w' ?_,
      fun w' hw' => since_cons.mpr (Or.inr ⟨trivial, hg.looked w' hw'⟩)⟩
    rw [perform_binding hperform]
    simpa [Op.bindingAfter, Standing.next] using hw'
  | unbindClient c =>
    refine ⟨fun w' hw' => ?_, fun w' hw' => since_cons.mpr (Or.inr ⟨trivial, hg.looked w' hw'⟩)⟩
    cases hw'
  | isClientBoundToWorker c w =>
    obtain ⟨-, -, rfl⟩ := hown
    cases r with
    | false => exact hg.cons trivial trivial
    | true =>
      refine ⟨fun w' hw' => hbound w' ?_,
        fun w' hw' => since_cons.mpr (Or.inr ⟨trivial, hg.looked w' hw'⟩)⟩
      simp only [Shared.perform, RegistryState.isClientBoundToWorker, Option.some.injEq,
        Prod.mk.injEq, decide_eq_true_eq] at hperform
      obtain ⟨hb, rfl⟩ := hperform
      rw [hb]
      simpa [Standing.next] using hw'
  | workerForClient c =>
    obtain ⟨-, -, rfl, -⟩ := hown
    refine ⟨fun w' hw' => since_cons.mpr (Or.inr ⟨trivial, hg.bound w' hw'⟩), fun w' hw' => ?_⟩
    have hr : r = some w' := hw'
    subst hr
    exact since_cons.mpr (Or.inl rfl)
  | _ => exact hg.cons trivial trivial

theorem authorized_performed {g : Standing} (hg : g.Holds id peer.handling s.log)
    (hok : relayOk id peer.handling g i) : Authorized (.performed id peer.handling i r) s.log := by
  cases i with
  | send tx event =>
    cases event with
    | close => trivial
    | message msg =>
      generalize peer.handling = handling at hg hok
      cases handling with
      | none => trivial
      | some cmd =>
        cases cmd with
        | forwardToWorker w event data bind => exact ⟨hok.1, hg.bound tx hok.2⟩
        | terminateSession target => exact ⟨hok.1, hg.looked tx hok.2⟩
        | _ => trivial
  | _ => trivial

theorem relayInv_performed (hi : RelayInv s) (ht : TaskInv cfg s) (hq : OwnQueues s)
    (hpeer : s.peers id = some peer)
    (hprog : peer.prog = .op i k)
    (hperform : Shared.perform cfg choice s.shared i = some (r, sh)) :
    RelayInv (s.performed id peer choice i k r sh) := by
  have hown := ht.owned hpeer hprog
  obtain ⟨g, hg, hwp⟩ := hi.tasks id peer hpeer
  rw [hprog] at hwp
  obtain ⟨hok, hnext⟩ := hwp
  have hb := bindings_performed hi hown hperform
  refine ⟨fun c w hw => hb c w hw, fun c peer' hp => ?_, ?_⟩
  · rw [peers_performed] at hp
    split at hp
    · next hc =>
      cases hp
      subst hc
      exact ⟨g.next i r, holds_performed hi hown hperform hg,
        hnext r (relayAdm_perform hq hperform)⟩
    · next hc =>
      obtain ⟨g', hg', hwp'⟩ := hi.tasks c peer' hp
      exact ⟨g', hg'.cons (notRebound_performed hown hc) trivial, hwp'⟩
  · exact throughout_cons.mpr ⟨authorized_performed hg hok, hi.relayed⟩

end Advance

theorem relayInv_run {cfg : Config} {as : List ServerAction} {s : Server}
    (h : Run (Server.step cfg) Server.init as s) : RelayInv s := by
  refine h.relative (I := RelayInv) relayInv_init fun as s a s' hr hi _ hs => ?_
  cases step_cases hs with
  | spawn id peer log hsp => exact relayInv_spawn hi hsp
  | advance id peer choice i k r sh hpeer hprog hnow hperform =>
    exact relayInv_performed hi (taskInv_run hr) (ownQueues_run hr) hpeer hprog hperform
  | rehash registry controllers hreg hc =>
    refine ⟨fun c w hw => hi.bindings c w ?_, hi.tasks, hi.relayed⟩
    rw [← hreg.clientToWorker.lookup]
    exact hw

/-! ## The result -/

/-- **Relay authorization.**  Whatever the tasks of the connections do and in whatever order:
an answer, candidate or input that a `ForwardToWorker` command of `c` placed on the queue of `w`
carries `c`, and the last accepted `initwebrtc` or `joinRoom` of `c` named `w` and no command of
`c` has unbound it since; a `terminateSession` that a `TerminateSession` command of `c` placed
there carries `c`, and that command found `c` bound to `w`. -/
theorem relay_authorized {cfg : Config} {as : List ServerAction} {s : Server}
    (h : Run (Server.step cfg) Server.init as s) (c w : String) :
    (∀ newer older w' event data bindClient msg,
      s.log = newer ++ .performed c (some (.forwardToWorker w' event data bindClient))
        (.send w (.message msg)) () :: older →
      msg.id = SignalIds.answer ∨ msg.id = SignalIds.candidate ∨ msg.id = SignalIds.input →
      msg.sessionId = some c ∧ Since (Accepted c w) (NotRebound c) older) ∧
    (∀ newer older target msg,
      s.log = newer ++ .performed c (some (.terminateSession target))
        (.send w (.message msg)) () :: older →
      msg.id = SignalIds.terminateSession →
      msg.sessionId = some c ∧
        Since (LookedUp c (some (.terminateSession target)) w) (NotReceived c) older) := by
  have hi := relayInv_run h
  constructor
  · intro newer older w' event data bindClient msg hlog _
    exact hi.relayed newer _ older hlog
  · intro newer older target msg hlog _
    obtain ⟨hmsg, hs⟩ := hi.relayed newer _ older hlog
    exact ⟨by rw [hmsg]; rfl, hs⟩

/-- The message placed last, by whom and for which command. -/
def lastPlaced : List ServerEvent → Option (String × Option BrowserCommand × Tx × SignalMessage)
  | .performed c handling (.send tx (.message msg)) _ :: _ => some (c, handling, tx, msg)
  | _ => none

theorem lastPlaced_eq_some {log : List ServerEvent} {c : String} {handling : Option BrowserCommand}
    {tx : Tx} {msg : SignalMessage} (h : lastPlaced log = some (c, handling, tx, msg)) :
    ∃ older, log = .performed c handling (.send tx (.message msg)) () :: older := by
  unfold lastPlaced at h
  split at h
  · cases h; exact ⟨_, rfl⟩
  · cases h

/-- A worker and a browser connect; the browser starts a session, names another worker in an
input and in a `terminateSession`, and then names its own in both. -/
def relayRun : List ServerAction :=
  .connect "worker" .worker :: advances "worker" 1 ++
    .connect "browser" .browser :: advances "browser" 5 ++
    .receive "browser" ⟨"initwebrtc", none, some "worker"⟩ :: advances "browser" 4 ++
    .receive "browser" ⟨"input", some "1", some "other"⟩ :: advances "browser" 1 ++
    .receive "browser" ⟨"terminateSession", none, some "other"⟩ :: advances "browser" 1 ++
    .receive "browser" ⟨"input", some "1", some "worker"⟩ :: advances "browser" 3

theorem relay_authorized_input :
    ∃ s older, exec (Server.step plainConfig) Server.init relayRun = some s ∧
      s.log = .performed "browser" (some (.forwardToWorker "worker" .input (some "1") false))
        (.send "worker" (.message ⟨"input", some "1", some "browser"⟩)) () :: older ∧
      Since (Accepted "browser" "worker") (NotRebound "browser") older := by
  have hrun : (exec (Server.step plainConfig) Server.init relayRun).isSome = true := by
    decide +kernel
  obtain ⟨s, hs⟩ := Option.isSome_iff_exists.mp hrun
  have hlast : (exec (Server.step plainConfig) Server.init relayRun).bind
      (fun s => lastPlaced s.log) =
      some ("browser", some (.forwardToWorker "worker" .input (some "1") false), "worker",
        ⟨"input", some "1", some "browser"⟩) := by decide +kernel
  rw [hs] at hlast
  obtain ⟨older, hlog⟩ := lastPlaced_eq_some hlast
  exact ⟨s, older, hs, hlog,
    ((relay_authorized (exec_run hs) "browser" "worker").1 [] older _ _ _ _ _ hlog
      (Or.inr (Or.inr rfl))).2⟩

end CloudGame.Signal
