import CloudGame.Signal.Bindings
import Mathlib.Data.Finset.Basic

/-!
# The controllers a host is told of

A host adds the controller of every `controllerJoined` on its queue to its list and removes the one
of every `controllerLeft` (`hooks/usePhoneControllerHost.js`).  The directory has a route for each
controller.  A join makes the route and tells the host afterwards; a cleanup removes the route and
tells the host afterwards; and a join under another host's code replaces the route and tells the
former host nothing.  A host that was dropped with its worker is told nothing either, while its code
stays good and its socket is still open.

`Guest` is what the task of a controller knows of its own route to one host and of what that host
was told: `guestGhost` says which of the messages it may send and `IsSpawned.guest` that every
program ends with the two in agreement.  `GuestInv` is that for all tasks, hosts and states.

`controllerList_agrees`: in a run in which no controller leaves a connected host for another one and
every connected host that is to be told is still registered, no handler being in progress, the list
of a connected host is that of the routes to it.
-/

namespace CloudGame.Signal

open CloudGame.Lib

/-! ## The list of a host -/

/-- What an event tells a host: the controller, and whether it joined or left. -/
def controllerNews : OutboundEvent → Option (String × Bool)
  | .message msg =>
    if msg.id = SignalIds.controllerJoined then msg.sessionId.map fun c => (c, true)
    else if msg.id = SignalIds.controllerLeft then msg.sessionId.map fun c => (c, false)
    else none
  | .close => none

/-- `handleSocketMessage`: `addController` or `removeController`, whose guards against an empty id
are left out, since no peer has one. -/
def handleSocketMessage (connectedControllerIds : Finset String) (event : OutboundEvent) :
    Finset String :=
  match controllerNews event with
  | some (c, true) => insert c connectedControllerIds
  | some (c, false) => connectedControllerIds.erase c
  | none => connectedControllerIds

/-- The list after the events of a queue, which has the newest first. -/
def controllerList (queue : List OutboundEvent) : Finset String :=
  queue.foldr (fun event controllers => handleSocketMessage controllers event) ∅

/-- Whether `c` is on the list after an event. -/
def listedAfter (c : String) (before : Bool) (event : OutboundEvent) : Bool :=
  match controllerNews event with
  | some (x, joined) => if x = c then joined else before
  | none => before

theorem listedAfter_eq (c : String) (queue : List OutboundEvent) (event : OutboundEvent) :
    decide (c ∈ controllerList (event :: queue)) =
      listedAfter c (decide (c ∈ controllerList queue)) event := by
  show decide (c ∈ handleSocketMessage (controllerList queue) event) = _
  unfold handleSocketMessage listedAfter
  split
  · next x hnews =>
    rw [hnews]
    by_cases hx : x = c
    · simp [hx]
    · simp [hx, Ne.symm hx]
  · next x hnews =>
    rw [hnews]
    by_cases hx : x = c
    · simp [hx]
    · simp [hx, Ne.symm hx]
  · next hnews => rw [hnews]

theorem controllerNews_joined (c : String) :
    controllerNews (.message (controllerJoinedMessage c)) = some (c, true) := rfl

theorem controllerNews_left (c : String) :
    controllerNews (.message (controllerLeftMessage c)) = some (c, false) := rfl

/-- The controller `c` has a route to `h`. -/
def Shared.routed (sh : Shared) (h c : String) : Bool :=
  (sh.controllers.controllerToHost.lookup c).any fun route => decide (route.hostClientId = h)

def Shared.listed (sh : Shared) (h c : String) : Bool :=
  decide (c ∈ controllerList (sh.queues h))

theorem routed_iff {sh : Shared} {h c : String} :
    sh.routed h c = true ↔ ∃ route, sh.controllers.controllerToHost.lookup c = some route ∧
      route.hostClientId = h := by
  simp [Shared.routed, Option.any_eq_true]

/-! ## What a task tells a host -/

/-- Whether the controller has a route to the host and is on its list. -/
structure Guest where
  routed : Bool
  listed : Bool

/-- News on the queue of `h` comes from the task of its controller and is true. -/
def guestOk (h c : String) (g : Guest) : Op → Prop
  | .send tx event =>
    tx = h → ∀ x joined, controllerNews event = some (x, joined) → x = c ∧ joined = g.routed
  | _ => True

/-- The replies to task `c` while `h` is connected, has not joined anybody, can be told what it does
not know, and no controller leaves it for another host. -/
def guestAdm (h c : String) (g : Guest) : (i : Op) → i.Reply → Prop
  | .clientSender x, r => (∀ tx, r = some tx → tx = x) ∧
      (x = h → g.routed ≠ g.listed → r = some h)
  | .join _ _, r => ∀ target, r = .ok target →
      c ≠ h ∧ (g.routed = true → target.hostClientId = h)
  | .cleanupPeer _, out => (out.notifyHost = some h ↔ g.routed = true) ∧
      h ∉ out.notifyControllers
  | _, _ => True

def Guest.next (h c : String) (g : Guest) : (i : Op) → i.Reply → Guest
  | .join _ _, .ok target => { g with routed := decide (target.hostClientId = h) }
  | .cleanupPeer _, _ => { g with routed := false }
  | .send tx event, _ => if tx = h then { g with listed := listedAfter c g.listed event } else g
  | _, _ => g

def guestGhost (h c : String) : Prog.Ghost Op Op.Reply Guest where
  ok := guestOk h c
  adm := guestAdm h c
  next := Guest.next h c

/-- The host is told what is so. -/
def Guest.Agrees (g : Guest) : Prop := g.listed = g.routed

/-- The operations that make no route, remove none and send no news. -/
def Op.IsQuiet : Op → Prop
  | .join _ _ => False
  | .cleanupPeer _ => False
  | .send _ event => controllerNews event = none
  | _ => True

section Programs

variable {h c : String} {g : Guest}

/-- Who is on the list after an operation was on it, or has a route. -/
theorem Guest.listed_next {i : Op} {r : i.Reply} (hok : guestOk h c g i)
    (hlisted : (g.next h c i r).listed = true) : g.routed = true ∨ g.listed = true := by
  cases i with
  | join x code => cases r with
    | ok target => exact Or.inr hlisted
    | error e => exact Or.inr hlisted
  | send tx event =>
    simp only [Guest.next] at hlisted
    split at hlisted
    · next htx =>
      replace hlisted : listedAfter c g.listed event = true := hlisted
      unfold listedAfter at hlisted
      split at hlisted
      · next x joined hnews =>
        obtain ⟨rfl, rfl⟩ := hok htx x joined hnews
        exact Or.inl (by simpa using hlisted)
      · exact Or.inr hlisted
    · exact Or.inr hlisted
  | _ => exact Or.inr hlisted

/-- True news leaves a host informed that was. -/
theorem Guest.agrees_next {i : Op} {r : i.Reply} (hok : guestOk h c g i)
    (hjoin : ∀ x code, i ≠ .join x code) (hcleanup : ∀ x, i ≠ .cleanupPeer x) (hg : g.Agrees) :
    (g.next h c i r).Agrees := by
  cases i with
  | join x code => exact absurd rfl (hjoin x code)
  | cleanupPeer x => exact absurd rfl (hcleanup x)
  | send tx event =>
    simp only [Guest.next]
    split
    · next htx =>
      show listedAfter c g.listed event = g.routed
      unfold listedAfter
      split
      · next x joined hnews =>
        obtain ⟨rfl, rfl⟩ := hok htx x joined hnews
        exact if_pos rfl
      · exact hg
    · exact hg
  | _ => exact hg

theorem Op.IsQuiet.ok {i : Op} (hi : i.IsQuiet) (g : Guest) : guestOk h c g i := by
  cases i with
  | send tx event =>
    intro _ x joined hnews
    rw [show controllerNews event = none from hi] at hnews
    cases hnews
  | _ => trivial

theorem Op.IsQuiet.next {i : Op} (hi : i.IsQuiet) (g : Guest) (r : i.Reply) :
    g.next h c i r = g := by
  cases i with
  | join x code => exact absurd hi id
  | cleanupPeer x => exact absurd hi id
  | send tx event =>
    have hnone : controllerNews event = none := hi
    simp [Guest.next, listedAfter, hnone]
  | _ => rfl

theorem wp_quiet {p : ServerM Unit} {Q : Guest → Unit → Prop} (hp : p.All Op.IsQuiet)
    (hq : Q g ()) : p.Wp (guestGhost h c) Q g :=
  hp.wp_same (fun _ hi => hi.ok g) (fun _ r hi => hi.next g r) fun _ => hq

theorem quiet_sendToWorker {w : String} {msg : SignalMessage}
    (hnews : controllerNews (.message msg) = none) : (sendToWorker w msg).All Op.IsQuiet :=
  ⟨trivial, fun _ => Prog.All.whenSome fun _ => ⟨hnews, fun _ => trivial⟩⟩

theorem quiet_sendToClient {x : String} {msg : SignalMessage}
    (hnews : controllerNews (.message msg) = none) : (sendToClient x msg).All Op.IsQuiet :=
  ⟨trivial, fun _ => Prog.All.whenSome fun _ => ⟨hnews, fun _ => trivial⟩⟩

theorem quiet_broadcastToClients {msg : SignalMessage}
    (hnews : controllerNews (.message msg) = none) : (broadcastToClients msg).All Op.IsQuiet :=
  ⟨trivial, fun _ => Prog.All.each fun _ _ => ⟨hnews, fun _ => trivial⟩⟩

theorem news_forwardToWorkerMessage (event : WorkerEventKind) (x : String) (data : Option String) :
    controllerNews (.message (forwardToWorkerMessage event x data)) = none := by
  cases event <;> rfl

theorem news_forwardToClientMessage (event : ClientEventKind) (x : String) (data : Option String) :
    controllerNews (.message (forwardToClientMessage event x data)) = none := by
  cases event <;> rfl

/-- A message to somebody else. -/
theorem wp_sendToOther {x : String} (hx : x ≠ h) (msg : SignalMessage)
    {Q : Guest → Unit → Prop} (hq : Q g ()) :
    (sendToClient x msg).Wp (guestGhost h c) Q g := by
  refine ⟨trivial, fun sender hadm => Prog.Wp.whenSome (fun _ => hq) fun tx hsender => ?_⟩
  have htx : tx ≠ h := fun he => hx ((hadm.1 tx hsender).symm.trans he)
  refine ⟨fun he => absurd he htx, fun _ _ => ?_⟩
  have hsame : g.next h c (.send tx (.message msg)) () = g := if_neg htx
  show Q (g.next h c (.send tx (.message msg)) ()) ()
  rw [hsame]
  exact hq

/-- News for the host, which is told unless it knows. -/
theorem wp_sendToHost {msg : SignalMessage} {joined : Bool}
    (hnews : controllerNews (.message msg) = some (c, joined)) (htrue : joined = g.routed)
    {Q : Guest → Unit → Prop} (hq : Q { g with listed := joined } ()) :
    (sendToClient h msg).Wp (guestGhost h c) Q g := by
  refine ⟨trivial, fun sender hadm => Prog.Wp.whenSome (fun hnone => ?_) fun tx hsender => ?_⟩
  · -- nobody is told, so the list is right
    have hknown : g.routed = g.listed := by
      by_contra hne
      rw [hadm.2 rfl hne] at hnone
      cases hnone
    have hsame : ({ g with listed := joined } : Guest) = g :=
      congrArg (Guest.mk g.routed) (htrue.trans hknown)
    rwa [hsame] at hq
  · obtain rfl : tx = h := hadm.1 tx hsender
    refine ⟨fun _ x joined' hnews' => ?_, fun _ _ => ?_⟩
    · rw [hnews] at hnews'
      cases hnews'
      exact ⟨rfl, htrue⟩
    · have hnext : g.next tx c (.send tx (.message msg)) () = { g with listed := joined } := by
        simp [Guest.next, listedAfter, hnews]
      show Q (g.next tx c (.send tx (.message msg)) ()) ()
      rw [hnext]
      exact hq

theorem guest_handleControllerJoin (code : String) (hg : g.Agrees) :
    (handleControllerJoin c code).Wp (guestGhost h c) (fun g' _ => g'.Agrees) g := by
  refine ⟨trivial, fun result hadm => ?_⟩
  cases result with
  | error reason => exact wp_quiet (quiet_sendToClient (by rfl)) hg
  | ok target =>
    obtain ⟨hc, hstay⟩ := hadm target rfl
    show Prog.Wp _ _ (sendToClient c (controllerJoinedMessage target.hostClientId) >>= _) _
    refine Prog.Wp.bind (wp_sendToOther hc _ ?_)
    refine Prog.Wp.bind ?_
    have hrest : ∀ g' : Guest, g'.Agrees →
        (sendToWorker target.workerId (forwardToWorkerMessage .joinRoom c none)).Wp
          (guestGhost h c) (fun g' _ => g'.Agrees) g' :=
      fun g' hg' => wp_quiet (quiet_sendToWorker (news_forwardToWorkerMessage _ _ _)) hg'
    by_cases hhost : target.hostClientId = h
    · rw [hhost]
      refine wp_sendToHost (controllerNews_joined c) ?_ (hrest _ ?_)
      · simp [Guest.next, guestGhost, hhost]
      · simp [Guest.next, guestGhost, hhost, Guest.Agrees]
    · refine wp_sendToOther hhost _ (hrest _ ?_)
      -- the controller was not on the list, since it had no route
      have hfree : g.routed = false := by
        cases hr : g.routed with
        | false => rfl
        | true => exact absurd (hstay hr) hhost
      have hlisted : g.listed = false := hg.trans hfree
      simp [Guest.next, guestGhost, hhost, Guest.Agrees, hlisted]

theorem guest_cleanupBrowser (hg : g.Agrees) :
    (cleanupBrowser c).Wp (guestGhost h c) (fun g' _ => g'.Agrees) g := by
  refine ⟨trivial, fun out hadm => ?_⟩
  obtain ⟨hhost, hcontrollers⟩ := hadm
  refine ⟨trivial, fun dropped _ => ?_⟩
  show Prog.Wp _ _ (Prog.whenSome dropped (fun w => sendToWorker w (terminateSessionMessage c)) >>=
    _) { g with routed := false }
  refine Prog.Wp.bind (wp_quiet (Prog.All.whenSome fun _ => quiet_sendToWorker (by rfl)) ?_)
  refine Prog.Wp.bind ?_
  have hrest : ∀ g' : Guest, g'.Agrees →
      (Prog.each out.notifyControllers (fun controllerClientId =>
          sendToClient controllerClientId (controllerLeftMessage c)) >>= fun _ =>
        Prog.each out.workerTerminations fun termination =>
          sendToWorker termination.1 (terminateSessionMessage termination.2)).Wp
        (guestGhost h c) (fun g' _ => g'.Agrees) g' := by
    intro g' hg'
    have hothers : ∀ x ∈ out.notifyControllers, ∀ g' : Guest, g'.Agrees →
        (sendToClient x (controllerLeftMessage c)).Wp (guestGhost h c)
          (fun g' _ => g'.Agrees) g' := by
      intro x hx g' hg'
      refine wp_sendToOther ?_ _ hg'
      rintro rfl
      exact hcontrollers hx
    refine Prog.Wp.bind ((Prog.Wp.each hothers hg').mono fun g' _ hg' => ?_)
    exact wp_quiet (Prog.All.each fun _ _ => quiet_sendToWorker (by rfl)) hg'
  -- whoever is not told had no route
  have hfree : out.notifyHost ≠ some h → Guest.Agrees { g with routed := false } := by
    intro hne
    have hrouted : g.routed = false := by
      cases hr : g.routed with
      | false => rfl
      | true => exact absurd (hhost.mpr hr) hne
    exact hg.trans hrouted
  cases hnotify : out.notifyHost with
  | none => exact hrest _ (hfree (by rw [hnotify]; simp))
  | some x =>
    by_cases hx : x = h
    · subst hx
      show Prog.Wp _ _ (sendToClient x (controllerLeftMessage c)) _
      refine wp_sendToHost (g := { g with routed := false }) (controllerNews_left c) rfl ?_
      exact hrest { routed := false, listed := false } rfl
    · exact wp_sendToOther hx _ (hrest _ (hfree (by rw [hnotify]; simpa using hx)))

theorem quiet_handleForwardToWorker (w : String) (event : WorkerEventKind) (data : Option String)
    (bindClient : Bool) : (handleForwardToWorker c w event data bindClient).All Op.IsQuiet := by
  have hsend : (sendToWorker w (forwardToWorkerMessage event c data)).All Op.IsQuiet :=
    quiet_sendToWorker (news_forwardToWorkerMessage event c data)
  unfold handleForwardToWorker
  cases bindClient with
  | true =>
    refine ⟨trivial, fun sender => ?_⟩
    cases sender with
    | none => trivial
    | some tx => exact ⟨trivial, fun _ => hsend⟩
  | false =>
    refine ⟨trivial, fun isBound => ?_⟩
    cases isBound with
    | false => trivial
    | true => exact hsend

theorem quiet_handleBrowserCommand (cfg : Config) (cmd : BrowserCommand)
    (hjoin : ∀ code, cmd ≠ .controllerJoin code) :
    (handleBrowserCommand cfg c cmd).All Op.IsQuiet := by
  cases cmd with
  | requestGames => exact ⟨trivial, fun _ => quiet_sendToClient rfl⟩
  | forwardToWorker w event data bindClient =>
    exact quiet_handleForwardToWorker w event data bindClient
  | terminateSession target =>
    refine ⟨trivial, fun bound => Prog.All.whenSome fun w => ?_⟩
    exact (quiet_sendToWorker (by rfl)).bind fun _ => ⟨trivial, fun _ => trivial⟩
  | controllerHost w =>
    refine ⟨trivial, fun isBound => ?_⟩
    cases isBound with
    | false => trivial
    | true => exact ⟨trivial, fun _ => quiet_sendToClient rfl⟩
  | controllerJoin code => exact absurd rfl (hjoin code)
  | controllerInput host data =>
    exact ⟨trivial, fun _ =>
      Prog.All.whenSome fun _ => quiet_sendToWorker (news_forwardToWorkerMessage _ _ _)⟩
  | controllerAudio host action =>
    exact ⟨trivial, fun _ => Prog.All.whenSome fun _ => quiet_sendToClient rfl⟩

theorem quiet_handleWorkerCommand (cmd : WorkerCommand) :
    (handleWorkerCommand c cmd).All Op.IsQuiet := by
  cases cmd with
  | gameInfo game =>
    refine ⟨trivial, fun changed => ?_⟩
    cases changed with
    | false => trivial
    | true => exact ⟨trivial, fun _ => quiet_broadcastToClients rfl⟩
  | forwardToClient x event data =>
    exact quiet_sendToClient (news_forwardToClientMessage event x data)
  | updatePlayerCount count => exact ⟨trivial, fun _ => quiet_broadcastToClients rfl⟩

theorem guest_handleBrowserCommand (cfg : Config) (cmd : BrowserCommand) (hg : g.Agrees) :
    (handleBrowserCommand cfg c cmd).Wp (guestGhost h c) (fun g' _ => g'.Agrees) g := by
  cases cmd with
  | controllerJoin code => exact guest_handleControllerJoin code hg
  | _ => exact wp_quiet (quiet_handleBrowserCommand cfg _ nofun) hg

theorem quiet_startProg (cfg : Config) (role : PeerRole) :
    (startProg cfg role c).All Op.IsQuiet := by
  cases role with
  | browser =>
    refine ⟨trivial, fun _ => ⟨trivial, fun _ => ⟨trivial, fun _ => ⟨rfl, fun _ => ?_⟩⟩⟩⟩
    exact ⟨trivial, fun _ => Prog.All.each fun _ _ => ⟨rfl, fun _ => trivial⟩⟩
  | worker => exact ⟨trivial, fun _ => trivial⟩

theorem quiet_handleWorkerMessage (req : SignalMessage) :
    (handleWorkerMessage c req).All Op.IsQuiet := by
  unfold handleWorkerMessage
  split
  · exact quiet_handleWorkerCommand _
  · trivial

theorem quiet_cleanupWorker : (cleanupWorker c).All Op.IsQuiet := by
  refine ⟨trivial, fun clients => ?_⟩
  refine (Prog.All.each fun client _ => ?_).bind fun _ => ?_
  · exact ⟨rfl, fun _ => trivial⟩
  · exact ⟨trivial, fun _ => quiet_broadcastToClients rfl⟩

/-- Every program keeps the host informed. -/
theorem IsSpawned.guest {cfg : Config} {peer : Peer} (hp : IsSpawned cfg c peer)
    (hg : g.Agrees) : peer.prog.Wp (guestGhost h c) (fun g' _ => g'.Agrees) g := by
  cases hp with
  | start role => exact wp_quiet (quiet_startProg cfg role) hg
  | message role req =>
    cases role with
    | browser =>
      show (handleBrowserMessage cfg c req).Wp _ _ _
      unfold handleBrowserMessage
      cases parseBrowserCommand req with
      | error e => exact hg
      | ok cmd => exact guest_handleBrowserCommand cfg cmd hg
    | worker => exact wp_quiet (quiet_handleWorkerMessage req) hg
  | cleanup role =>
    cases role with
    | browser => exact guest_cleanupBrowser hg
    | worker => exact wp_quiet quiet_cleanupWorker hg

end Programs

/-! ## Who has joined, and who counts -/

def ServerEvent.joins (c : String) : ServerEvent → Bool
  | .performed id _ (.join _ _) (.ok _) => decide (id = c)
  | _ => false

/-- The client has joined a host as its controller. -/
def Joined (c : String) (log : List ServerEvent) : Prop := ∃ e ∈ log, e.joins c = true

instance (c : String) (log : List ServerEvent) : Decidable (Joined c log) :=
  inferInstanceAs (Decidable (∃ e ∈ log, _))

theorem Joined.mono {c : String} {log log' : List ServerEvent} (h : Joined c log)
    (hsub : ∀ e ∈ log, e ∈ log') : Joined c log' := by
  obtain ⟨e, hmem, he⟩ := h
  exact ⟨e, hsub e hmem, he⟩

/-- The peer is a browser, connected or not. -/
def Server.HasBrowser (s : Server) (h : String) : Prop :=
  ∃ peer, s.peers h = some peer ∧ peer.role = .browser

theorem Server.HasBrowser.spawned {cfg : Config} {s : Server} {a : ServerAction} {id h : String}
    {peer : Peer} {log : List ServerEvent} (hb : s.HasBrowser h)
    (hsp : Spawns cfg s a id peer log) :
    Server.HasBrowser { s.setPeer id peer with log := log } h := by
  obtain ⟨old, hold, hrole⟩ := hb
  by_cases he : h = id
  · subst he
    refine ⟨peer, by rw [peers_setPeer, if_pos rfl], ?_⟩
    cases hsp with
    | connect role hnew =>
      rw [hnew] at hold
      cases hold
    | receive old' req hold' hopen hidle =>
      rw [hold'] at hold
      cases hold
      exact hrole
    | disconnect old' hold' hopen hidle =>
      rw [hold'] at hold
      cases hold
      exact hrole
  · exact ⟨old, by rw [peers_setPeer, if_neg he, hold], hrole⟩

theorem Server.HasBrowser.performed {s : Server} {id h : String} {peer : Peer} {i : Op}
    (hb : s.HasBrowser h) (hpeer : s.peers id = some peer) (choice : Choice)
    (k : i.Reply → ServerM Unit) (r : i.Reply) (sh : Shared) :
    (s.performed id peer choice i k r sh).HasBrowser h := by
  obtain ⟨old, hold, hrole⟩ := hb
  by_cases he : h = id
  · subst he
    rw [hpeer] at hold
    cases hold
    exact ⟨{ peer with prog := k r }, by rw [peers_performed, if_pos rfl], hrole⟩
  · exact ⟨old, by rw [peers_performed, if_neg he, hold], hrole⟩

/-- The host has left or has joined another host: what is on its queue is of no account any more. -/
def Gone (s : Server) (h : String) : Prop :=
  (∃ peer, s.peers h = some peer ∧ peer.isOpen = false) ∨ Joined h s.log

theorem Gone.step {cfg : Config} {s s' : Server} {a : ServerAction} {h : String}
    (hgone : Gone s h) (hs : StepTo cfg s a s') : Gone s' h := by
  cases hs with
  | spawn id peer log hsp =>
    rcases hgone with ⟨old, hold, hclosed⟩ | hjoined
    · refine Or.inl ⟨old, ?_, hclosed⟩
      rw [peers_setPeer, if_neg, hold]
      rintro rfl
      rw [(hsp.idle hold).1] at hclosed
      cases hclosed
    · exact Or.inr (hjoined.mono hsp.log_subset)
  | advance id peer choice i k r sh hpeer hprog hnow hperform =>
    rcases hgone with ⟨old, hold, hclosed⟩ | hjoined
    · by_cases he : h = id
      · subst he
        rw [hpeer] at hold
        cases hold
        exact Or.inl ⟨{ peer with prog := k r }, by rw [peers_performed, if_pos rfl], hclosed⟩
      · exact Or.inl ⟨old, by rw [peers_performed, if_neg he, hold], hclosed⟩
    · exact Or.inr (hjoined.mono (log_performed s id peer choice i k r sh))
  | rehash registry controllers hreg hc => exact hgone

/-- A browser that counts is connected. -/
theorem Server.HasBrowser.connected {s : Server} {h : String} (hb : s.HasBrowser h)
    (hgone : ¬ Gone s h) : s.Connected h .browser := by
  obtain ⟨peer, hpeer, hrole⟩ := hb
  refine ⟨peer, hpeer, hrole, ?_⟩
  cases ho : peer.isOpen with
  | true => rfl
  | false => exact absurd (Or.inl ⟨peer, hpeer, ho⟩) hgone

/-! ## What an operation does to routes and lists -/

section Perform

variable {cfg : Config} {choice : Choice} {sh sh' : Shared} {i : Op} {r : i.Reply} {h c id : String}
  {role : PeerRole} {isOpen : Bool} {handling : Option BrowserCommand}

/-- The task of `id` changes its own route to `h`, as its `Guest` says, and no other. -/
theorem routed_performed (hl : sh.controllers.Linked)
    (hown : i.OwnedBy role id isOpen handling) (hopen : h = id → isOpen = true)
    (hperform : Shared.perform cfg choice sh i = some (r, sh')) (c : String) :
    sh'.routed h c = if c = id then (Guest.next h id ⟨sh.routed h id, sh.listed h id⟩ i r).routed
      else sh.routed h c := by
  have hsame : i.reroutes = false →
      (Guest.next h id ⟨sh.routed h id, sh.listed h id⟩ i r).routed = sh.routed h id →
      sh'.routed h c = if c = id then
        (Guest.next h id ⟨sh.routed h id, sh.listed h id⟩ i r).routed else sh.routed h c := by
    intro hroute hnext
    rw [hnext]
    unfold Shared.routed
    rw [perform_controllers hperform hroute]
    split
    · next hc => rw [hc]
    · rfl
  cases i with
  | registerHost host w =>
    obtain ⟨⟨code, controllers⟩, hreg, he⟩ := Option.map_eq_some_iff.mp hperform
    cases he
    have hroute : (sh.setControllers controllers).routed h c = sh.routed h c := by
      show (controllers.controllerToHost.lookup c).any _ = _
      rw [(ControllerState.registerHost_registered hl hreg).routes c, Option.any_map]
      simp only [Shared.routed, ControllerState.reroute_hostClientId]
    rw [hroute]
    split
    · next hc => rw [hc]; rfl
    · rfl
  | join x code =>
    obtain ⟨-, -, rfl, -⟩ := hown
    cases hperform
    show ((sh.controllers.join cfg.caseMap x code choice.now).2.controllerToHost.lookup c).any _ = _
    cases hj : sh.controllers.join cfg.caseMap x code choice.now with
    | mk result controllers =>
      cases result with
      | ok target =>
        rw [(ControllerState.join_ok hl hj).2.2.2 c]
        split
        · rfl
        · rfl
      | error e =>
        rw [(ControllerState.join_error hl hj).2.1]
        split
        · next hc => rw [hc]; rfl
        · rfl
  | cleanupPeer x =>
    obtain ⟨hclosed, -, rfl⟩ := hown
    have hne : h ≠ x := fun he => by rw [hopen he] at hclosed; cases hclosed
    cases hperform
    show Shared.routed { sh with controllers := (sh.controllers.cleanupPeer x).2 } h c =
      if c = x then false else _
    by_cases hc : c = x
    · rw [if_pos hc, ← Bool.not_eq_true, routed_iff]
      rintro ⟨route, hroute, -⟩
      exact (ControllerState.cleanupPeer_routes_old hl hroute).1 hc
    · rw [if_neg hc, Bool.eq_iff_iff, routed_iff, routed_iff]
      constructor
      · rintro ⟨route, hroute, hhost⟩
        exact ⟨route, (ControllerState.cleanupPeer_routes_old hl hroute).2, hhost⟩
      · -- a route to `h` is not one to `x`
        rintro ⟨route, hroute, rfl⟩
        exact ⟨route, ControllerState.cleanupPeer_routes_kept hl hc hne hroute, rfl⟩
  | send tx event =>
    refine hsame rfl ?_
    show (if tx = h then _ else _ : Guest).routed = _
    split <;> rfl
  | _ => exact hsame rfl rfl

/-- News on the queue of `h` is about the task that sends it. -/
theorem listed_performed (hok : guestOk h id ⟨sh.routed h id, sh.listed h id⟩ i)
    (hperform : Shared.perform cfg choice sh i = some (r, sh')) (c : String) :
    sh'.listed h c = if c = id then (Guest.next h id ⟨sh.routed h id, sh.listed h id⟩ i r).listed
      else sh.listed h c := by
  have hsame : i.placed h = [] →
      (Guest.next h id ⟨sh.routed h id, sh.listed h id⟩ i r).listed = sh.listed h id →
      sh'.listed h c = if c = id then
        (Guest.next h id ⟨sh.routed h id, sh.listed h id⟩ i r).listed else sh.listed h c := by
    intro hplaced hnext
    rw [hnext]
    unfold Shared.listed
    rw [perform_queues hperform, hplaced, List.nil_append]
    split
    · next hc => rw [hc]
    · rfl
  cases i with
  | send tx event =>
    by_cases htx : tx = h
    · subst htx
      have hnext : Guest.next tx id ⟨sh.routed tx id, sh.listed tx id⟩ (.send tx event) r =
          ⟨sh.routed tx id, listedAfter id (sh.listed tx id) event⟩ := if_pos rfl
      have hafter : sh'.listed tx c = listedAfter c (sh.listed tx c) event := by
        show decide (c ∈ controllerList (sh'.queues tx)) = _
        rw [perform_queues hperform]
        simp only [Op.placed, if_true]
        exact listedAfter_eq c (sh.queues tx) event
      rw [hnext, hafter]
      split
      · next hc => rw [hc]
      · next hc =>
        unfold listedAfter
        split
        · next x joined hnews =>
          obtain ⟨rfl, -⟩ := hok rfl x joined hnews
          exact if_neg (Ne.symm hc)
        · rfl
    · refine hsame (if_neg (Ne.symm htx)) ?_
      show (if tx = h then _ else _ : Guest).listed = _
      rw [if_neg htx]
  | join x code => cases r with
    | ok target => exact hsame rfl rfl
    | error e => exact hsame rfl rfl
  | _ => exact hsame rfl rfl

end Perform

/-! ## The invariant -/

/-- The step lets no client that has a route to a connected host join another one.  A host that has
joined somebody itself is a controller, and does not count. -/
def StaysWithHost (cfg : Config) (s : Server) : ServerAction → Prop
  | .advance id choice => ∀ peer c code k, s.peers id = some peer →
      peer.prog = .op (.join c code) k → ∀ registration route,
      s.shared.controllers.registrationOf cfg.caseMap code choice.now = some registration →
      s.shared.controllers.controllerToHost.lookup c = some route →
      route.hostClientId ≠ registration.hostClientId →
      s.Connected route.hostClientId .browser → Joined route.hostClientId s.log
  | _ => True

/-- A join or a cleanup that looks up a connected host, to tell it, finds it: the host has not been
dropped with its worker. -/
def HostHears (s : Server) : ServerAction → Prop
  | .advance id _ => ∀ peer h k, s.peers id = some peer →
      peer.prog = .op (.clientSender h) k → h ≠ id →
      (peer.isOpen = false ∨ ∃ code, peer.handling = some (.controllerJoin code)) →
      s.Connected h .browser → ¬ Joined h s.log → s.shared.registry.clients.lookup h ≠ none
  | _ => True

def KeepsLists (cfg : Config) (s : Server) (a : ServerAction) : Prop :=
  StaysWithHost cfg s a ∧ HostHears s a

/-- While a host counts, every task that ends leaves it informed, and only a join or a cleanup
leaves it uninformed meanwhile. -/
structure GuestInv (s : Server) : Prop where
  tasks : ∀ h, ¬ Gone s h → ∀ c peer, s.peers c = some peer →
    peer.prog.Wp (guestGhost h c) (fun g _ => g.Agrees) ⟨s.shared.routed h c, s.shared.listed h c⟩
  settled : ∀ h, ¬ Gone s h → ∀ c peer, s.peers c = some peer → peer.isOpen = true →
    (∀ code, peer.handling ≠ some (.controllerJoin code)) →
    s.shared.listed h c = s.shared.routed h c
  absent : ∀ h, ¬ Gone s h → ∀ c, s.peers c = none →
    s.shared.routed h c = false ∧ s.shared.listed h c = false
  routes : ∀ c route, s.shared.controllers.controllerToHost.lookup c = some route →
    Joined c s.log ∧ s.HasBrowser route.hostClientId
  codes : ∀ k registration, s.shared.controllers.codeToHost.lookup k = some registration →
    s.HasBrowser registration.hostClientId
  lists : ∀ h, ¬ Gone s h → ∀ c, s.shared.listed h c = true → Joined c s.log ∧ s.HasBrowser h

section Advance

variable {cfg : Config} {s : Server} {id : String} {peer : Peer} {choice : Choice} {i : Op}
  {k : i.Reply → ServerM Unit} {r : i.Reply} {sh : Shared} {h : String}

theorem GuestInv.known (hi : GuestInv s) (hgone : ¬ Gone s h) {c : String}
    (hknown : s.shared.routed h c = true ∨ s.shared.listed h c = true) :
    Joined c s.log ∧ s.HasBrowser h := by
  rcases hknown with hrouted | hlisted
  · obtain ⟨route, hroute, rfl⟩ := routed_iff.mp hrouted
    exact hi.routes c route hroute
  · exact hi.lists h hgone c hlisted

/-- Whoever looks up a host that is not informed finds it. -/
theorem GuestInv.hears {x : String} {k : (Op.clientSender x).Reply → ServerM Unit}
    (hi : GuestInv s) (hhears : HostHears s (.advance id choice)) (hpeer : s.peers id = some peer)
    (hprog : peer.prog = .op (.clientSender x) k) (hgone : ¬ Gone s x)
    (hne : s.shared.routed x id ≠ s.shared.listed x id) :
    s.shared.registry.clients.lookup x ≠ none := by
  have hknown : s.shared.routed x id = true ∨ s.shared.listed x id = true := by
    by_contra hboth
    obtain ⟨hrouted, hlisted⟩ := not_or.mp hboth
    exact hne ((Bool.eq_false_iff.mpr hrouted).trans (Bool.eq_false_iff.mpr hlisted).symm)
  obtain ⟨hjoined, hbrowser⟩ := hi.known hgone hknown
  have hnotJoined : ¬ Joined x s.log := fun hj => hgone (Or.inr hj)
  refine hhears peer x k hpeer hprog ?_ ?_ (hbrowser.connected hgone) hnotJoined
  · rintro rfl
    exact hnotJoined hjoined
  · by_contra hother
    obtain ⟨hopen, hhandling⟩ := not_or.mp hother
    exact hne (hi.settled x hgone id peer hpeer (by simpa using hopen) fun code hcode =>
      hhandling ⟨code, hcode⟩).symm

/-- The replies to a task are those its `Guest` expects. -/
theorem guestAdm_perform (hs : Sound cfg s) (hi : GuestInv s)
    (hkeeps : KeepsLists cfg s (.advance id choice)) (hpeer : s.peers id = some peer)
    (hprog : peer.prog = .op i k) (hperform : Shared.perform cfg choice s.shared i = some (r, sh))
    (hgone : ¬ Gone s h) (hgone' : ¬ Gone (s.performed id peer choice i k r sh) h) :
    guestAdm h id ⟨s.shared.routed h id, s.shared.listed h id⟩ i r := by
  have hown := hs.tasks.owned hpeer hprog
  have hnotJoined : ¬ Joined h s.log := fun hj => hgone (Or.inr hj)
  cases i with
  | clientSender x =>
    cases hperform
    refine ⟨fun tx hx => hs.queues.clients x tx hx, fun hx hne => ?_⟩
    subst hx
    show s.shared.registry.clients.lookup x = some x
    cases htx : s.shared.registry.clients.lookup x with
    | none => exact absurd htx (hi.hears hkeeps.2 hpeer hprog hgone hne)
    | some tx => rw [hs.queues.clients x tx htx]
  | join x code =>
    obtain ⟨-, -, rfl, -⟩ := hown
    rintro target rfl
    refine ⟨?_, fun hrouted => ?_⟩
    · rintro rfl
      exact hgone' (Or.inr ⟨_, List.mem_cons_self .., decide_eq_true rfl⟩)
    · obtain ⟨route, hroute, rfl⟩ := routed_iff.mp hrouted
      by_contra hne
      cases hj : s.shared.controllers.join cfg.caseMap x code choice.now with
      | mk result controllers =>
        have hreply : (s.shared.controllers.join cfg.caseMap x code choice.now).1 = .ok target :=
          congrArg Prod.fst (Option.some.inj hperform)
        rw [hj] at hreply
        obtain rfl : result = .ok target := hreply
        obtain ⟨registration, hreg, rfl⟩ := registrationOf_of_join hj
        exact hnotJoined (hkeeps.1 peer x code k hpeer hprog registration route hreg hroute
          (Ne.symm hne) ((hi.routes x route hroute).2.connected hgone))
  | cleanupPeer x =>
    obtain ⟨-, -, rfl⟩ := hown
    cases hperform
    cases hx : s.shared.controllers.controllerToHost.lookup x with
    | some route =>
      rw [ControllerState.cleanupPeer_routed hx]
      refine ⟨?_, List.not_mem_nil⟩
      simp [Shared.routed, hx]
    | none =>
      have hcomplete := cleanupComplete_unrouted hs.linked hx
      refine ⟨?_, fun hmem => ?_⟩
      · rw [hcomplete.host]
        simp [Shared.routed, hx]
      · -- the host would have a route of its own
        obtain ⟨route, hroute, -⟩ := (hcomplete.notified.2 h).mp hmem
        exact hnotJoined (hi.routes h route hroute).1
  | _ => trivial

/-- A route kept has its host and its controller, and a new one comes of a join. -/
theorem GuestInv.routes_performed (hs : Sound cfg s) (hi : GuestInv s)
    (hpeer : s.peers id = some peer) (hprog : peer.prog = .op i k)
    (hperform : Shared.perform cfg choice s.shared i = some (r, sh)) {c : String}
    {route : ControllerRoute} (hr : sh.controllers.controllerToHost.lookup c = some route) :
    Joined c (s.performed id peer choice i k r sh).log ∧
      (s.performed id peer choice i k r sh).HasBrowser route.hostClientId := by
  have hlog := log_performed s id peer choice i k r sh
  have hold : ∀ old, s.shared.controllers.controllerToHost.lookup c = some old →
      old.hostClientId = route.hostClientId → Joined c (s.performed id peer choice i k r sh).log ∧
        (s.performed id peer choice i k r sh).HasBrowser route.hostClientId := by
    intro old hold hhost
    obtain ⟨hjoined, hbrowser⟩ := hi.routes c old hold
    rw [hhost] at hbrowser
    exact ⟨hjoined.mono hlog, hbrowser.performed hpeer choice k r sh⟩
  rcases perform_route_from hs.linked hperform hr with hsame | ⟨-, old, hroute, hhost⟩ |
    ⟨code, key, registration, rfl, hjoin, hk, -, rfl⟩
  · exact hold route hsame rfl
  · exact hold old hroute hhost
  · obtain ⟨-, -, rfl, -⟩ := hs.tasks.owned hpeer hprog
    obtain rfl := congrArg Prod.fst (Option.some.inj (hperform.symm.trans hjoin))
    exact ⟨⟨_, List.mem_cons_self .., decide_eq_true rfl⟩,
      (hi.codes key registration hk).performed hpeer choice _ _ sh⟩

/-- A new code is that of the task that registers its host. -/
theorem GuestInv.codes_performed (hs : Sound cfg s) (hi : GuestInv s)
    (hpeer : s.peers id = some peer) (hprog : peer.prog = .op i k)
    (hperform : Shared.perform cfg choice s.shared i = some (r, sh)) {key : String}
    {registration : HostRegistration}
    (hk : sh.controllers.codeToHost.lookup key = some registration) :
    (s.performed id peer choice i k r sh).HasBrowser registration.hostClientId := by
  rcases perform_code hs.linked hperform hk with hold | rfl
  · exact (hi.codes key registration hold).performed hpeer choice k r sh
  · obtain ⟨-, hrole, hid, -⟩ := hs.tasks.owned hpeer hprog
    subst hid
    have hbrowser : s.HasBrowser registration.hostClientId := ⟨peer, hpeer, hrole⟩
    exact hbrowser.performed hpeer choice _ r sh

/-- The task that performs an operation makes a step of its `Guest`; those of the others stay. -/
theorem GuestInv.guests_performed (hs : Sound cfg s) (hi : GuestInv s)
    (hpeer : s.peers id = some peer) (hprog : peer.prog = .op i k)
    (hperform : Shared.perform cfg choice s.shared i = some (r, sh)) (hgone : ¬ Gone s h) :
    guestOk h id ⟨s.shared.routed h id, s.shared.listed h id⟩ i ∧
      ∀ c, (⟨sh.routed h c, sh.listed h c⟩ : Guest) =
        if c = id then Guest.next h id ⟨s.shared.routed h id, s.shared.listed h id⟩ i r
        else ⟨s.shared.routed h c, s.shared.listed h c⟩ := by
  have hopen : h = id → peer.isOpen = true := by
    rintro rfl
    cases ho : peer.isOpen with
    | true => rfl
    | false =>
      have hended : ∃ peer, s.peers h = some peer ∧ peer.isOpen = false := ⟨peer, hpeer, ho⟩
      exact absurd (Or.inl hended) hgone
  have hok : guestOk h id ⟨s.shared.routed h id, s.shared.listed h id⟩ i := by
    have hwp := hi.tasks h hgone id peer hpeer
    rw [hprog] at hwp
    exact hwp.1
  refine ⟨hok, fun c => ?_⟩
  rw [routed_performed hs.linked (hs.tasks.owned hpeer hprog) hopen hperform c,
    listed_performed hok hperform c]
  split <;> rfl

theorem guestInv_performed (hs : Sound cfg s) (hi : GuestInv s)
    (hkeeps : KeepsLists cfg s (.advance id choice)) (hpeer : s.peers id = some peer)
    (hprog : peer.prog = .op i k)
    (hback : ∀ h, ¬ Gone (s.performed id peer choice i k r sh) h → ¬ Gone s h)
    (hperform : Shared.perform cfg choice s.shared i = some (r, sh)) :
    GuestInv (s.performed id peer choice i k r sh) := by
  have hown := hs.tasks.owned hpeer hprog
  have hlog := log_performed s id peer choice i k r sh
  refine ⟨fun h hgone' c peer' hp => ?_, fun h hgone' c peer' hp ho hhandling => ?_,
    fun h hgone' c hp => ?_, fun _ _ hr => hi.routes_performed hs hpeer hprog hperform hr,
    fun _ _ hk => hi.codes_performed hs hpeer hprog hperform hk, fun h hgone' c hl => ?_⟩
  · have hgone := hback h hgone'
    obtain ⟨-, hguests⟩ := hi.guests_performed hs hpeer hprog hperform hgone
    show peer'.prog.Wp (guestGhost h c) _ (Guest.mk (sh.routed h c) (sh.listed h c))
    rw [hguests c]
    rw [peers_performed] at hp
    split at hp
    · next hc =>
      cases hp
      subst hc
      rw [if_pos rfl]
      have hwp := hi.tasks h hgone c peer hpeer
      rw [hprog] at hwp
      exact hwp.2 r (guestAdm_perform hs hi hkeeps hpeer hprog hperform hgone hgone')
    · next hc =>
      rw [if_neg hc]
      exact hi.tasks h hgone c peer' hp
  · have hgone := hback h hgone'
    obtain ⟨hok, hguests⟩ := hi.guests_performed hs hpeer hprog hperform hgone
    show (Guest.mk (sh.routed h c) (sh.listed h c)).Agrees
    rw [hguests c]
    rw [peers_performed] at hp
    split at hp
    · next hc =>
      cases hp
      subst hc
      rw [if_pos rfl]
      -- neither a join nor a cleanup is in progress
      refine Guest.agrees_next hok ?_ ?_ (hi.settled h hgone c peer hpeer ho hhandling)
      · rintro x code rfl
        exact hhandling code hown.2.2.2
      · rintro x rfl
        exact Bool.false_ne_true (hown.1.symm.trans ho)
    · next hc =>
      rw [if_neg hc]
      exact hi.settled h hgone c peer' hp ho hhandling
  · have hgone := hback h hgone'
    obtain ⟨-, hguests⟩ := hi.guests_performed hs hpeer hprog hperform hgone
    rw [peers_performed] at hp
    split at hp
    · cases hp
    · next hc =>
      have hsame := hguests c
      rw [if_neg hc] at hsame
      obtain ⟨hrouted, hlisted⟩ := hi.absent h hgone c hp
      exact ⟨(congrArg Guest.routed hsame).trans hrouted,
        (congrArg Guest.listed hsame).trans hlisted⟩
  · have hgone := hback h hgone'
    obtain ⟨hok, hguests⟩ := hi.guests_performed hs hpeer hprog hperform hgone
    obtain ⟨hjoined, hbrowser⟩ : Joined c s.log ∧ s.HasBrowser h := by
      have hsame := hguests c
      split at hsame
      · next hc =>
        subst hc
        exact hi.known hgone (Guest.listed_next hok ((congrArg Guest.listed hsame).symm.trans hl))
      · exact hi.lists h hgone c ((congrArg Guest.listed hsame).symm.trans hl)
    exact ⟨hjoined.mono hlog, hbrowser.performed hpeer choice k r sh⟩

end Advance

theorem guestInv_spawn {cfg : Config} {s : Server} {a : ServerAction} {id : String} {peer : Peer}
    {log : List ServerEvent} (hi : GuestInv s) (h : Spawns cfg s a id peer log)
    (hback : ∀ h, ¬ Gone { s.setPeer id peer with log := log } h → ¬ Gone s h) :
    GuestInv { s.setPeer id peer with log := log } := by
  -- the task had no route and was on no list, or has ended a program
  have hagrees : ∀ host, ¬ Gone s host → s.shared.listed host id = s.shared.routed host id := by
    intro host hgone
    cases hold : s.peers id with
    | none =>
      obtain ⟨hrouted, hlisted⟩ := hi.absent host hgone id hold
      exact hlisted.trans hrouted.symm
    | some old =>
      have hwp := hi.tasks host hgone id old hold
      rw [(h.idle hold).2] at hwp
      exact hwp
  refine ⟨fun host hgone' c peer' hp => ?_, fun host hgone' c peer' hp ho hhandling => ?_,
    fun host hgone' c hp => ?_, fun c route hr => ?_,
    fun key registration hk => (hi.codes key registration hk).spawned h, fun host hgone' c hl => ?_⟩
  · have hgone := hback host hgone'
    rw [peers_setPeer] at hp
    split at hp
    · next hc =>
      cases hp
      subst hc
      exact h.isSpawned.guest (hagrees host hgone)
    · exact hi.tasks host hgone c peer' hp
  · have hgone := hback host hgone'
    rw [peers_setPeer] at hp
    split at hp
    · next hc =>
      subst hc
      exact hagrees host hgone
    · exact hi.settled host hgone c peer' hp ho hhandling
  · rw [peers_setPeer] at hp
    split at hp
    · cases hp
    · exact hi.absent host (hback host hgone') c hp
  · obtain ⟨hjoined, hbrowser⟩ := hi.routes c route hr
    exact ⟨hjoined.mono h.log_subset, hbrowser.spawned h⟩
  · obtain ⟨hjoined, hbrowser⟩ := hi.lists host (hback host hgone') c hl
    exact ⟨hjoined.mono h.log_subset, hbrowser.spawned h⟩

theorem guestInv_run {cfg : Config} {as : List ServerAction} {s : Server}
    (h : RunWhen (KeepsLists cfg) (Server.step cfg) Server.init as s) : GuestInv s := by
  refine h.relative (I := GuestInv) ⟨?_, ?_, ?_, ?_, ?_, ?_⟩ fun as s a s' hr hi hok hs => ?_
  · intro host _ c peer hp
    cases hp
  · intro host _ c peer hp
    cases hp
  · intro host _ c _
    exact ⟨rfl, rfl⟩
  · intro c route hr
    cases hr
  · intro key registration hk
    cases hk
  · intro host _ c hl
    cases hl
  · have hback : ∀ host, ¬ Gone s' host → ¬ Gone s host := fun host hgone' hgone =>
      hgone' (hgone.step (step_cases hs))
    cases step_cases hs with
    | spawn id peer log hsp => exact guestInv_spawn hi hsp hback
    | advance id peer choice i k r sh hpeer hprog hnow hperform =>
      exact guestInv_performed (sound_run hr) hi hok hpeer hprog hback hperform
    | rehash registry controllers hreg hc =>
      have hrouted : ∀ host c, Shared.routed
          { s.shared with registry := registry, controllers := controllers } host c =
            s.shared.routed host c := by
        intro host c
        unfold Shared.routed
        rw [hc.2.2.lookup]
      refine ⟨fun host hgone' c peer hp => ?_, fun host hgone' c peer hp ho hhandling => ?_,
        fun host hgone' c hp => ?_, fun c route hr => ?_, fun key registration hk => ?_,
        fun host hgone' => hi.lists host (hback host hgone')⟩
      · have hwp := hi.tasks host (hback host hgone') c peer hp
        rw [← hrouted] at hwp
        exact hwp
      · have hsettled := hi.settled host (hback host hgone') c peer hp ho hhandling
        rw [← hrouted] at hsettled
        exact hsettled
      · have habsent := hi.absent host (hback host hgone') c hp
        rw [← hrouted] at habsent
        exact habsent
      · replace hr : controllers.controllerToHost.lookup c = some route := hr
        rw [hc.2.2.lookup] at hr
        exact hi.routes c route hr
      · replace hk : controllers.codeToHost.lookup key = some registration := hk
        rw [hc.1.lookup] at hk
        exact hi.codes key registration hk

/-! ## The result -/

/-- **A host's list is that of the routes to it.**  In a run in which no controller leaves a
connected host for another one and whoever looks up a connected host to tell it finds it, whenever
no handler or cleanup is in progress: a connected host that has joined nobody has on its list the
controllers that have a worker for their input. -/
theorem controllerList_agrees {cfg : Config} {as : List ServerAction} {s : Server}
    (h : RunWhen (KeepsLists cfg) (Server.step cfg) Server.init as s) (hq : s.Quiescent)
    {host : String} (hconnected : s.Connected host .browser) (hjoined : ¬ Joined host s.log)
    (c : String) :
    c ∈ controllerList (s.shared.queues host) ↔
      ∃ w, s.shared.controllers.workerForInput c host = some w := by
  have hgone : ¬ Gone s host := by
    obtain ⟨peer, hpeer, -, hopen⟩ := hconnected
    rintro (⟨old, hold, hended⟩ | hj)
    · rw [hpeer] at hold
      cases hold
      rw [hopen] at hended
      cases hended
    · exact hjoined hj
  have hi := guestInv_run h
  have hagrees : s.shared.listed host c = s.shared.routed host c := by
    cases hc : s.peers c with
    | none =>
      obtain ⟨hrouted, hlisted⟩ := hi.absent host hgone c hc
      exact hlisted.trans hrouted.symm
    | some task =>
      have hwp := hi.tasks host hgone c task hc
      rw [hq c task hc] at hwp
      exact hwp
  have hlisted : c ∈ controllerList (s.shared.queues host) ↔ s.shared.listed host c = true :=
    decide_eq_true_iff.symm
  rw [hlisted, hagrees, routed_iff]
  unfold ControllerState.workerForInput
  cases s.shared.controllers.controllerToHost.lookup c with
  | none => simp
  | some route => by_cases hr : route.hostClientId = host <;> simp [hr]

/-- A calm step whose lookups find whom they look for, as far as a look at the state tells. -/
def heard (s : Server) (a : ServerAction) : Bool :=
  calm s a &&
    match a with
    | .advance id _ =>
      match (s.peers id).map Peer.prog with
      | some (.op (.clientSender h) _) => (s.shared.registry.clients.lookup h).isSome
      | _ => true
    | _ => true

theorem keepsLists_of_heard (cfg : Config) (s : Server) (a : ServerAction)
    (h : heard s a = true) : KeepsLists cfg s a := by
  obtain ⟨hcalm, hfound⟩ := Bool.and_eq_true_iff.mp h
  cases a with
  | advance id choice =>
    constructor
    · rintro ⟨role, isOpen, handling, prog⟩ c code k hpeer rfl registration route _ hroute
      simp [calm, hpeer, hroute] at hcalm
    · rintro ⟨role, isOpen, handling, prog⟩ host k hpeer rfl - - - -
      simpa [hpeer, Option.isSome_iff_ne_none] using hfound
  | _ => exact ⟨trivial, trivial⟩

theorem controllerList_agrees_join : ∃ s, Run (Server.step plainConfig) Server.init joinRun s ∧
    ("phone" ∈ controllerList (s.shared.queues "host") ↔
      ∃ w, s.shared.controllers.workerForInput "phone" "host" = some w) ∧
    "phone" ∈ controllerList (s.shared.queues "host") := by
  have heval : (execWhen (fun s a => heard s a = true) (Server.step plainConfig) Server.init
      joinRun).any (fun s => decide (s.Done joinRun ∧ s.Connected "host" .browser ∧
        ¬ Joined "host" s.log ∧ "phone" ∈ controllerList (s.shared.queues "host"))) = true := by
    decide +kernel
  obtain ⟨s, hrun, hdone, hhost, hjoined, hlisted⟩ := execWhen_any heval
  exact ⟨s, hrun.run, controllerList_agrees (hrun.mono (keepsLists_of_heard plainConfig))
    (quiescent_of_done hrun.run hdone) hhost hjoined "phone", hlisted⟩

/-- A phone joins one host and then another, whose code is `AAAAAB`. -/
def switchRun : List ServerAction :=
  .connect "worker" .worker :: advances "worker" 1 ++
    .connect "host-1" .browser :: advances "host-1" 5 ++
    .receive "host-1" ⟨"initwebrtc", none, some "worker"⟩ :: advances "host-1" 4 ++
    .receive "host-1" ⟨"controllerHost", none, some "worker"⟩ :: advances "host-1" 4 ++
    .connect "host-2" .browser :: advances "host-2" 5 ++
    .receive "host-2" ⟨"initwebrtc", none, some "worker"⟩ :: advances "host-2" 4 ++
    .receive "host-2" ⟨"controllerHost", none, some "worker"⟩ :: advances "host-2" 1 ++
    .advance "host-2" ⟨0, 0, fun _ => 1⟩ :: advances "host-2" 2 ++
    .connect "phone" .browser :: advances "phone" 5 ++
    .receive "phone" ⟨"controllerJoin", some "AAAAAA", none⟩ :: advances "phone" 7 ++
    .receive "phone" ⟨"controllerJoin", some "AAAAAB", none⟩ :: advances "phone" 7

theorem controllerList_stale : ∃ s, Run (Server.step plainConfig) Server.init switchRun s ∧
    s.Quiescent ∧ s.Connected "host-1" .browser ∧ .close ∉ s.shared.queues "host-1" ∧
    s.shared.registry.clients.lookup "host-1" ≠ none ∧ ¬ Joined "host-1" s.log ∧
    "phone" ∈ controllerList (s.shared.queues "host-1") ∧
    s.shared.controllers.workerForInput "phone" "host-1" = none := by
  have heval : (execWhen (fun _ _ => True) (Server.step plainConfig) Server.init
      switchRun).any (fun s => decide (s.Done switchRun ∧ s.Connected "host-1" .browser ∧
        .close ∉ s.shared.queues "host-1" ∧ s.shared.registry.clients.lookup "host-1" ≠ none ∧
        ¬ Joined "host-1" s.log ∧ "phone" ∈ controllerList (s.shared.queues "host-1") ∧
        s.shared.controllers.workerForInput "phone" "host-1" = none)) = true := by
    decide +kernel
  obtain ⟨s, hrun, hdone, h⟩ := execWhen_any heval
  exact ⟨s, hrun, quiescent_of_done hrun hdone, h⟩

/-- The worker goes away, and a phone joins the host that was dropped with it, whose socket is still
open. -/
def droppedRun : List ServerAction :=
  .connect "worker" .worker :: advances "worker" 1 ++
    .connect "host" .browser :: advances "host" 5 ++
    .receive "host" ⟨"initwebrtc", none, some "worker"⟩ :: advances "host" 4 ++
    .receive "host" ⟨"controllerHost", none, some "worker"⟩ :: advances "host" 4 ++
    .connect "phone" .browser :: advances "phone" 5 ++
    .disconnect "worker" :: advances "worker" 5 ++
    .receive "phone" ⟨"controllerJoin", some "AAAAAA", none⟩ :: advances "phone" 5

/-- The host is not told of the controller that it has. -/
theorem controllerList_dropped : ∃ s, Run (Server.step plainConfig) Server.init droppedRun s ∧
    s.Quiescent ∧ s.Connected "host" .browser ∧ ¬ Joined "host" s.log ∧
    "phone" ∉ controllerList (s.shared.queues "host") ∧
    s.shared.controllers.workerForInput "phone" "host" = some "worker" := by
  have heval : (execWhen (fun _ _ => True) (Server.step plainConfig) Server.init
      droppedRun).any (fun s => decide (s.Done droppedRun ∧ s.Connected "host" .browser ∧
        ¬ Joined "host" s.log ∧ "phone" ∉ controllerList (s.shared.queues "host") ∧
        s.shared.controllers.workerForInput "phone" "host" = some "worker")) = true := by
    decide +kernel
  obtain ⟨s, hrun, hdone, h⟩ := execWhen_any heval
  exact ⟨s, hrun, quiescent_of_done hrun hdone, h⟩

end CloudGame.Signal
