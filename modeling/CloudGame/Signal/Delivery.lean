import CloudGame.Lib.Since
import CloudGame.Signal.Forwarding

/-!
# What the task of a phone delivers

While the server keeps a phone with its host and both connections registered (`Routed`), whatever
the other tasks do:

* an input it was handed is the last word of the phone on the queue of the worker once its handler
  is through, unless the phone has said more (`Delivers`);
* a join it was handed is answered on the queue of the phone (`Answers`).
-/

namespace CloudGame.Signal

open CloudGame.Lib

/-- The phone `c` is a controller of `h`, whose inputs go to the worker `w`. -/
def Routed (c h w : String) (s : Server) : Prop :=
  s.shared.controllers.workerForInput c h = some w ∧
    s.shared.registry.clientSender c = some c ∧ s.shared.registry.workerSender w = some w

instance (c h w : String) (s : Server) : Decidable (Routed c h w s) :=
  inferInstanceAs (Decidable (_ ∧ _ ∧ _))

/-- The event gives the client a slot at a worker or carries an input of it. -/
def OutboundEvent.SpeaksFor (c : String) : OutboundEvent → Prop
  | .message msg =>
    msg.sessionId = some c ∧ (msg.id = SignalIds.joinRoom ∨ msg.id = SignalIds.input)
  | .close => False

def Op.SpeaksFor (c : String) : Op → Prop
  | .send _ event => event.SpeaksFor c
  | _ => False

/-- The input of a phone as the worker gets it. -/
def relayedInput (c data : String) : OutboundEvent :=
  .message (forwardToWorkerMessage .input c (some data))

/-! ## Inputs -/

/-- The ghost says whether the input has been sent; nothing else is said for the client. -/
def carryGhost (c h w data : String) : Prog.Ghost Op Op.Reply Bool where
  ok _ i := i.SpeaksFor c → i = .send w (relayedInput c data)
  adm _ i r := match i, r with
    | .workerForInput c' h', r => c' = c → h' = h → r = some w
    | .workerSender w', r => w' = w → r = some w
    | _, _ => True
  next carried i _ := carried || decide (i = .send w (relayedInput c data))

/-- The input is the last word of the phone on the queue of the worker. -/
def Carried (c w data : String) (s : Server) : Prop :=
  Since (fun event => event = relayedInput c data) (fun event => ¬ event.SpeaksFor c)
    (s.shared.queues w)

/-- The task of the phone makes the input the last word, if it is not already. -/
def Delivers (c h w data : String) (s : Server) : Prop :=
  ∃ peer, s.peers c = some peer ∧ ∃ carried,
    peer.prog.Wp (carryGhost c h w data) (fun carried _ => carried = true) carried ∧
      (carried = true → Carried c w data s)

section Programs

variable {c h w data : String}

theorem carry_handleControllerInput :
    (handleControllerInput c h data).Wp (carryGhost c h w data) (fun carried _ => carried = true)
      false := by
  refine ⟨False.elim, fun worker hworker => ?_⟩
  obtain rfl : worker = some w := hworker rfl rfl
  refine ⟨False.elim, fun sender hsender => ?_⟩
  obtain rfl : sender = some w := hsender rfl
  refine ⟨fun _ => rfl, fun _ _ => ?_⟩
  exact decide_eq_true (rfl : Op.send w (relayedInput c data) = .send w (relayedInput c data))

/-- What does not ask for the phone's slot or carry its input does not speak for it. -/
theorem not_speaksFor_of_forwards {task : String} {handling : Option BrowserCommand} {i : Op}
    (h : i.Forwards task handling)
    (hquiet : task ≠ c ∨ ∀ cmd, handling = some cmd → cmd.forwards = none) : ¬ i.SpeaksFor c := by
  cases i with
  | send tx event =>
    cases event with
    | close => exact id
    | message msg =>
      rintro ⟨hclient, hid⟩
      rcases h.server_or with hserver | ⟨cmd, event, data, hcmd, hforwards, rfl⟩
      · rcases hid with hid | hid <;> rw [hid] at hserver <;> revert hserver <;> decide
      · rcases hquiet with hne | hnone
        · exact hne (Option.some.inj hclient)
        · rw [hnone cmd hcmd] at hforwards
          cases hforwards
  | _ => exact id

/-- A program that does not speak for the phone leaves the ghost as it is. -/
theorem carry_of_silent {p : ServerM Unit} (hp : p.All fun i => ¬ i.SpeaksFor c) :
    p.Wp (carryGhost c h w data) (fun carried _ => carried = true) true :=
  hp.wp_same (fun _ hi hspeaks => absurd hspeaks hi) (fun _ _ _ => rfl) fun _ => rfl

end Programs

section Steps

variable {cfg : Config} {s s' : Server} {a : ServerAction} {c h w data : String}

/-- The replies of the server while the phone is routed. -/
theorem Routed.carry_adm (hrouted : Routed c h w s) {choice : Choice} {i : Op} {r : i.Reply}
    {sh : Shared} (hperform : Shared.perform cfg choice s.shared i = some (r, sh))
    (carried : Bool) : (carryGhost c h w data).adm carried i r := by
  obtain ⟨hworker, -, hsender⟩ := hrouted
  cases i with
  | workerForInput c' h' =>
    cases hperform
    rintro rfl rfl
    exact hworker
  | workerSender w' =>
    cases hperform
    rintro rfl
    exact hsender
  | _ => trivial

/-- A silent operation leaves the last word on the queue. -/
theorem Carried.perform (hcarried : Carried c w data s) {choice : Choice} {i : Op} {r : i.Reply}
    {sh : Shared} (hperform : Shared.perform cfg choice s.shared i = some (r, sh))
    (hsilent : ¬ i.SpeaksFor c) :
    Since (fun event => event = relayedInput c data) (fun event => ¬ event.SpeaksFor c)
      (sh.queues w) := by
  rw [perform_queues hperform, since_append]
  refine Or.inr ⟨fun event hevent => ?_, hcarried⟩
  cases i with
  | send tx event' =>
    simp only [Op.placed] at hevent
    split at hevent
    · cases List.mem_singleton.mp hevent
      exact hsilent
    · cases hevent
  | _ => cases hevent

/-- The phone says nothing more in this step. -/
def SaysNothing (c : String) (a : ServerAction) : Prop :=
  ∀ req cmd, a = .receive c req → commandOf .browser req = some cmd → cmd.forwards = none

/-- A program that the phone's task starts without a word for the worker. -/
theorem Spawns.silent {peer : Peer} {log : List ServerEvent} (hsp : Spawns cfg s a c peer log)
    (hrole : ∀ old, s.peers c = some old → old.role = .browser) (hold : s.peers c ≠ none)
    (hsilent : SaysNothing c a) : peer.prog.All fun i => ¬ i.SpeaksFor c := by
  refine hsp.isSpawned.forwards.mono fun i hi => not_speaksFor_of_forwards hi (Or.inr ?_)
  cases hsp with
  | connect role hnew => exact absurd hnew hold
  | disconnect old hpeer hopen hidle => exact fun _ h => by cases h
  | receive old req hpeer hopen hidle =>
    rw [hrole old hpeer]
    exact fun cmd hcmd => hsilent req cmd rfl hcmd

theorem Delivers.step (hi : ForwardInv s) (hrouted : Routed c h w s)
    (hrole : ∀ old, s.peers c = some old → old.role = .browser) (hdelivers : Delivers c h w data s)
    (hs : StepTo cfg s a s') (hsilent : SaysNothing c a) : Delivers c h w data s' := by
  obtain ⟨peer, hpeer, carried, hwp, hcarried⟩ := hdelivers
  cases hs with
  | spawn id new log hsp =>
    by_cases hid : c = id
    · subst hid
      -- the handler before it was through
      obtain ⟨-, hidle⟩ := hsp.idle hpeer
      rw [hidle] at hwp
      obtain rfl : carried = true := hwp
      refine ⟨new, by rw [peers_setPeer, if_pos rfl], true, ?_, hcarried⟩
      exact carry_of_silent (hsp.silent hrole (by simp [hpeer]) hsilent)
    · exact ⟨peer, by rw [peers_setPeer, if_neg hid, hpeer], carried, hwp, hcarried⟩
  | advance id own choice i k r sh hown hprog hnow hperform =>
    by_cases hid : c = id
    · subst hid
      rw [hpeer] at hown
      cases hown
      rw [hprog] at hwp
      refine ⟨{ peer with prog := k r }, by rw [peers_performed, if_pos rfl], _,
        hwp.2 r (hrouted.carry_adm hperform carried), fun hnext => ?_⟩
      by_cases hsent : i = .send w (relayedInput c data)
      · subst hsent
        show Since _ _ (sh.queues w)
        rw [perform_queues hperform, Op.placed, if_pos rfl]
        exact since_cons.mpr (Or.inl rfl)
      · have hbefore : carried = true := by simpa [carryGhost, hsent] using hnext
        have hstill := (hcarried hbefore).perform hperform fun hspeaks => hsent (hwp.1 hspeaks)
        exact hstill
    · refine ⟨peer, by rw [peers_performed, if_neg hid, hpeer], carried, hwp, fun hyes => ?_⟩
      have hall := (hi.tasks id own hown).1
      rw [hprog] at hall
      have hstill := (hcarried hyes).perform hperform
        (not_speaksFor_of_forwards hall.1 (Or.inl (Ne.symm hid)))
      exact hstill
  | rehash registry controllers hr hc => exact ⟨peer, hpeer, carried, hwp, hcarried⟩

/-- The phone is handed its input. -/
theorem delivers_received {req : SignalMessage}
    (hrole : ∀ old, s.peers c = some old → old.role = .browser)
    (hcmd : parseBrowserCommand req = .ok (.controllerInput h data))
    (hs : StepTo cfg s (.receive c req) s') : Delivers c h w data s' := by
  cases hs with
  | spawn id peer log hsp =>
    cases hsp with
    | receive old req hold hopen hidle =>
      refine ⟨_, by rw [peers_setPeer, if_pos rfl], false, ?_, nofun⟩
      show (messageProg cfg old.role c req).Wp _ _ _
      rw [hrole old hold]
      show (handleBrowserMessage cfg c req).Wp _ _ _
      rw [handleBrowserMessage, hcmd]
      exact carry_handleControllerInput

/-- Once the task of the phone is through, the input is its last word. -/
theorem Delivers.carried (hdelivers : Delivers c h w data s) {peer : Peer}
    (hpeer : s.peers c = some peer) (hidle : peer.prog = .ret ()) : Carried c w data s := by
  obtain ⟨own, hown, carried, hwp, hcarried⟩ := hdelivers
  rw [hpeer] at hown
  cases hown
  rw [hidle] at hwp
  exact hcarried hwp

end Steps

/-! ## Joins -/

/-- The answer to a join of the phone that leads to the host. -/
def OutboundEvent.Replies (h : String) : OutboundEvent → Prop
  | .message msg => msg.id = SignalIds.controllerRejected ∨
      msg.id = SignalIds.controllerJoined ∧ msg.sessionId = some h
  | .close => False

/-- A join of the phone leads to the host, and the phone can be reached. -/
def replyAdm (c h : String) : (i : Op) → i.Reply → Prop
  | .join c' _, .ok target => c' = c → target.hostClientId = h
  | .clientSender c', r => c' = c → r = some c
  | _, _ => True

def Op.Replies (c h : String) (i : Op) : Prop := ∃ event, i = .send c event ∧ event.Replies h

/-- The task of the phone certainly answers its join. -/
def Answers (c h : String) (s : Server) : Prop :=
  ∃ peer, s.peers c = some peer ∧ peer.prog.Will (replyAdm c h) (Op.Replies c h)

section Joins

variable {cfg : Config} {s s' : Server} {a : ServerAction} {c h w code : String}

theorem will_sendToClient {msg : SignalMessage} (hmsg : OutboundEvent.Replies h (.message msg)) :
    (sendToClient c msg).Will (replyAdm c h) (Op.Replies c h) := by
  refine Or.inr fun sender hsender => ?_
  obtain rfl : sender = some c := hsender rfl
  exact Or.inl ⟨_, rfl, hmsg⟩

theorem will_handleControllerJoin :
    (handleControllerJoin c code).Will (replyAdm c h) (Op.Replies c h) := by
  refine Or.inr fun result hresult => ?_
  cases result with
  | ok target =>
    obtain rfl : target.hostClientId = h := hresult rfl
    exact (will_sendToClient (Or.inr ⟨rfl, rfl⟩)).bind
  | error reason => exact will_sendToClient (Or.inl rfl)

/-- The replies of the server while the phone is routed, before the operation and after it. -/
theorem Routed.reply_adm (hrouted : Routed c h w s) (hl : s.shared.controllers.Linked)
    {choice : Choice} {i : Op} {r : i.Reply} {sh : Shared}
    (hperform : Shared.perform cfg choice s.shared i = some (r, sh))
    (hafter : sh.controllers.workerForInput c h = some w) : replyAdm c h i r := by
  cases i with
  | clientSender c' =>
    cases hperform
    rintro rfl
    exact hrouted.2.1
  | join c' code =>
    obtain ⟨hreply, hsh⟩ := Prod.mk.inj (Option.some.inj hperform)
    cases r with
    | error e => trivial
    | ok target =>
      rintro rfl
      have hjoin : s.shared.controllers.join cfg.caseMap c' code choice.now =
          (.ok target, sh.controllers) := by
        rw [← hsh]
        exact Prod.ext hreply rfl
      have hroute := (ControllerState.join_ok hl hjoin).2.2.2 c'
      rw [if_pos rfl] at hroute
      simp only [ControllerState.workerForInput, hroute] at hafter
      by_contra hne
      rw [if_neg hne] at hafter
      cases hafter
  | _ => trivial

/-- What is owed to the phone is still owed, or it has been placed. -/
theorem Answers.step (hl : s.shared.controllers.Linked) (hrouted : Routed c h w s)
    (hrouted' : Routed c h w s') (hanswers : Answers c h s) (hs : StepTo cfg s a s') :
    Answers c h s' ∨ ∃ event ∈ grown (s.shared.queues c) (s'.shared.queues c), event.Replies h := by
  obtain ⟨peer, hpeer, hwill⟩ := hanswers
  cases hs with
  | spawn id new log hsp =>
    refine Or.inl ⟨peer, ?_, hwill⟩
    rw [peers_setPeer, if_neg, hpeer]
    rintro rfl
    rw [(hsp.idle hpeer).2] at hwill
    exact hwill
  | advance id own choice i k r sh hown hprog hnow hperform =>
    by_cases hid : c = id
    · subst hid
      rw [hpeer] at hown
      cases hown
      rw [hprog] at hwill
      rcases hwill with ⟨event, rfl, hreplies⟩ | hrest
      · refine Or.inr ⟨event, ?_, hreplies⟩
        show event ∈ grown (s.shared.queues c) (sh.queues c)
        rw [perform_queues hperform, Op.placed, if_pos rfl, grown_append]
        exact List.mem_singleton.mpr rfl
      · have hadm := hrouted.reply_adm hl hperform hrouted'.1
        exact Or.inl ⟨_, by rw [peers_performed, if_pos rfl], hrest r hadm⟩
    · exact Or.inl ⟨peer, by rw [peers_performed, if_neg hid, hpeer], hwill⟩
  | rehash registry controllers hr hc => exact Or.inl ⟨peer, hpeer, hwill⟩

/-- The phone is handed its join. -/
theorem answers_received {req : SignalMessage}
    (hrole : ∀ old, s.peers c = some old → old.role = .browser)
    (hcmd : parseBrowserCommand req = .ok (.controllerJoin code))
    (hs : StepTo cfg s (.receive c req) s') : Answers c h s' := by
  cases hs with
  | spawn id peer log hsp =>
    cases hsp with
    | receive old req hold hopen hidle =>
      refine ⟨_, by rw [peers_setPeer, if_pos rfl], ?_⟩
      show (messageProg cfg old.role c req).Will _ _
      rw [hrole old hold]
      show (handleBrowserMessage cfg c req).Will _ _
      rw [handleBrowserMessage, hcmd]
      exact will_handleControllerJoin

end Joins

/-! ## What a step adds -/

section Added

variable {cfg : Config} {s s' : Server} {a : ServerAction} {c : String}

theorem queues_step (hs : StepTo cfg s a s') (tx : Tx) :
    ∃ added, s'.shared.queues tx = added ++ s.shared.queues tx := by
  cases hs with
  | spawn id peer log hsp => exact ⟨[], rfl⟩
  | advance id peer choice i k r sh hpeer hprog hnow hperform =>
    exact ⟨_, perform_queues hperform tx⟩
  | rehash registry controllers hr hc => exact ⟨[], rfl⟩

/-- A message was handed to its task before or is handed to it now. -/
theorem received_step (hs : StepTo cfg s a s') {req : SignalMessage}
    (hmem : .received c req ∈ s'.log) : .received c req ∈ s.log ∨ a = .receive c req := by
  cases hs with
  | spawn id peer log hsp =>
    cases hsp with
    | connect role hnew => exact Or.inl hmem
    | disconnect old hold hopen hidle => exact Or.inl hmem
    | receive old req' hold hopen hidle =>
      rcases List.mem_cons.mp hmem with he | hmem
      · cases he
        exact Or.inr rfl
      · exact Or.inl hmem
  | advance id peer choice i k r sh hpeer hprog hnow hperform =>
    exact Or.inl ((List.mem_cons.mp hmem).resolve_left nofun)
  | rehash registry controllers hr hc => exact Or.inl hmem

/-- A connection keeps the role it was made with. -/
theorem role_step (hs : StepTo cfg s a s') {role : PeerRole}
    (hrole : ∀ peer, s.peers c = some peer → peer.role = role)
    (hconnect : ∀ new, a = .connect c new → new = role) :
    ∀ peer, s'.peers c = some peer → peer.role = role := by
  intro peer hpeer
  cases hs with
  | spawn id new log hsp =>
    rw [peers_setPeer] at hpeer
    split at hpeer
    · next hid =>
      cases hpeer
      subst hid
      cases hsp with
      | connect role' hnew => exact hconnect role' rfl
      | receive old req hold hopen hidle => exact hrole old hold
      | disconnect old hold hopen hidle => exact hrole old hold
    · exact hrole peer hpeer
  | advance id own choice i k r sh hown hprog hnow hperform =>
    rw [peers_performed] at hpeer
    split at hpeer
    · next hid =>
      cases hpeer
      subst hid
      exact hrole own hown
    · exact hrole peer hpeer
  | rehash registry controllers hr hc => exact hrole peer hpeer

end Added

end CloudGame.Signal
