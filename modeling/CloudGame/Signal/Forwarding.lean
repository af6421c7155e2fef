import CloudGame.Signal.Relay

/-!
# In whose name the server speaks to a worker

A worker takes a client's session, slot and inputs from the messages with ids `initwebrtc`,
`answer`, `joinRoom` and `input`.  Whatever the tasks do at the same time, each of them is the
message of one client and was asked for by that client on its own connection
(`forwarded_by_client`).
-/

namespace CloudGame.Signal

open CloudGame.Lib

/-- What the handler of a command forwards to a worker. -/
def BrowserCommand.forwards : BrowserCommand → Option (WorkerEventKind × Option String)
  | .forwardToWorker _ event data _ => some (event, data)
  | .controllerJoin _ => some (.joinRoom, none)
  | .controllerInput _ data => some (.input, some data)
  | _ => none

/-- The ids of the messages that no client asks for, and of the candidates, which go both ways. -/
def serverIds : List String :=
  [SignalIds.games, SignalIds.updatePlayerCount, SignalIds.offer, SignalIds.candidate,
    SignalIds.terminateSession, SignalIds.controllerReady, SignalIds.controllerJoined,
    SignalIds.controllerLeft, SignalIds.controllerRejected, SignalIds.controllerAudio]

/-- Those of them that the handler of `controllerHost` does not send. -/
def quietIds : List String := serverIds.erase SignalIds.controllerReady

/-- A message of the server, or one of the client to a worker as its command asks. -/
def ForwardedFor (id : String) (handling : Option BrowserCommand) (msg : SignalMessage) : Prop :=
  msg.id ∈ quietIds ∨
    (msg.id = SignalIds.controllerReady ∧ ∃ w, handling = some (.controllerHost w)) ∨
    ∃ cmd event data, handling = some cmd ∧ cmd.forwards = some (event, data) ∧
      msg = forwardToWorkerMessage event id data

theorem ForwardedFor.server_or {id : String} {handling : Option BrowserCommand}
    {msg : SignalMessage} (h : ForwardedFor id handling msg) :
    msg.id ∈ serverIds ∨ ∃ cmd event data, handling = some cmd ∧
      cmd.forwards = some (event, data) ∧ msg = forwardToWorkerMessage event id data := by
  rcases h with hquiet | ⟨hready, -⟩ | hasked
  · exact Or.inl (List.mem_of_mem_erase hquiet)
  · exact Or.inl (hready ▸ by decide)
  · exact Or.inr hasked

/-- Only the handler of `controllerHost` tells a host of its code. -/
theorem ForwardedFor.ready {id : String} {handling : Option BrowserCommand} {msg : SignalMessage}
    (h : ForwardedFor id handling msg) (hid : msg.id = SignalIds.controllerReady) :
    ∃ w, handling = some (.controllerHost w) := by
  rcases h with hquiet | ⟨-, hhost⟩ | ⟨cmd, event, data, -, -, rfl⟩
  · have hnot : SignalIds.controllerReady ∉ quietIds := by decide
    exact absurd (hid ▸ hquiet) hnot
  · exact hhost
  · have hnot : ∀ event : WorkerEventKind, event.signalId ≠ SignalIds.controllerReady := by
      intro event
      cases event <;> decide
    exact absurd hid (hnot event)

def Op.Forwards (id : String) (handling : Option BrowserCommand) : Op → Prop
  | .send _ (.message msg) => ForwardedFor id handling msg
  | _ => True

theorem signalId_notMem_serverIds {event : WorkerEventKind} (h : event ≠ .candidate) :
    event.signalId ∉ serverIds := by
  cases event with
  | candidate => exact absurd rfl h
  | _ => decide

theorem signalId_injective {event event' : WorkerEventKind}
    (h : event.signalId = event'.signalId) : event = event' := by
  cases event <;> cases event' <;> first | rfl | (revert h; decide)

section Programs

variable {id : String} {handling : Option BrowserCommand} {msg : SignalMessage}

theorem forwards_sendToWorker {w : String} (h : ForwardedFor id handling msg) :
    (sendToWorker w msg).All (Op.Forwards id handling) :=
  ⟨trivial, fun _ => Prog.All.whenSome fun _ => ⟨h, fun _ => trivial⟩⟩

theorem forwards_sendToClient {c : String} (h : msg.id ∈ quietIds) :
    (sendToClient c msg).All (Op.Forwards id handling) :=
  ⟨trivial, fun _ => Prog.All.whenSome fun _ => ⟨Or.inl h, fun _ => trivial⟩⟩

theorem forwards_ready {c payload w : String} :
    (sendToClient c (controllerReadyMessage payload)).All
      (Op.Forwards id (some (.controllerHost w))) :=
  ⟨trivial, fun _ => Prog.All.whenSome fun _ => ⟨Or.inr (Or.inl ⟨rfl, w, rfl⟩), fun _ => trivial⟩⟩

theorem forwards_broadcastToClients (h : msg.id ∈ quietIds) :
    (broadcastToClients msg).All (Op.Forwards id handling) :=
  ⟨trivial, fun _ => Prog.All.each fun _ _ => ⟨Or.inl h, fun _ => trivial⟩⟩

theorem forwards_broadcastGames : broadcastGames.All (Op.Forwards id handling) :=
  ⟨trivial, fun _ => forwards_broadcastToClients (by decide : SignalIds.games ∈ quietIds)⟩

theorem forwarded_message {cmd : BrowserCommand} {event : WorkerEventKind} {data : Option String}
    (h : cmd.forwards = some (event, data)) :
    ForwardedFor id (some cmd) (forwardToWorkerMessage event id data) :=
  Or.inr (Or.inr ⟨cmd, event, data, rfl, h, rfl⟩)

theorem forwards_handleBrowserCommand (cfg : Config) (cmd : BrowserCommand) :
    (handleBrowserCommand cfg id cmd).All (Op.Forwards id (some cmd)) := by
  cases cmd with
  | requestGames =>
    exact ⟨trivial, fun _ => forwards_sendToClient
      (by decide : SignalIds.games ∈ quietIds)⟩
  | forwardToWorker w event data bind =>
    have hsend : (sendToWorker w (forwardToWorkerMessage event id data)).All
        (Op.Forwards id (some (.forwardToWorker w event data bind))) :=
      forwards_sendToWorker (forwarded_message rfl)
    show (handleForwardToWorker id w event data bind).All _
    unfold handleForwardToWorker
    cases bind with
    | true =>
      refine ⟨trivial, fun sender => ?_⟩
      cases sender with
      | none => trivial
      | some tx => exact ⟨trivial, fun _ => hsend⟩
    | false =>
      refine ⟨trivial, fun isBound => ?_⟩
      cases isBound with
      | false => trivial
      | true => exact hsend
  | terminateSession target =>
    refine ⟨trivial, fun _ => Prog.All.whenSome fun w => ?_⟩
    have hterminate : SignalIds.terminateSession ∈ quietIds := by decide
    exact (forwards_sendToWorker (Or.inl hterminate)).bind fun _ => ⟨trivial, fun _ => trivial⟩
  | controllerHost w =>
    refine ⟨trivial, fun isBound => ?_⟩
    cases isBound with
    | false => trivial
    | true =>
      exact ⟨trivial, fun _ => forwards_ready⟩
  | controllerJoin code =>
    refine ⟨trivial, fun result => ?_⟩
    cases result with
    | ok target =>
      have hjoined : SignalIds.controllerJoined ∈ quietIds := by decide
      exact (forwards_sendToClient hjoined).bind fun _ =>
        (forwards_sendToClient hjoined).bind fun _ =>
          forwards_sendToWorker (forwarded_message rfl)
    | error reason =>
      exact forwards_sendToClient (by decide : SignalIds.controllerRejected ∈ quietIds)
  | controllerInput h data =>
    exact ⟨trivial, fun _ => Prog.All.whenSome fun _ =>
      forwards_sendToWorker (forwarded_message rfl)⟩
  | controllerAudio h action =>
    exact ⟨trivial, fun _ => Prog.All.whenSome fun _ => forwards_sendToClient
      (by decide : SignalIds.controllerAudio ∈ quietIds)⟩

theorem forwards_handleWorkerCommand (cmd : WorkerCommand) :
    (handleWorkerCommand id cmd).All (Op.Forwards id handling) := by
  cases cmd with
  | gameInfo game =>
    refine ⟨trivial, fun changed => ?_⟩
    cases changed with
    | false => trivial
    | true => exact forwards_broadcastGames
  | forwardToClient c event data =>
    refine forwards_sendToClient ?_
    cases event with
    | offer => exact (by decide : SignalIds.offer ∈ quietIds)
    | candidate => exact (by decide : SignalIds.candidate ∈ quietIds)
  | updatePlayerCount count =>
    exact ⟨trivial, fun _ => forwards_broadcastToClients
      (by decide : SignalIds.updatePlayerCount ∈ quietIds)⟩

theorem IsSpawned.forwards {cfg : Config} {peer : Peer} (h : IsSpawned cfg id peer) :
    peer.prog.All (Op.Forwards id peer.handling) := by
  have hleft : SignalIds.controllerLeft ∈ quietIds := by decide
  have hterminate : SignalIds.terminateSession ∈ quietIds := by decide
  cases h with
  | start role =>
    cases role with
    | browser =>
      have hgames : SignalIds.games ∈ quietIds := by decide
      have hcount : SignalIds.updatePlayerCount ∈ quietIds := by decide
      refine ⟨trivial, fun _ => ⟨trivial, fun _ => ⟨trivial, fun _ => ⟨Or.inl hgames, ?_⟩⟩⟩⟩
      exact fun _ => ⟨trivial, fun _ => Prog.All.each fun _ _ => ⟨Or.inl hcount, fun _ => trivial⟩⟩
    | worker => exact ⟨trivial, fun _ => trivial⟩
  | message role req =>
    cases role with
    | browser =>
      show (handleBrowserMessage cfg id req).All (Op.Forwards id (commandOf .browser req))
      unfold handleBrowserMessage commandOf
      cases hparse : parseBrowserCommand req with
      | ok cmd => exact forwards_handleBrowserCommand cfg cmd
      | error e => trivial
    | worker =>
      show (handleWorkerMessage id req).All _
      unfold handleWorkerMessage
      split
      · exact forwards_handleWorkerCommand _
      · trivial
  | cleanup role =>
    cases role with
    | browser =>
      refine ⟨trivial, fun out => ⟨trivial, fun dropped => ?_⟩⟩
      refine (Prog.All.whenSome fun _ => forwards_sendToWorker (Or.inl hterminate)).bind
        fun _ => ?_
      refine (Prog.All.whenSome fun _ => forwards_sendToClient hleft).bind fun _ => ?_
      refine (Prog.All.each fun _ _ => forwards_sendToClient hleft).bind fun _ => ?_
      exact Prog.All.each fun _ _ => forwards_sendToWorker (Or.inl hterminate)
    | worker =>
      refine ⟨trivial, fun clients => ?_⟩
      refine (Prog.All.each fun client _ => ?_).bind fun _ => forwards_broadcastGames
      exact ⟨trivial, fun _ => trivial⟩

end Programs

/-! ## Every run -/

/-- What a connection asked for. -/
def Asked (log : List ServerEvent) (id : String) (cmd : BrowserCommand) : Prop :=
  ∃ req, .received id req ∈ log ∧ parseBrowserCommand req = .ok cmd

/-- The message is one of the server, or a client asked for it. -/
def OnBehalf (log : List ServerEvent) (msg : SignalMessage) : Prop :=
  msg.id ∈ serverIds ∨ ∃ c cmd event data, Asked log c cmd ∧ cmd.forwards = some (event, data) ∧
    msg = forwardToWorkerMessage event c data

structure ForwardInv (s : Server) : Prop where
  tasks : ∀ id peer, s.peers id = some peer → peer.prog.All (Op.Forwards id peer.handling) ∧
    ∀ cmd, peer.handling = some cmd → Asked s.log id cmd
  queues : ∀ tx msg, .message msg ∈ s.shared.queues tx → OnBehalf s.log msg

theorem Asked.mono {log log' : List ServerEvent} (hsub : ∀ e ∈ log, e ∈ log') {id : String}
    {cmd : BrowserCommand} (h : Asked log id cmd) : Asked log' id cmd := by
  obtain ⟨req, hmem, hparse⟩ := h
  exact ⟨req, hsub _ hmem, hparse⟩

theorem OnBehalf.mono {log log' : List ServerEvent} (hsub : ∀ e ∈ log, e ∈ log')
    {msg : SignalMessage} (h : OnBehalf log msg) : OnBehalf log' msg := by
  refine h.imp_right ?_
  rintro ⟨c, cmd, event, data, hasked, hrest⟩
  exact ⟨c, cmd, event, data, hasked.mono hsub, hrest⟩

theorem Spawns.asked {cfg : Config} {s : Server} {a : ServerAction} {id : String} {peer : Peer}
    {log : List ServerEvent} (h : Spawns cfg s a id peer log) {cmd : BrowserCommand}
    (hcmd : peer.handling = some cmd) : Asked log id cmd := by
  cases h with
  | connect role hnew => cases hcmd
  | disconnect old hold hopen hidle => cases hcmd
  | receive old req hold hopen hidle =>
    refine ⟨req, List.mem_cons_self, ?_⟩
    replace hcmd : commandOf old.role req = some cmd := hcmd
    unfold commandOf at hcmd
    split at hcmd
    · next hparse => rw [hparse, Option.some.inj hcmd]
    · cases hcmd

theorem forwardInv_step {cfg : Config} {s s' : Server} {a : ServerAction} (hi : ForwardInv s)
    (h : StepTo cfg s a s') : ForwardInv s' := by
  cases h with
  | spawn id peer log hsp =>
    have hsub := hsp.log_subset
    refine ⟨fun id' peer' hp => ?_, fun tx msg hmem => (hi.queues tx msg hmem).mono hsub⟩
    rw [peers_setPeer] at hp
    split at hp
    · next he =>
      cases hp
      subst he
      exact ⟨hsp.isSpawned.forwards, fun cmd => hsp.asked⟩
    · obtain ⟨hall, hasked⟩ := hi.tasks id' peer' hp
      exact ⟨hall, fun cmd hcmd => (hasked cmd hcmd).mono hsub⟩
  | advance id peer choice i k r sh hpeer hprog hnow hperform =>
    have hsub := log_performed s id peer choice i k r sh
    obtain ⟨hall, hasked⟩ := hi.tasks id peer hpeer
    rw [hprog] at hall
    refine ⟨fun id' peer' hp => ?_, fun tx msg hmem => ?_⟩
    · rw [peers_performed] at hp
      split at hp
      · next he =>
        cases hp
        subst he
        exact ⟨hall.2 r, fun cmd hcmd => (hasked cmd hcmd).mono hsub⟩
      · obtain ⟨hall', hasked'⟩ := hi.tasks id' peer' hp
        exact ⟨hall', fun cmd hcmd => (hasked' cmd hcmd).mono hsub⟩
    · replace hmem : .message msg ∈ sh.queues tx := hmem
      rw [perform_queues hperform, List.mem_append] at hmem
      rcases hmem with hplaced | hold
      · have hforwards : ForwardedFor id peer.handling msg := by
          cases i <;> simp [Op.placed] at hplaced
          obtain ⟨rfl, rfl⟩ := hplaced
          exact hall.1
        refine hforwards.server_or.imp_right ?_
        rintro ⟨cmd, event, data, hcmd, hrest⟩
        exact ⟨id, cmd, event, data, (hasked cmd hcmd).mono hsub, hrest⟩
      · exact (hi.queues tx msg hold).mono hsub
  | rehash registry controllers hr hc => exact ⟨hi.tasks, hi.queues⟩

theorem forwardInv_run {cfg : Config} {as : List ServerAction} {s : Server}
    (h : Run (Server.step cfg) Server.init as s) : ForwardInv s :=
  h.invariant ⟨nofun, fun _ _ hmem => absurd hmem List.not_mem_nil⟩
    fun _ _ _ hi _ hs => forwardInv_step hi (step_cases hs)

/-- **Nobody speaks for another client.**  Whatever the tasks of the connections do: a message on
any queue that starts a session, answers an offer, asks for a slot or carries an input names a
client that asked for just this on its own connection, and says no more than it asked. -/
theorem forwarded_by_client {cfg : Config} {as : List ServerAction} {s : Server}
    (h : Run (Server.step cfg) Server.init as s) {tx : Tx} {msg : SignalMessage}
    {event : WorkerEventKind} (hevent : event ≠ .candidate)
    (hmem : .message msg ∈ s.shared.queues tx) (hid : msg.id = event.signalId) :
    ∃ c req cmd data, .received c req ∈ s.log ∧ parseBrowserCommand req = .ok cmd ∧
      cmd.forwards = some (event, data) ∧ msg = forwardToWorkerMessage event c data := by
  rcases (forwardInv_run h).queues tx msg hmem with
    hserver | ⟨c, cmd, event', data, ⟨req, hreceived, hparse⟩, hforwards, rfl⟩
  · rw [hid] at hserver
    exact absurd hserver (signalId_notMem_serverIds hevent)
  · obtain rfl : event' = event := signalId_injective hid
    exact ⟨c, req, cmd, data, hreceived, hparse, hforwards, rfl⟩

theorem forwarded_by_client_input :
    ∃ s c req cmd data, Run (Server.step plainConfig) Server.init relayRun s ∧
      .received c req ∈ s.log ∧ parseBrowserCommand req = .ok cmd ∧
      cmd.forwards = some (.input, data) ∧
      (⟨"input", some "1", some "browser"⟩ : SignalMessage) =
        forwardToWorkerMessage .input c data := by
  have hrun : ∃ s, Run (Server.step plainConfig) Server.init relayRun s ∧
      .message ⟨"input", some "1", some "browser"⟩ ∈ s.shared.queues "worker" :=
    execWhen_any (by decide +kernel)
  obtain ⟨s, hs, hmem⟩ := hrun
  have hinput : WorkerEventKind.input ≠ .candidate := by decide
  obtain ⟨c, req, cmd, data, hrest⟩ := forwarded_by_client hs hinput hmem rfl
  exact ⟨s, c, req, cmd, data, hs, hrest⟩

end CloudGame.Signal
