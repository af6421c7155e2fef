import CloudGame.Signal.Server

/-!
# What the tasks of the server do

`step_cases` says once what a step can be: a task starts a program (it connects, is handed a
message, or begins its cleanup: `Spawns`), performs its next operation, or maps are rehashed.

`Headed` is what all those programs have in common.  A task touches the registry and the
directory under its own id only, and as its command asks (`Op.OwnedBy`), and the operations that
register a peer, take it out or change what is shown of a worker are the first of their program
(`Op.isHead`), so a program that is past its first operation performs none of them
(`taskInv_run`).
-/

namespace CloudGame.Signal

open CloudGame.Lib

/-! ## The steps -/

/-- The action makes task `id` start the program of `peer`; the log becomes `log`. -/
inductive Spawns (cfg : Config) (s : Server) :
    ServerAction → String → Peer → List ServerEvent → Prop
  | connect {id : String} (role : PeerRole) (hnew : s.peers id = none) :
    Spawns cfg s (.connect id role) id ⟨role, true, none, startProg cfg role id⟩ s.log
  | receive {id : String} (old : Peer) (req : SignalMessage) (hold : s.peers id = some old)
      (hopen : old.isOpen = true) (hidle : old.prog = .ret ()) :
    Spawns cfg s (.receive id req) id
      ⟨old.role, true, commandOf old.role req, messageProg cfg old.role id req⟩
      (.received id req :: s.log)
  | disconnect {id : String} (old : Peer) (hold : s.peers id = some old)
      (hopen : old.isOpen = true) (hidle : old.prog = .ret ()) :
    Spawns cfg s (.disconnect id) id ⟨old.role, false, none, cleanupProg old.role id⟩ s.log

/-- The state after task `id` performed `i` with reply `r`, which made the shared state `sh`. -/
def Server.performed (s : Server) (id : String) (peer : Peer) (choice : Choice) (i : Op)
    (k : i.Reply → ServerM Unit) (r : i.Reply) (sh : Shared) : Server where
  shared := { sh with clock := choice.later }
  peers := Function.update s.peers id (some { peer with prog := k r })
  log := .performed id peer.handling i r :: s.log

inductive StepTo (cfg : Config) (s : Server) : ServerAction → Server → Prop
  | spawn {a : ServerAction} (id : String) (peer : Peer) (log : List ServerEvent)
      (h : Spawns cfg s a id peer log) : StepTo cfg s a { s.setPeer id peer with log := log }
  | advance (id : String) (peer : Peer) (choice : Choice) (i : Op) (k : i.Reply → ServerM Unit)
      (r : i.Reply) (sh : Shared) (hpeer : s.peers id = some peer) (hprog : peer.prog = .op i k)
      (hnow : s.shared.clock ≤ choice.now ∧ choice.now ≤ choice.later)
      (hperform : Shared.perform cfg choice s.shared i = some (r, sh)) :
    StepTo cfg s (.advance id choice) (s.performed id peer choice i k r sh)
  | rehash (registry : RegistryState) (controllers : ControllerState)
      (hr : RegistryState.Rehashed s.shared.registry registry)
      (hc : ControllerState.Rehashed s.shared.controllers controllers) :
    StepTo cfg s (.rehash registry controllers)
      { s with shared := { s.shared with registry := registry, controllers := controllers } }

theorem step_cases {cfg : Config} {s s' : Server} {a : ServerAction}
    (h : s.step cfg a = some s') : StepTo cfg s a s' := by
  cases a with
  | connect id role =>
    simp only [Server.step] at h
    split at h
    · cases h
    · next hnew => cases h; exact .spawn id _ _ (.connect role hnew)
  | receive id req =>
    simp only [Server.step] at h
    split at h
    · cases h
    · next old hold =>
      split at h
      · next hc =>
        cases h
        exact .spawn id _ _ (.receive old req hold hc.1 (Prog.eq_ret_of_isDone hc.2))
      · cases h
  | disconnect id =>
    simp only [Server.step] at h
    split at h
    · cases h
    · next old hold =>
      split at h
      · next hc =>
        cases h
        exact .spawn id _ _ (.disconnect old hold hc.1 (Prog.eq_ret_of_isDone hc.2))
      · cases h
  | advance id choice =>
    simp only [Server.step] at h
    split at h
    · cases h
    · next peer hpeer =>
      unfold Server.advance at h
      split at h
      · cases h
      · next i k hprog =>
        split at h
        · next hnow =>
          obtain ⟨⟨r, sh⟩, hperform, rfl⟩ := Option.map_eq_some_iff.mp h
          exact .advance id peer choice i k r sh hpeer hprog hnow hperform
        · cases h
  | rehash registry controllers =>
    simp only [Server.step] at h
    split at h
    · next hc => cases h; exact .rehash registry controllers hc.1 hc.2
    · cases h

theorem peers_setPeer (s : Server) (id : String) (peer : Peer) (log : List ServerEvent)
    (id' : String) : ({ s.setPeer id peer with log := log } : Server).peers id' =
      if id' = id then some peer else s.peers id' := Function.update_apply ..

theorem peers_performed (s : Server) (id : String) (peer : Peer) (choice : Choice) (i : Op)
    (k : i.Reply → ServerM Unit) (r : i.Reply) (sh : Shared) (id' : String) :
    (s.performed id peer choice i k r sh).peers id' =
      if id' = id then some { peer with prog := k r } else s.peers id' := Function.update_apply ..

theorem log_performed (s : Server) (id : String) (peer : Peer) (choice : Choice) (i : Op)
    (k : i.Reply → ServerM Unit) (r : i.Reply) (sh : Shared) :
    ∀ e ∈ s.log, e ∈ (s.performed id peer choice i k r sh).log :=
  fun _ he => List.mem_cons_of_mem _ he

/-! ## The operations of a task -/

/-- The client an event makes a worker expect: an `initwebrtc` or `joinRoom` announces it. -/
def OutboundEvent.announces : OutboundEvent → Option String
  | .message msg =>
    if msg.id = SignalIds.initWebrtc ∨ msg.id = SignalIds.joinRoom then msg.sessionId else none
  | .close => none

/-- The commands whose handlers announce their client. -/
def BrowserCommand.announces : BrowserCommand → Bool
  | .forwardToWorker _ _ _ _ => true
  | .controllerJoin _ => true
  | _ => false

/-- `i` is an operation that the task `id` of this role may perform, while its socket is open or
has ended and while it handles `handling`. -/
def Op.OwnedBy (role : PeerRole) (id : String) (isOpen : Bool) (handling : Option BrowserCommand) :
    Op → Prop
  | .registerClient c tx => isOpen = true ∧ role = .browser ∧ c = id ∧ tx = id
  | .registerWorker w tx => isOpen = true ∧ role = .worker ∧ w = id ∧ tx = id
  | .unregisterClient c => isOpen = false ∧ role = .browser ∧ c = id
  | .unregisterWorker w => isOpen = false ∧ role = .worker ∧ w = id
  | .bindClientToWorker c w => isOpen = true ∧ role = .browser ∧ c = id ∧ ∃ event data,
      (event = .initWebrtc ∨ event = .joinRoom) ∧
        handling = some (.forwardToWorker w event data true)
  | .unbindClient c =>
    isOpen = true ∧ role = .browser ∧ c = id ∧ ∃ target, handling = some (.terminateSession target)
  | .workerForClient c =>
    isOpen = true ∧ role = .browser ∧ c = id ∧ ∃ target, handling = some (.terminateSession target)
  | .isClientBoundToWorker c _ => isOpen = true ∧ role = .browser ∧ c = id
  | .setWorkerGame w _ => isOpen = true ∧ role = .worker ∧ w = id
  | .setWorkerPlayerCount w _ => isOpen = true ∧ role = .worker ∧ w = id
  | .registerHost h w =>
    isOpen = true ∧ role = .browser ∧ h = id ∧ handling = some (.controllerHost w)
  | .join c code =>
    isOpen = true ∧ role = .browser ∧ c = id ∧ handling = some (.controllerJoin code)
  | .workerForInput c _ => isOpen = true ∧ role = .browser ∧ c = id
  | .cleanupPeer x => isOpen = false ∧ role = .browser ∧ x = id
  | .clientSender _ => True
  | .workerSender _ => True
  | .allClients => True
  | .gamesPayload => True
  | .playerCountsSnapshot => True
  | .send _ event => ∀ c, event.announces = some c →
      isOpen = true ∧ role = .browser ∧ c = id ∧ ∃ cmd, handling = some cmd ∧ cmd.announces = true

/-- The operations that only come first in a program. -/
def Op.isHead : Op → Bool
  | .registerClient _ _ => true
  | .registerWorker _ _ => true
  | .unregisterWorker _ => true
  | .setWorkerGame _ _ => true
  | .setWorkerPlayerCount _ _ => true
  | .cleanupPeer _ => true
  | _ => false

def Op.Later (role : PeerRole) (id : String) (isOpen : Bool) (handling : Option BrowserCommand)
    (i : Op) : Prop :=
  i.OwnedBy role id isOpen handling ∧ i.isHead = false

/-- Operations of the task `id`, heads only in front. -/
def Headed (role : PeerRole) (id : String) (isOpen : Bool) (handling : Option BrowserCommand) :
    ServerM Unit → Prop
  | .ret _ => True
  | .op i k => i.OwnedBy role id isOpen handling ∧ ∀ r, (k r).All (Op.Later role id isOpen handling)

section Programs

variable {role : PeerRole} {id : String} {isOpen : Bool} {handling : Option BrowserCommand}

theorem Headed.of_all {p : ServerM Unit} (h : p.All (Op.Later role id isOpen handling)) :
    Headed role id isOpen handling p := by
  cases p with
  | ret a => trivial
  | op i k => exact ⟨h.1.1, h.2⟩

theorem Headed.all {p : ServerM Unit} (h : Headed role id isOpen handling p) :
    p.All (Op.OwnedBy role id isOpen handling) := by
  cases p with
  | ret a => trivial
  | op i k => exact ⟨h.1, fun r => (h.2 r).mono fun _ hi => hi.1⟩

/-- A message that announces nobody. -/
def Plain (event : OutboundEvent) : Prop := event.announces = none

theorem later_send {tx : Tx} {event : OutboundEvent} (h : Plain event) :
    Op.Later role id isOpen handling (.send tx event) := by
  refine ⟨fun c hc => ?_, rfl⟩
  rw [h] at hc
  cases hc

theorem later_sendToWorker {w : String} {msg : SignalMessage} (h : Plain (.message msg)) :
    (sendToWorker w msg).All (Op.Later role id isOpen handling) :=
  ⟨⟨trivial, rfl⟩, fun _ => Prog.All.whenSome fun _ => ⟨later_send h, fun _ => trivial⟩⟩

theorem later_sendToClient {c : String} {msg : SignalMessage} (h : Plain (.message msg)) :
    (sendToClient c msg).All (Op.Later role id isOpen handling) :=
  ⟨⟨trivial, rfl⟩, fun _ => Prog.All.whenSome fun _ => ⟨later_send h, fun _ => trivial⟩⟩

theorem later_broadcastToClients {msg : SignalMessage} (h : Plain (.message msg)) :
    (broadcastToClients msg).All (Op.Later role id isOpen handling) :=
  ⟨⟨trivial, rfl⟩, fun _ => Prog.All.each fun _ _ => ⟨later_send h, fun _ => trivial⟩⟩

theorem later_broadcastGames : broadcastGames.All (Op.Later role id isOpen handling) :=
  ⟨⟨trivial, rfl⟩, fun _ => later_broadcastToClients rfl⟩

/-- `sendToWorker` in a handler that may announce its client. -/
theorem later_announce {w : String} {msg : SignalMessage} {cmd : BrowserCommand}
    (hsession : msg.sessionId = some id) (hcmd : cmd.announces = true) :
    (sendToWorker w msg).All (Op.Later .browser id true (some cmd)) := by
  refine ⟨⟨trivial, rfl⟩, fun _ => Prog.All.whenSome fun tx => ?_⟩
  refine ⟨⟨fun c hc => ?_, rfl⟩, fun _ => trivial⟩
  refine ⟨rfl, rfl, ?_, cmd, rfl, hcmd⟩
  simp only [OutboundEvent.announces] at hc
  split at hc
  · rw [hsession] at hc
    exact (Option.some.inj hc).symm
  · cases hc

theorem headed_startProg (cfg : Config) : Headed role id true handling (startProg cfg role id) := by
  cases role with
  | browser =>
    refine ⟨⟨rfl, rfl, rfl, rfl⟩, fun _ => ?_⟩
    refine ⟨⟨trivial, rfl⟩, fun _ => ⟨⟨trivial, rfl⟩, fun _ => ⟨later_send rfl, fun _ => ?_⟩⟩⟩
    exact ⟨⟨trivial, rfl⟩, fun _ => Prog.All.each fun _ _ => ⟨later_send rfl, fun _ => trivial⟩⟩
  | worker => exact ⟨⟨rfl, rfl, rfl, rfl⟩, fun _ => trivial⟩

theorem later_handleForwardToWorker (w : String) (event : WorkerEventKind) (data : Option String)
    (bindClient : Bool) (hbind : bindClient = true → event = .initWebrtc ∨ event = .joinRoom) :
    (handleForwardToWorker id w event data bindClient).All
      (Op.Later .browser id true (some (.forwardToWorker w event data bindClient))) := by
  unfold handleForwardToWorker
  cases bindClient with
  | true =>
    refine ⟨⟨trivial, rfl⟩, fun sender => ?_⟩
    cases sender with
    | none => trivial
    | some tx =>
      exact ⟨⟨⟨rfl, rfl, rfl, event, data, hbind rfl, rfl⟩, rfl⟩, fun _ => later_announce rfl rfl⟩
  | false =>
    refine ⟨⟨⟨rfl, rfl, rfl⟩, rfl⟩, fun isBound => ?_⟩
    cases isBound with
    | false => trivial
    | true => exact later_announce rfl rfl

theorem later_handleBrowserCommand (cfg : Config) (cmd : BrowserCommand)
    (hbind : ∀ w event data, cmd = .forwardToWorker w event data true →
      event = .initWebrtc ∨ event = .joinRoom) :
    (handleBrowserCommand cfg id cmd).All (Op.Later .browser id true (some cmd)) := by
  cases cmd with
  | requestGames => exact ⟨⟨trivial, rfl⟩, fun _ => later_sendToClient rfl⟩
  | forwardToWorker w event data bind =>
    exact later_handleForwardToWorker w event data bind fun h => hbind w event data (by rw [h])
  | terminateSession target =>
    refine ⟨⟨⟨rfl, rfl, rfl, target, rfl⟩, rfl⟩, fun r => Prog.All.whenSome fun w => ?_⟩
    exact (later_sendToWorker (by rfl)).bind fun _ =>
      ⟨⟨⟨rfl, rfl, rfl, target, rfl⟩, rfl⟩, fun _ => trivial⟩
  | controllerHost w =>
    refine ⟨⟨⟨rfl, rfl, rfl⟩, rfl⟩, fun isBound => ?_⟩
    cases isBound with
    | false => trivial
    | true => exact ⟨⟨⟨rfl, rfl, rfl, rfl⟩, rfl⟩, fun _ => later_sendToClient rfl⟩
  | controllerJoin code =>
    refine ⟨⟨⟨rfl, rfl, rfl, rfl⟩, rfl⟩, fun r => ?_⟩
    cases r with
    | ok target =>
      exact (later_sendToClient (by rfl)).bind fun _ => (later_sendToClient (by rfl)).bind fun _ =>
        later_announce rfl rfl
    | error reason => exact later_sendToClient rfl
  | controllerInput h data =>
    exact ⟨⟨⟨rfl, rfl, rfl⟩, rfl⟩, fun r => Prog.All.whenSome fun _ => later_sendToWorker rfl⟩
  | controllerAudio h action =>
    exact ⟨⟨⟨rfl, rfl, rfl⟩, rfl⟩, fun r => Prog.All.whenSome fun _ => later_sendToClient rfl⟩

theorem plain_forwardToClientMessage (event : ClientEventKind) (c : String) (data : Option String) :
    Plain (.message (forwardToClientMessage event c data)) := by
  cases event <;> rfl

theorem headed_handleWorkerCommand (cmd : WorkerCommand) :
    Headed .worker id true handling (handleWorkerCommand id cmd) := by
  cases cmd with
  | gameInfo game =>
    refine ⟨⟨rfl, rfl, rfl⟩, fun changed => ?_⟩
    cases changed with
    | false => trivial
    | true => exact later_broadcastGames
  | forwardToClient c event data =>
    exact .of_all (later_sendToClient (plain_forwardToClientMessage event c data))
  | updatePlayerCount count => exact ⟨⟨rfl, rfl, rfl⟩, fun _ => later_broadcastToClients rfl⟩

theorem later_handleBrowserMessage (cfg : Config) (req : SignalMessage) :
    (handleBrowserMessage cfg id req).All
      (Op.Later .browser id true (commandOf .browser req)) := by
  unfold handleBrowserMessage commandOf
  cases hparse : parseBrowserCommand req with
  | ok cmd =>
    exact later_handleBrowserCommand cfg cmd fun w event data he =>
      bindsForInit_parse req w event data (by rw [hparse, he])
  | error e => trivial

theorem headed_messageProg (cfg : Config) (req : SignalMessage) :
    Headed role id true (commandOf role req) (messageProg cfg role id req) := by
  cases role with
  | browser => exact .of_all (later_handleBrowserMessage cfg req)
  | worker =>
    show Headed _ _ _ _ (handleWorkerMessage id req)
    unfold handleWorkerMessage
    split
    · exact headed_handleWorkerCommand _
    · trivial

theorem headed_cleanupProg : Headed role id false handling (cleanupProg role id) := by
  cases role with
  | browser =>
    refine ⟨⟨rfl, rfl, rfl⟩, fun out => ⟨⟨⟨rfl, rfl, rfl⟩, rfl⟩, fun dropped => ?_⟩⟩
    refine (Prog.All.whenSome fun _ => later_sendToWorker (by rfl)).bind fun _ => ?_
    refine (Prog.All.whenSome fun _ => later_sendToClient (by rfl)).bind fun _ => ?_
    refine (Prog.All.each fun _ _ => later_sendToClient (by rfl)).bind fun _ => ?_
    exact Prog.All.each fun _ _ => later_sendToWorker rfl
  | worker =>
    refine ⟨⟨rfl, rfl, rfl⟩, fun clients => ?_⟩
    refine (Prog.All.each fun client _ => ?_).bind fun _ => later_broadcastGames
    exact ⟨later_send rfl, fun _ => trivial⟩

end Programs

/-- The program a task starts with when it connects, is handed a message, or cleans up. -/
inductive IsSpawned (cfg : Config) (id : String) : Peer → Prop
  | start (role : PeerRole) : IsSpawned cfg id ⟨role, true, none, startProg cfg role id⟩
  | message (role : PeerRole) (req : SignalMessage) :
    IsSpawned cfg id ⟨role, true, commandOf role req, messageProg cfg role id req⟩
  | cleanup (role : PeerRole) : IsSpawned cfg id ⟨role, false, none, cleanupProg role id⟩

theorem Spawns.isSpawned {cfg : Config} {s : Server} {a : ServerAction} {id : String} {peer : Peer}
    {log : List ServerEvent} (h : Spawns cfg s a id peer log) : IsSpawned cfg id peer := by
  cases h with
  | connect role _ => exact .start role
  | receive old req _ _ _ => exact .message old.role req
  | disconnect old _ _ _ => exact .cleanup old.role

/-- The program of a task that handles a command is its handler. -/
theorem IsSpawned.handler {cfg : Config} {id : String} {peer : Peer} (h : IsSpawned cfg id peer)
    {cmd : BrowserCommand} (hcmd : peer.handling = some cmd) :
    peer.prog = handleBrowserCommand cfg id cmd := by
  cases h with
  | start role => cases hcmd
  | cleanup role => cases hcmd
  | message role req =>
    cases role with
    | worker => cases hcmd
    | browser =>
      show handleBrowserMessage cfg id req = _
      replace hcmd : commandOf .browser req = some cmd := hcmd
      unfold commandOf at hcmd
      unfold handleBrowserMessage
      cases hparse : parseBrowserCommand req with
      | error e =>
        rw [hparse] at hcmd
        cases hcmd
      | ok cmd' =>
        rw [hparse] at hcmd
        cases hcmd
        rfl

section Spawns

variable {cfg : Config} {s : Server} {a : ServerAction} {id : String} {peer : Peer}
  {log : List ServerEvent}

/-- A task that starts another program had ended the one before, and its socket was open. -/
theorem Spawns.idle (h : Spawns cfg s a id peer log) {old : Peer} (hold : s.peers id = some old) :
    old.isOpen = true ∧ old.prog = .ret () := by
  cases h with
  | connect role hnew =>
    rw [hnew] at hold
    cases hold
  | receive old' req hold' hopen hidle =>
    obtain rfl : old' = old := Option.some.inj (hold'.symm.trans hold)
    exact ⟨hopen, hidle⟩
  | disconnect old' hold' hopen hidle =>
    obtain rfl : old' = old := Option.some.inj (hold'.symm.trans hold)
    exact ⟨hopen, hidle⟩

theorem Spawns.log_subset (h : Spawns cfg s a id peer log) : ∀ e ∈ s.log, e ∈ log := by
  cases h with
  | connect role hnew => exact fun e he => he
  | receive old req _ _ _ => exact fun e he => List.mem_cons_of_mem _ he
  | disconnect old _ _ _ => exact fun e he => he

/-- No operation is performed by starting a program. -/
theorem Spawns.performed_mem_iff (h : Spawns cfg s a id peer log) {x : String}
    {handling : Option BrowserCommand} {i : Op} {r : i.Reply} :
    ServerEvent.performed x handling i r ∈ log ↔ ServerEvent.performed x handling i r ∈ s.log := by
  cases h with
  | connect role hnew => exact Iff.rfl
  | receive old req _ _ _ =>
    refine ⟨fun hmem => (List.mem_cons.mp hmem).resolve_left ?_, List.mem_cons_of_mem _⟩
    rintro ⟨⟩
  | disconnect old _ _ _ => exact Iff.rfl

end Spawns

/-- What one task performs is not performed by another. -/
theorem performed_mem_cons_of_ne {id x : String} (hx : x ≠ id) {log : List ServerEvent}
    {handling handling' : Option BrowserCommand} {i i' : Op} {r : i.Reply} {r' : i'.Reply} :
    ServerEvent.performed x handling i r ∈ ServerEvent.performed id handling' i' r' :: log ↔
      ServerEvent.performed x handling i r ∈ log := by
  refine ⟨fun hmem => (List.mem_cons.mp hmem).resolve_left ?_, List.mem_cons_of_mem _⟩
  rintro ⟨⟩
  exact hx rfl

theorem IsSpawned.headed {cfg : Config} {id : String} {peer : Peer} (h : IsSpawned cfg id peer) :
    Headed peer.role id peer.isOpen peer.handling peer.prog := by
  cases h with
  | start role => exact headed_startProg cfg
  | message role req => exact headed_messageProg cfg req
  | cleanup role => exact headed_cleanupProg

/-- A task is at the start of a program, or past the operations that come first in one. -/
def TaskInv (cfg : Config) (s : Server) : Prop :=
  ∀ id peer, s.peers id = some peer →
    IsSpawned cfg id peer ∨ peer.prog.All (Op.Later peer.role id peer.isOpen peer.handling)

theorem taskInv_step {cfg : Config} {s s' : Server} {a : ServerAction} (hi : TaskInv cfg s)
    (h : StepTo cfg s a s') : TaskInv cfg s' := by
  intro id' peer' hp
  cases h with
  | spawn id peer log h =>
    rw [peers_setPeer] at hp
    split at hp
    · next he => cases hp; subst he; exact Or.inl h.isSpawned
    · exact hi id' peer' hp
  | advance id peer choice i k r sh hpeer hprog hnow hperform =>
    rw [peers_performed] at hp
    split at hp
    · next he =>
      cases hp
      subst he
      refine Or.inr ?_
      rcases hi id' peer hpeer with hs | hl
      · have := hs.headed
        rw [hprog] at this
        exact this.2 r
      · rw [hprog] at hl
        exact hl.2 r
    · exact hi id' peer' hp
  | rehash registry controllers hr hc => exact hi id' peer' hp

theorem taskInv_run {cfg : Config} {as : List ServerAction} {s : Server}
    (h : Run (Server.step cfg) Server.init as s) : TaskInv cfg s :=
  h.invariant (I := TaskInv cfg) (fun _ _ hp => by cases hp)
    fun _ _ _ hi _ hs => taskInv_step hi (step_cases hs)

/-- The next operation of a task is its own. -/
theorem TaskInv.owned {cfg : Config} {s : Server} (hi : TaskInv cfg s) {id : String} {peer : Peer}
    {i : Op} {k : i.Reply → ServerM Unit} (hpeer : s.peers id = some peer)
    (hprog : peer.prog = .op i k) : i.OwnedBy peer.role id peer.isOpen peer.handling := by
  rcases hi id peer hpeer with hs | hl
  · have := hs.headed.all
    rw [hprog] at this
    exact this.1
  · rw [hprog] at hl
    exact hl.1.1

/-- What holds along every program a task may start holds along what a task has still to run. -/
theorem along_run {cfg : Config} {P : (i : Op) → (i.Reply → ServerM Unit) → Prop}
    (hspawn : ∀ id peer, IsSpawned cfg id peer → peer.prog.Along P) {as : List ServerAction}
    {s : Server} (h : Run (Server.step cfg) Server.init as s) (id : String) (peer : Peer)
    (hpeer : s.peers id = some peer) : peer.prog.Along P := by
  refine h.invariant (I := fun s => ∀ id peer, s.peers id = some peer → peer.prog.Along P)
    (fun _ _ hp => by cases hp) (fun s a s' hi _ hs id' peer' hp => ?_) id peer hpeer
  cases step_cases hs with
  | spawn id peer log hsp =>
    rw [peers_setPeer] at hp
    split at hp
    · next he => cases hp; subst he; exact hspawn id' _ hsp.isSpawned
    · exact hi id' peer' hp
  | advance id peer choice i k r sh hpeer hprog hnow hperform =>
    rw [peers_performed] at hp
    split at hp
    · have halong := hi id peer hpeer
      rw [hprog] at halong
      cases hp
      exact halong.2 r
    · exact hi id' peer' hp
  | rehash registry controllers hr hc => exact hi id' peer' hp

/-! ## What a task still has to do -/

/-- No handler, initial-state sender or cleanup is in progress. -/
def Server.Quiescent (s : Server) : Prop :=
  ∀ id peer, s.peers id = some peer → peer.prog = .ret ()

/-- The connections that a run opens. -/
def connectedIds (as : List ServerAction) : List String :=
  as.filterMap fun
    | .connect id _ => some id
    | _ => none

theorem peers_new {cfg : Config} {s s' : Server} {a : ServerAction} (h : StepTo cfg s a s')
    {id : String} (hp : s'.peers id ≠ none) :
    s.peers id ≠ none ∨ ∃ role, a = .connect id role := by
  cases h with
  | spawn id' peer log hsp =>
    rw [peers_setPeer] at hp
    split at hp
    · next he =>
      subst he
      cases hsp with
      | connect role hnew => exact Or.inr ⟨role, rfl⟩
      | receive old req hold _ _ => exact Or.inl (by rw [hold]; simp)
      | disconnect old hold _ _ => exact Or.inl (by rw [hold]; simp)
    · exact Or.inl hp
  | advance id' peer choice i k r sh hpeer hprog hnow hperform =>
    rw [peers_performed] at hp
    split at hp
    · next he => exact Or.inl (by rw [he, hpeer]; simp)
    · exact Or.inl hp
  | rehash registry controllers hr hc => exact Or.inl hp

/-- The tasks of the connections that were opened are done. -/
def Server.Done (as : List ServerAction) (s : Server) : Prop :=
  ∀ id ∈ connectedIds as, (s.peers id).all (fun peer => peer.prog.isDone) = true

instance (as : List ServerAction) (s : Server) : Decidable (s.Done as) :=
  inferInstanceAs (Decidable (∀ id ∈ connectedIds as, _))

theorem quiescent_of_done {cfg : Config} {as : List ServerAction} {s : Server}
    (h : Run (Server.step cfg) Server.init as s) (hdone : s.Done as) : s.Quiescent := by
  intro id peer hpeer
  have hid : id ∈ connectedIds as := by
    refine h.history (I := fun as s => ∀ id, s.peers id ≠ none → id ∈ connectedIds as)
      (fun id hp => absurd rfl hp) ?_ id (by rw [hpeer]; simp)
    intro as s a s' hi _ hs id hp
    simp only [connectedIds, List.filterMap_append, List.mem_append]
    rcases peers_new (step_cases hs) hp with hold | ⟨role, rfl⟩
    · exact Or.inl (hi id hold)
    · exact Or.inr (List.mem_singleton.mpr rfl)
  have hall := hdone id hid
  rw [hpeer] at hall
  exact Prog.eq_ret_of_isDone hall

/-- Some task certainly still performs an operation that satisfies `hit`. -/
def Server.Owes (s : Server) (adm : (i : Op) → i.Reply → Prop) (hit : Op → Prop) : Prop :=
  ∃ id peer, s.peers id = some peer ∧ peer.prog.Will adm hit

section Owes

variable {cfg : Config} {s : Server} {adm : (i : Op) → i.Reply → Prop} {hit : Op → Prop}

theorem Server.Quiescent.not_owes (hq : s.Quiescent) : ¬ s.Owes adm hit := by
  rintro ⟨id, peer, hpeer, hwill⟩
  rw [hq id peer hpeer] at hwill
  exact hwill

/-- A task that starts a program had none to finish. -/
theorem Server.Owes.spawn {a : ServerAction} {id : String} {peer : Peer} {log : List ServerEvent}
    (h : s.Owes adm hit) (hs : Spawns cfg s a id peer log) :
    ({ s.setPeer id peer with log := log } : Server).Owes adm hit := by
  obtain ⟨id', peer', hpeer', hwill⟩ := h
  refine ⟨id', peer', ?_, hwill⟩
  rw [peers_setPeer, if_neg, hpeer']
  rintro rfl
  rw [(hs.idle hpeer').2] at hwill
  exact hwill

variable {id : String} {peer : Peer} {choice : Choice} {i : Op} {k : i.Reply → ServerM Unit}
  {r : i.Reply} {sh : Shared}

theorem Server.Owes.of_rest (h : (k r).Will adm hit) :
    (s.performed id peer choice i k r sh).Owes adm hit :=
  ⟨id, { peer with prog := k r }, by rw [peers_performed, if_pos rfl], h⟩

/-- What is owed is still owed after an operation, unless that was it. -/
theorem Server.Owes.performed (h : s.Owes adm hit) (hpeer : s.peers id = some peer)
    (hprog : peer.prog = .op i k) (hadm : adm i r) (hmiss : ¬ hit i) :
    (s.performed id peer choice i k r sh).Owes adm hit := by
  obtain ⟨id', peer', hpeer', hwill⟩ := h
  by_cases he : id' = id
  · subst he
    rw [hpeer] at hpeer'
    cases hpeer'
    rw [hprog] at hwill
    rcases hwill with hw | hw
    · exact absurd hw hmiss
    · exact .of_rest (hw r hadm)
  · exact ⟨id', peer', by rw [peers_performed, if_neg he, hpeer'], hwill⟩

end Owes

end CloudGame.Signal
