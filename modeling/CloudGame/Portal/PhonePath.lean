import CloudGame.Portal.ControllerPage
import CloudGame.Signal.Delivery
import CloudGame.Worker.CoreInput
import CloudGame.Worker.LastInput

/-!
# From the buttons of a phone to the core

One phone with its page, the server with all its connections, and one worker.  Between them are
queues: the requests that the page has sent on its socket, and what the server has placed for the
phone and for the worker (newest first).  A message crosses as text: the server reads what the page
prints, the page and the worker read what the server serializes.  The server is `Server.step` and
the worker `WorkerState.step`, so handlers, callbacks and the emulator thread interleave as they do
there; everybody else is in their other steps.

The page sends its mask once.  The input can be overtaken by a join of the page itself: the worker
then gives the phone a slot anew, and the page is told that it joined, so it sends its mask again
(`JoinsAwaited`).

* `phone_input_converges`: while the server keeps the phone with a host of the worker, the core
  reads the mask of the page on the port of the phone whenever the page still has the host and
  nothing is left on the way.
-/

namespace CloudGame.Portal

open CloudGame.Lib CloudGame.Signal CloudGame.Worker

/-- Whom the path connects, and the libraries on it. -/
structure Wiring (ν : Type) where
  caseMap : CaseMap
  pf : RtcPlatform
  printNumber : pf.Number → List Char
  cfg : Config
  wire : WireCodecs ν
  codec : Codec
  /-- The socket of the page, which is this connection of the server. -/
  socket : Nat
  clientId : String
  workerId : String

/-- The libraries do what they are documented to do, and connections have names. -/
structure Wiring.Lawful {ν : Type} (n : Wiring ν) : Prop where
  wire : n.wire.Lawful
  printsAlike : PrintsAlike n.wire n.printNumber
  jsonParse : ∃ readNumber, n.pf.jsonParse = Js.jsonParse readNumber
  decode : n.codec.decode = Base64Codec.standard.decode
  named : n.clientId ≠ ""

structure PhonePath where
  page : ControllerPage
  up : List Request
  server : Server
  down : List OutboundEvent
  toWorker : List OutboundEvent
  worker : WorkerState

inductive PhoneAction where
  /-- Anything that happens to the page but a message on its socket. -/
  | page (a : PageAction)
  /-- The store asks for the games on the socket. -/
  | store
  | uplink
  | downlink
  | relay (ready : Bool)
  /-- Anything that happens at the server but a message of the phone. -/
  | server (a : ServerAction)
  /-- Anything that happens at the worker but a message of the server. -/
  | worker (a : WorkerAction)

/-- The request of an entry, if it was sent on the socket. -/
def PageEntry.sentOn (k : Nat) : PageEntry → Option Request
  | .sent k' r => if k' = k then some r else none
  | _ => none

namespace PhonePath

variable {ν : Type}

def init (joinCode : String) (lastJoinCode : Option String) : PhonePath where
  page := ControllerPage.init joinCode lastJoinCode
  up := []
  server := Server.init
  down := []
  toWorker := []
  worker := WorkerState.init

/-- What the page sends goes on the socket. -/
def withPage (n : Wiring ν) (s : PhonePath) (page : ControllerPage) : PhonePath :=
  { s with
    page := page
    up := (grown s.page.log page.log).filterMap (PageEntry.sentOn n.socket) ++ s.up }

/-- What the server places for the phone and the worker goes to them. -/
def withServer (n : Wiring ν) (s : PhonePath) (server : Server) : PhonePath :=
  { s with
    server := server
    down := grown (s.server.shared.queues n.clientId) (server.shared.queues n.clientId) ++ s.down
    toWorker := grown (s.server.shared.queues n.workerId) (server.shared.queues n.workerId) ++
      s.toWorker }

/-- The server is handed the oldest request; one that it cannot read is only logged. -/
def uplink (n : Wiring ν) (s : PhonePath) (r : Request) : Option PhonePath :=
  match parseMessageText n.wire (messageText n.printNumber r.message) with
  | .ok req => (s.server.step n.cfg (.receive n.clientId req)).map (s.withServer n)
  | .error _ => some s

/-- The page is handed the oldest event; one that it cannot read it ignores. -/
def downlink (n : Wiring ν) (s : PhonePath) (event : OutboundEvent) : Option PhonePath :=
  match event with
  | .close => (s.page.step n.caseMap (.closed n.socket)).map (s.withPage n)
  | .message m =>
    match parseSignalMessage n.pf (.text (m.serialize n.wire)) with
    | some msg => (s.page.step n.caseMap (.message n.socket msg)).map (s.withPage n)
    | none => some s

/-- The router is handed the oldest event; one that it cannot read is only logged. -/
def relay (n : Wiring ν) (s : PhonePath) (event : OutboundEvent) (ready : Bool) :
    Option PhonePath :=
  match event with
  | .close => some s
  | .message m =>
    match readSignalMessage n.wire (m.serialize n.wire) with
    | some msg => (s.worker.step n.codec (.receive msg ready)).map fun worker =>
        { s with worker := worker }
    | none => some s

def step (n : Wiring ν) (s : PhonePath) : PhoneAction → Option PhonePath
  | .page (.message k msg) =>
    if k = n.socket then none
    else (s.page.step n.caseMap (.message k msg)).map (s.withPage n)
  | .page a => (s.page.step n.caseMap a).map (s.withPage n)
  | .store => some { s with up := .getGames :: s.up }
  | .uplink => s.up.getLast?.bind fun r => { s with up := s.up.dropLast }.uplink n r
  | .downlink =>
    s.down.getLast?.bind fun event => { s with down := s.down.dropLast }.downlink n event
  | .relay ready =>
    s.toWorker.getLast?.bind fun event =>
      { s with toWorker := s.toWorker.dropLast }.relay n event ready
  | .server (.receive id req) =>
    if id = n.clientId then none
    else (s.server.step n.cfg (.receive id req)).map (s.withServer n)
  | .server (.connect id role) =>
    -- the socket is one for browsers
    if id = n.clientId ∧ role = .worker then none
    else (s.server.step n.cfg (.connect id role)).map (s.withServer n)
  | .server a => (s.server.step n.cfg a).map (s.withServer n)
  | .worker (.receive _ _) => none
  | .worker a => (s.worker.step n.codec a).map fun worker => { s with worker := worker }

end PhonePath

/-! ## The steps -/

/-- The action is not a message of the phone, and the phone connects as a browser. -/
def ServerAction.Foreign (c : String) : ServerAction → Prop
  | .receive id _ => id ≠ c
  | .connect id role => id = c → role = .browser
  | _ => True

section Steps

variable {ν : Type} {n : Wiring ν} {s s' : PhonePath}

inductive PhoneStep (n : Wiring ν) (s : PhonePath) : PhonePath → Prop
  | page {a : PageAction} {page : ControllerPage} (h : s.page.step n.caseMap a = some page) :
    PhoneStep n s (s.withPage n page)
  | store : PhoneStep n s { s with up := .getGames :: s.up }
  | uplink {r : Request} {up : List Request} {req : SignalMessage} {server : Server}
      (hup : s.up = up ++ [r])
      (hread : parseMessageText n.wire (messageText n.printNumber r.message) = .ok req)
      (h : s.server.step n.cfg (.receive n.clientId req) = some server) :
    PhoneStep n s ({ s with up := up }.withServer n server)
  | unread {r : Request} {up : List Request} {e : EnvelopeError} (hup : s.up = up ++ [r])
      (hread : parseMessageText n.wire (messageText n.printNumber r.message) = .error e) :
    PhoneStep n s { s with up := up }
  | closed {down : List OutboundEvent} {page : ControllerPage} (hdown : s.down = down ++ [.close])
      (h : s.page.step n.caseMap (.closed n.socket) = some page) :
    PhoneStep n s ({ s with down := down }.withPage n page)
  | downlink {m : SignalMessage} {down : List OutboundEvent} {msg : PortalMessage}
      {page : ControllerPage} (hdown : s.down = down ++ [.message m])
      (hread : parseSignalMessage n.pf (.text (m.serialize n.wire)) = some msg)
      (h : s.page.step n.caseMap (.message n.socket msg) = some page) :
    PhoneStep n s ({ s with down := down }.withPage n page)
  | ignored {m : SignalMessage} {down : List OutboundEvent} (hdown : s.down = down ++ [.message m])
      (hread : parseSignalMessage n.pf (.text (m.serialize n.wire)) = none) :
    PhoneStep n s { s with down := down }
  | dropped {event : OutboundEvent} {toWorker : List OutboundEvent}
      (htoWorker : s.toWorker = toWorker ++ [event])
      (hread : ∀ m, event = .message m → readSignalMessage n.wire (m.serialize n.wire) = none) :
    PhoneStep n s { s with toWorker := toWorker }
  | relay {m msg : SignalMessage} {toWorker : List OutboundEvent} {ready : Bool}
      {worker : WorkerState} (htoWorker : s.toWorker = toWorker ++ [.message m])
      (hread : readSignalMessage n.wire (m.serialize n.wire) = some msg)
      (h : s.worker.step n.codec (.receive msg ready) = some worker) :
    PhoneStep n s { s with toWorker := toWorker, worker := worker }
  | server {a : ServerAction} {server : Server} (hforeign : ServerAction.Foreign n.clientId a)
      (h : s.server.step n.cfg a = some server) : PhoneStep n s (s.withServer n server)
  | worker {a : WorkerAction} {worker : WorkerState} (hother : ∀ msg ready, a ≠ .receive msg ready)
      (h : s.worker.step n.codec a = some worker) : PhoneStep n s { s with worker := worker }

/-- The oldest of a queue, newest first. -/
theorem eq_dropLast_append {α : Type} {xs : List α} {x : α} (h : xs.getLast? = some x) :
    xs = xs.dropLast ++ [x] :=
  (List.dropLast_append_getLast? x h).symm

theorem phoneStep_cases {a : PhoneAction} (h : s.step n a = some s') : PhoneStep n s s' := by
  cases a with
  | page a =>
    have hpage : ∀ page, s.page.step n.caseMap a = some page → s.withPage n page = s' →
        PhoneStep n s s' := by
      rintro page hs rfl
      exact .page hs
    cases a with
    | message k msg =>
      simp only [PhonePath.step] at h
      split at h
      · cases h
      · obtain ⟨page, hs, he⟩ := Option.map_eq_some_iff.mp h
        exact hpage page hs he
    | _ =>
      simp only [PhonePath.step] at h
      obtain ⟨page, hs, he⟩ := Option.map_eq_some_iff.mp h
      exact hpage page hs he
  | store => cases h; exact .store
  | uplink =>
    obtain ⟨r, hlast, h⟩ := Option.bind_eq_some_iff.mp h
    unfold PhonePath.uplink at h
    split at h
    · next req hread =>
      obtain ⟨server, hs, rfl⟩ := Option.map_eq_some_iff.mp h
      exact .uplink (eq_dropLast_append hlast) hread hs
    · next e hread =>
      cases h
      exact .unread (eq_dropLast_append hlast) hread
  | downlink =>
    obtain ⟨event, hlast, h⟩ := Option.bind_eq_some_iff.mp h
    unfold PhonePath.downlink at h
    split at h
    · obtain ⟨page, hs, rfl⟩ := Option.map_eq_some_iff.mp h
      exact .closed (eq_dropLast_append hlast) hs
    · split at h
      · next msg hread =>
        obtain ⟨page, hs, rfl⟩ := Option.map_eq_some_iff.mp h
        exact .downlink (eq_dropLast_append hlast) hread hs
      · next hread =>
        cases h
        exact .ignored (eq_dropLast_append hlast) hread
  | relay ready =>
    obtain ⟨event, hlast, h⟩ := Option.bind_eq_some_iff.mp h
    unfold PhonePath.relay at h
    split at h
    · cases h
      exact .dropped (eq_dropLast_append hlast) nofun
    · split at h
      · next m _ msg hread =>
        obtain ⟨worker, hs, rfl⟩ := Option.map_eq_some_iff.mp h
        exact .relay (eq_dropLast_append hlast) hread hs
      · next m _ hread =>
        cases h
        refine .dropped (eq_dropLast_append hlast) fun m' he => ?_
        cases he
        exact hread
  | server a =>
    have hserver : ∀ server, ServerAction.Foreign n.clientId a →
        s.server.step n.cfg a = some server → s.withServer n server = s' → PhoneStep n s s' := by
      rintro server hforeign hs rfl
      exact .server hforeign hs
    cases a with
    | receive id req =>
      simp only [PhonePath.step] at h
      split at h
      · cases h
      · next hid =>
        obtain ⟨server, hs, he⟩ := Option.map_eq_some_iff.mp h
        exact hserver server hid hs he
    | connect id role =>
      simp only [PhonePath.step] at h
      split at h
      · cases h
      · next hrole =>
        obtain ⟨server, hs, he⟩ := Option.map_eq_some_iff.mp h
        refine hserver server (fun hid => ?_) hs he
        cases role with
        | browser => rfl
        | worker => exact absurd ⟨hid, rfl⟩ hrole
    | _ =>
      simp only [PhonePath.step] at h
      obtain ⟨server, hs, he⟩ := Option.map_eq_some_iff.mp h
      exact hserver server trivial hs he
  | worker a =>
    cases a with
    | receive msg ready => cases h
    | _ =>
      simp only [PhonePath.step] at h
      obtain ⟨worker, hs, rfl⟩ := Option.map_eq_some_iff.mp h
      exact .worker (by simp) hs

end Steps

/-! ## Requests of the page -/

/-- The request neither asks for a slot, as the server reads it, nor carries an input. -/
def Request.Quiet : Request → Prop
  | .controllerInput _ _ => False
  | .controllerJoin code => optionalTrimmed (some code) = none
  | _ => True

/-- A request that the page or its store sends. -/
def Request.OfPhone : Request → Prop
  | .getGames | .controllerJoin _ | .controllerInput _ _ | .controllerAudio _ => True
  | _ => False

section Requests

variable {ν : Type} {n : Wiring ν} {r : Request} {req : SignalMessage} {cmd : BrowserCommand}

/-- What the server makes of a request of the phone: it has no name to read, or it reads it. -/
theorem readAs (hn : n.Lawful) (hphone : r.OfPhone)
    (hread : parseMessageText n.wire (messageText n.printNumber r.message) = .ok req)
    (hcmd : parseBrowserCommand req = .ok cmd) :
    (r.names = none ∧ cmd = .requestGames) ∨
      ∃ name, optionalTrimmed r.names = some name ∧ cmd = r.command name := by
  obtain ⟨m, hm, hnone, hsome, herror⟩ := parse_request hn.wire hn.printsAlike r
  rw [hread] at hm
  cases hm
  cases hnames : r.names with
  | none =>
    have hgames := hnone hnames
    rw [hcmd] at hgames
    exact Or.inl ⟨rfl, by cases hgames; rfl⟩
  | some raw =>
    refine Or.inr ?_
    cases hname : optionalTrimmed (some raw) with
    | none =>
      rw [hnames] at herror
      obtain ⟨e, he⟩ := herror (by simp) hname (by rintro w rfl; exact hphone)
      rw [hcmd] at he
      cases he
    | some name =>
      have hread := hsome name (by rw [hnames, hname])
      rw [hcmd] at hread
      exact ⟨name, rfl, by cases hread; rfl⟩

/-- A request with a name that the server can read is read. -/
theorem exists_readAs (hn : n.Lawful) {name : String}
    (hname : optionalTrimmed r.names = some name) :
    ∃ req, parseMessageText n.wire (messageText n.printNumber r.message) = .ok req ∧
      parseBrowserCommand req = .ok (r.command name) := by
  obtain ⟨m, hm, -, hsome, -⟩ := parse_request hn.wire hn.printsAlike r
  exact ⟨m, hm, hsome name hname⟩

/-- The phone does not start sessions. -/
theorem forwards_of_phone (hn : n.Lawful) (hphone : r.OfPhone)
    (hread : parseMessageText n.wire (messageText n.printNumber r.message) = .ok req)
    (hcmd : parseBrowserCommand req = .ok cmd) (data : Option String) :
    cmd.forwards ≠ some (.initWebrtc, data) := by
  rcases readAs hn hphone hread hcmd with ⟨-, rfl⟩ | ⟨name, -, rfl⟩
  · exact nofun
  · cases r <;> first | exact absurd hphone id | exact nofun

/-- A quiet request of the phone is not forwarded. -/
theorem forwards_of_quiet (hn : n.Lawful) (hphone : r.OfPhone) (hquiet : r.Quiet)
    (hread : parseMessageText n.wire (messageText n.printNumber r.message) = .ok req)
    (hcmd : parseBrowserCommand req = .ok cmd) : cmd.forwards = none := by
  rcases readAs hn hphone hread hcmd with ⟨-, rfl⟩ | ⟨name, hname, rfl⟩
  · rfl
  · cases r with
    | controllerInput h m => exact hquiet.elim
    | controllerJoin code =>
      have hblank : optionalTrimmed (some code) = none := hquiet
      rw [Request.names, hblank] at hname
      cases hname
    | controllerAudio h => rfl
    | getGames => cases hname
    | _ => exact hphone.elim

end Requests

/-! ## The log of the page -/

/-- Neither an input nor, on the socket of the path, a join. -/
def PageEntry.Quiet (socket : Nat) (e : PageEntry) : Prop :=
  IsOther e ∧ ∀ r, e.sentOn socket = some r → r.Quiet

/-- The last input since the host was joined, and the page has not asked to join again. -/
def SettledInput (socket : Nat) (host : String) (mask : UInt32) (log : List PageEntry) : Prop :=
  Since (fun e => e = .sent socket (.controllerInput host mask)) (PageEntry.Quiet socket) log

/-- The page asks to join with a code that the server can read. -/
def PageEntry.Joins (socket : Nat) (e : PageEntry) : Prop :=
  ∃ code, e = .sent socket (.controllerJoin code) ∧ optionalTrimmed (some code) ≠ none

/-- The page has asked to join again since the last input. -/
def Rejoined (socket : Nat) (host : String) (mask : UInt32) : List PageEntry → Prop
  | [] => False
  | e :: log => IsOther e ∧
    ((e.Joins socket ∧ LastInput socket host mask log) ∨ Rejoined socket host mask log)

section PageLogs

variable {socket : Nat} {host : String} {mask : UInt32} {added log : List PageEntry}

theorem Rejoined.lastInput (h : Rejoined socket host mask log) :
    LastInput socket host mask log := by
  induction log with
  | nil => exact h.elim
  | cons e log ih =>
    refine since_cons.mpr (Or.inr ⟨h.1, ?_⟩)
    rcases h.2 with ⟨-, hlast⟩ | hrejoined
    · exact hlast
    · exact ih hrejoined

theorem LastInput.settled_or_rejoined (h : LastInput socket host mask log) :
    SettledInput socket host mask log ∨ Rejoined socket host mask log := by
  induction log with
  | nil => exact absurd h (not_since_nil _ _)
  | cons e log ih =>
    rcases since_cons.mp h with hinput | ⟨hother, hold⟩
    · exact Or.inl (since_cons.mpr (Or.inl hinput))
    · by_cases hjoins : e.Joins socket
      · exact Or.inr ⟨hother, Or.inl ⟨hjoins, hold⟩⟩
      · rcases ih hold with hsettled | hrejoined
        · refine Or.inl (since_cons.mpr (Or.inr ⟨⟨hother, fun r hr => ?_⟩, hsettled⟩))
          cases e with
          | sent k r' =>
            simp only [PageEntry.sentOn] at hr
            split at hr
            · next hk =>
              cases hr
              subst hk
              cases r with
              | controllerInput h m => exact hother
              | controllerJoin code =>
                show optionalTrimmed (some code) = none
                by_contra hname
                exact hjoins ⟨code, rfl, hname⟩
              | _ => trivial
            · cases hr
          | _ => cases hr
        · exact Or.inr ⟨hother, Or.inr hrejoined⟩

/-- What has been added asks to join, or the page had asked before. -/
theorem Rejoined.of_append (h : Rejoined socket host mask (added ++ log)) :
    (∃ e ∈ added, e.Joins socket) ∨ ((∀ e ∈ added, IsOther e) ∧ Rejoined socket host mask log) := by
  induction added with
  | nil => exact Or.inr ⟨nofun, h⟩
  | cons e added ih =>
    obtain ⟨hother, ⟨hjoins, -⟩ | hrest⟩ := h
    · exact Or.inl ⟨e, List.mem_cons_self, hjoins⟩
    · rcases ih hrest with ⟨e', he', hjoins⟩ | ⟨hothers, hold⟩
      · exact Or.inl ⟨e', List.mem_cons_of_mem _ he', hjoins⟩
      · exact Or.inr ⟨List.forall_mem_cons.mpr ⟨hother, hothers⟩, hold⟩

end PageLogs

/-! ## What is on its way -/

section Underway

variable {ν : Type} (n : Wiring ν) (h : String) (s : PhonePath)

/-- An input that the page has not gone back on is on the way to the server, or the server makes it
the last word of the phone to the worker. -/
def Underway (mask : UInt32) : Prop :=
  Since (fun r => r = .controllerInput h mask) Request.Quiet s.up ∨
    ((∀ r ∈ s.up, r.Quiet) ∧ Delivers n.clientId h n.workerId (encodeMaskBase64 mask) s.server)

/-- A join is on the way to the server, or its answer is owed or on the way to the page. -/
def Awaited : Prop :=
  (∃ code, .controllerJoin code ∈ s.up ∧ optionalTrimmed (some code) ≠ none) ∨
    Answers n.clientId h s.server ∨ ∃ event ∈ s.down, event.Replies h

def InputsUnderway : Prop :=
  ∀ mask, SettledInput n.socket h mask s.page.log → Underway n h s mask

def JoinsAwaited : Prop :=
  ∀ mask, Rejoined n.socket h mask s.page.log → Awaited n h s

end Underway

/-- What holds of every state, routed or not. -/
structure PhoneInv {ν : Type} (n : Wiring ν) (s : PhonePath) : Prop where
  page : ∃ code last as,
    Run (ControllerPage.step n.caseMap) (ControllerPage.init code last) as s.page
  server : ∃ as, Run (Server.step n.cfg) Server.init as s.server
  worker : ∃ as, Run (WorkerState.step n.codec) WorkerState.init as s.worker
  up : ∀ r ∈ s.up, r.OfPhone
  role : ∀ peer, s.server.peers n.clientId = some peer → peer.role = .browser
  asked : ∀ cmd, Asked s.server.log n.clientId cmd → ∀ data, cmd.forwards ≠ some (.initWebrtc, data)
  /-- What the worker has handled is what has been taken from its queue. -/
  relayed : ∃ taken, s.server.shared.queues n.workerId = s.toWorker ++ taken ∧
    s.worker.handled = taken.filterMap fun event =>
      match event with
      | .message m => some m
      | .close => none

section PageSteps

variable {ν : Type} {n : Wiring ν} {s : PhonePath} {h : String} {a : PageAction}
  {page : ControllerPage}

/-- What the page adds to its log goes on the socket. -/
theorem withPage_added (hs : s.page.step n.caseMap a = some page) : ∃ added,
    page.log = added ++ s.page.log ∧
      (s.withPage n page).up = added.filterMap (PageEntry.sentOn n.socket) ++ s.up ∧
      ∀ k r, .sent k r ∈ added → r.OfPhone := by
  obtain ⟨added, hlog, -, hsends⟩ := step_logs hs
  refine ⟨added, hlog, ?_, fun k r hmem => ?_⟩
  · show (grown s.page.log page.log).filterMap _ ++ s.up = _
    rw [hlog, grown_append]
  · have hpage := hsends k r hmem
    cases r <;> trivial

theorem mem_sentOn {e : PageEntry} {socket : Nat} {r : Request} (he : e.sentOn socket = some r) :
    e = .sent socket r := by
  cases e with
  | sent k r' =>
    simp only [PageEntry.sentOn] at he
    split at he
    · next hk => cases he; rw [hk]
    · cases he
  | _ => cases he

theorem InputsUnderway.withPage (hi : InputsUnderway n h s)
    (hs : s.page.step n.caseMap a = some page) : InputsUnderway n h (s.withPage n page) := by
  obtain ⟨added, hlog, hup, -⟩ := withPage_added hs
  intro mask hsettled
  replace hsettled : SettledInput n.socket h mask page.log := hsettled
  rw [SettledInput, hlog, since_append] at hsettled
  unfold Underway
  rw [hup, since_append]
  rcases hsettled with hnew | ⟨hquiet, hold⟩
  · refine Or.inl (Or.inl (hnew.filterMap ?_ ?_))
    · rintro e rfl
      exact ⟨_, if_pos rfl, rfl⟩
    · exact fun e r he hr => he.2 r hr
  · have hadded : ∀ r ∈ added.filterMap (PageEntry.sentOn n.socket), r.Quiet := by
      intro r hr
      obtain ⟨e, he, hsent⟩ := List.mem_filterMap.mp hr
      exact (hquiet e he).2 r hsent
    rcases hi mask hold with hup | ⟨hup, hdelivers⟩
    · exact Or.inl (Or.inr ⟨hadded, hup⟩)
    · exact Or.inr ⟨List.forall_mem_append.mpr ⟨hadded, hup⟩, hdelivers⟩

theorem JoinsAwaited.withPage (hi : JoinsAwaited n h s)
    (hs : s.page.step n.caseMap a = some page) : JoinsAwaited n h (s.withPage n page) := by
  obtain ⟨added, hlog, hup, -⟩ := withPage_added hs
  intro mask hrejoined
  replace hrejoined : Rejoined n.socket h mask page.log := hrejoined
  rw [hlog] at hrejoined
  unfold Awaited
  rw [hup]
  rcases hrejoined.of_append with ⟨e, he, code, rfl, hcode⟩ | ⟨-, hold⟩
  · refine Or.inl ⟨code, List.mem_append_left _ ?_, hcode⟩
    exact List.mem_filterMap.mpr ⟨_, he, if_pos rfl⟩
  · rcases hi mask hold with ⟨code, hmem, hcode⟩ | hrest
    · exact Or.inl ⟨code, List.mem_append_right _ hmem, hcode⟩
    · exact Or.inr hrest

/-- An answer of the server ends what the page has logged of its inputs. -/
theorem log_handleMessage (p : ControllerPage) (k : Nat) {m : SignalMessage} (hh : h ≠ "")
    (hreplies : OutboundEvent.Replies h (.message m)) : ∃ e, ¬ IsOther e ∧
      (p.handleMessage n.caseMap k ⟨m.id, m.data.getD "", m.sessionId⟩).log = e :: p.log := by
  unfold ControllerPage.handleMessage
  rcases hreplies with hid | ⟨hid, htarget⟩
  · rw [if_pos hid]
    exact ⟨.left k, id, rfl⟩
  · have hrejected : SignalIds.controllerJoined ≠ SignalIds.controllerRejected := by decide
    have hleft : SignalIds.controllerJoined ≠ SignalIds.controllerLeft := by decide
    rw [hid, if_neg hrejected, if_neg hleft, if_pos rfl, htarget]
    refine ⟨.joined k h, id, ?_⟩
    show (if h = "" then p else _).log = _
    rw [if_neg hh]
    unfold ControllerPage.saveLastJoinCode
    dsimp only
    split <;> rfl

theorem not_rejoined_of_reply {m : SignalMessage} {mask : UInt32} (hh : h ≠ "")
    (hconn : s.page.effects.conn = some n.socket)
    (hreplies : OutboundEvent.Replies h (.message m))
    (hs : s.page.step n.caseMap (.message n.socket ⟨m.id, m.data.getD "", m.sessionId⟩) =
      some page) : ¬ Rejoined n.socket h mask page.log := by
  obtain ⟨e, hother, hlog⟩ := log_handleMessage (n := n) s.page n.socket hh hreplies
  simp only [ControllerPage.step, if_pos hconn] at hs
  split at hs
  · cases hs
  · cases hs
    intro hrejoined
    rw [hlog] at hrejoined
    exact hother hrejoined.1

end PageSteps

/-! ## The parties do what they do alone -/

section Invariant

variable {ν : Type} {n : Wiring ν} {s s' : PhonePath}

theorem phoneInv_init (joinCode : String) (lastJoinCode : Option String) :
    PhoneInv n (PhonePath.init joinCode lastJoinCode) where
  page := ⟨joinCode, lastJoinCode, [], .nil⟩
  server := ⟨[], .nil⟩
  worker := ⟨[], .nil⟩
  up _ h := absurd h List.not_mem_nil
  role _ h := by cases h
  asked _ h := by
    obtain ⟨req, hmem, -⟩ := h
    cases hmem
  relayed := ⟨[], rfl, rfl⟩

theorem PhoneInv.withPage (hi : PhoneInv n s) {a : PageAction} {page : ControllerPage}
    (hs : s.page.step n.caseMap a = some page) : PhoneInv n (s.withPage n page) := by
  obtain ⟨code, last, as, hrun⟩ := hi.page
  obtain ⟨added, -, hup, hphone⟩ := withPage_added hs
  refine ⟨⟨code, last, _, hrun.snoc a trivial hs⟩, hi.server, hi.worker, ?_, hi.role, hi.asked,
    hi.relayed⟩
  rw [hup]
  refine List.forall_mem_append.mpr ⟨fun r hr => ?_, hi.up⟩
  obtain ⟨e, he, hsent⟩ := List.mem_filterMap.mp hr
  exact hphone _ r (mem_sentOn hsent ▸ he)

/-- What the phone has asked for, it asked for before or is handed now. -/
theorem PhoneInv.withServer (hi : PhoneInv n s) {a : ServerAction} {server : Server}
    (hs : s.server.step n.cfg a = some server)
    (hconnect : ∀ role, a = .connect n.clientId role → role = .browser)
    (hreceive : ∀ req cmd, a = .receive n.clientId req → parseBrowserCommand req = .ok cmd →
      ∀ data, cmd.forwards ≠ some (.initWebrtc, data)) : PhoneInv n (s.withServer n server) := by
  obtain ⟨as, hrun⟩ := hi.server
  have hto := step_cases hs
  refine ⟨hi.page, ⟨_, hrun.snoc a trivial hs⟩, hi.worker, hi.up, role_step hto hi.role hconnect,
    ?_, ?_⟩
  · rintro cmd ⟨req, hmem, hparse⟩
    rcases received_step hto hmem with hold | ha
    · exact hi.asked cmd ⟨req, hold, hparse⟩
    · exact hreceive req cmd ha hparse
  · obtain ⟨taken, hqueue, hhandled⟩ := hi.relayed
    obtain ⟨added, hadded⟩ := queues_step hto n.workerId
    refine ⟨taken, ?_, hhandled⟩
    show server.shared.queues n.workerId = (grown _ (server.shared.queues n.workerId) ++ _) ++ taken
    rw [hadded, grown_append, hqueue, List.append_assoc]

theorem handled_receive {codec : Codec} {w w' : WorkerState} {msg : SignalMessage} {ready : Bool}
    (hs : w.step codec (.receive msg ready) = some w') : w'.handled = msg :: w.handled := by
  cases Worker.step_cases hs with
  | start id prog w₁ hstarts hidle =>
    cases hstarts with
    | receive msg ready => rfl

theorem handled_other {codec : Codec} {w w' : WorkerState} {a : WorkerAction}
    (hother : ∀ msg ready, a ≠ .receive msg ready) (hs : w.step codec a = some w') :
    w'.handled = w.handled := by
  cases Worker.step_cases hs with
  | start id prog w₁ hstarts hidle =>
    cases hstarts with
    | receive msg ready => exact absurd rfl (hother msg ready)
    | _ => rfl
  | _ => rfl

theorem phoneInv_step (hn : n.Lawful) (hi : PhoneInv n s) (hs : PhoneStep n s s') :
    PhoneInv n s' := by
  -- a queue of the path from which something has been taken
  have hup : ∀ up r, s.up = up ++ [r] → r.OfPhone ∧ ∀ r ∈ up, r.OfPhone := by
    intro up r hup
    have hall := hi.up
    rw [hup] at hall
    exact ⟨hall r (List.mem_append_right _ List.mem_cons_self),
      fun r hr => hall r (List.mem_append_left _ hr)⟩
  cases hs with
  | page h => exact hi.withPage h
  | store =>
    exact ⟨hi.page, hi.server, hi.worker, List.forall_mem_cons.mpr ⟨trivial, hi.up⟩, hi.role,
      hi.asked, hi.relayed⟩
  | @uplink r up req server htaken hread h =>
    obtain ⟨hphone, hrest⟩ := hup up r htaken
    have htook : PhoneInv n { s with up := up } :=
      ⟨hi.page, hi.server, hi.worker, hrest, hi.role, hi.asked, hi.relayed⟩
    refine htook.withServer h nofun fun req' cmd he hparse => ?_
    cases he
    exact forwards_of_phone hn hphone hread hparse
  | @unread r up e htaken hread =>
    exact ⟨hi.page, hi.server, hi.worker, (hup up r htaken).2, hi.role, hi.asked, hi.relayed⟩
  | @closed down page hdown h =>
    have htook : PhoneInv n { s with down := down } :=
      ⟨hi.page, hi.server, hi.worker, hi.up, hi.role, hi.asked, hi.relayed⟩
    exact htook.withPage h
  | @downlink m down msg page hdown hread h =>
    have htook : PhoneInv n { s with down := down } :=
      ⟨hi.page, hi.server, hi.worker, hi.up, hi.role, hi.asked, hi.relayed⟩
    exact htook.withPage h
  | ignored hdown hread =>
    exact ⟨hi.page, hi.server, hi.worker, hi.up, hi.role, hi.asked, hi.relayed⟩
  | @dropped event toWorker htaken hread =>
    obtain ⟨taken, hqueue, hhandled⟩ := hi.relayed
    refine ⟨hi.page, hi.server, hi.worker, hi.up, hi.role, hi.asked, event :: taken, ?_, ?_⟩
    · rw [hqueue, htaken, List.append_assoc]
      rfl
    · cases event with
      | close => exact hhandled
      | message m =>
        have hnone := hread m rfl
        rw [readSignalMessage_serialize hn.wire] at hnone
        cases hnone
  | @relay m msg toWorker ready worker htaken hread h =>
    obtain ⟨taken, hqueue, hhandled⟩ := hi.relayed
    obtain ⟨as, hrun⟩ := hi.worker
    rw [readSignalMessage_serialize hn.wire] at hread
    cases hread
    refine ⟨hi.page, hi.server, ⟨_, hrun.snoc _ trivial h⟩, hi.up, hi.role, hi.asked,
      .message m :: taken, ?_, ?_⟩
    · rw [hqueue, htaken, List.append_assoc]
      rfl
    · rw [handled_receive h, hhandled]
      rfl
  | @server a server hforeign h =>
    refine hi.withServer h (fun role ha => ?_) fun req cmd ha => ?_
    · subst ha
      exact hforeign rfl
    · subst ha
      exact absurd rfl hforeign
  | @worker a worker hother h =>
    obtain ⟨as, hrun⟩ := hi.worker
    obtain ⟨taken, hqueue, hhandled⟩ := hi.relayed
    refine ⟨hi.page, hi.server, ⟨_, hrun.snoc _ trivial h⟩, hi.up, hi.role, hi.asked, taken, hqueue,
      ?_⟩
    rw [handled_other hother h]
    exact hhandled

/-- The phone is routed by the server of the path. -/
def PhonePath.Routed (n : Wiring ν) (h : String) (s : PhonePath) : Prop :=
  Signal.Routed n.clientId h n.workerId s.server

instance (n : Wiring ν) (h : String) (s : PhonePath) : Decidable (s.Routed n h) :=
  inferInstanceAs (Decidable (Signal.Routed ..))

variable {h : String}

theorem InputsUnderway.step (hn : n.Lawful) (hname : optionalTrimmed (some h) = some h)
    (hinv : PhoneInv n s) (hrouted : s.Routed n h) (hi : InputsUnderway n h s)
    (hs : PhoneStep n s s') : InputsUnderway n h s' := by
  obtain ⟨as, hserver⟩ := hinv.server
  have hforward := forwardInv_run hserver
  cases hs with
  | page hstep => exact hi.withPage hstep
  | store =>
    intro mask hsettled
    rcases hi mask hsettled with hup | ⟨hup, hdelivers⟩
    · exact Or.inl (since_cons.mpr (Or.inr ⟨trivial, hup⟩))
    · exact Or.inr ⟨List.forall_mem_cons.mpr ⟨trivial, hup⟩, hdelivers⟩
  | @uplink r up req server htaken hread hstep =>
    intro mask hsettled
    have hto := step_cases hstep
    rcases hi mask hsettled with hup | ⟨hup, hdelivers⟩
    · rw [htaken, since_concat] at hup
      rcases hup with hup | ⟨hup, rfl⟩
      · exact Or.inl hup
      · -- the input is handed to the task of the phone
        obtain ⟨req', hread', hcmd⟩ := exists_readAs hn (r := .controllerInput h mask) hname
        rw [hread] at hread'
        cases hread'
        exact Or.inr ⟨hup, delivers_received hinv.role hcmd hto⟩
    · rw [htaken] at hup
      have hr : r ∈ s.up := htaken ▸ List.mem_append_right _ List.mem_cons_self
      have hquiet := hup r (List.mem_append_right _ List.mem_cons_self)
      refine Or.inr ⟨fun r' hr' => hup r' (List.mem_append_left _ hr'),
        hdelivers.step hforward hrouted hinv.role hto fun req' cmd he hcmd => ?_⟩
      cases he
      unfold commandOf at hcmd
      split at hcmd
      · next hparse =>
        cases hcmd
        exact forwards_of_quiet hn (hinv.up r hr) hquiet hread hparse
      · cases hcmd
  | @unread r up e htaken hread =>
    intro mask hsettled
    rcases hi mask hsettled with hup | ⟨hup, hdelivers⟩
    · rw [htaken, since_concat] at hup
      rcases hup with hup | ⟨-, rfl⟩
      · exact Or.inl hup
      · obtain ⟨req', hread', -⟩ := exists_readAs hn (r := .controllerInput h mask) hname
        rw [hread] at hread'
        cases hread'
    · rw [htaken] at hup
      exact Or.inr ⟨fun r' hr' => hup r' (List.mem_append_left _ hr'), hdelivers⟩
  | @closed down page hdown hstep =>
    have htook : InputsUnderway n h { s with down := down } := hi
    exact htook.withPage hstep
  | @downlink m down msg page hdown hread hstep =>
    have htook : InputsUnderway n h { s with down := down } := hi
    exact htook.withPage hstep
  | @server a server hforeign hstep =>
    intro mask hsettled
    refine (hi mask hsettled).imp_right fun ⟨hup, hdelivers⟩ => ⟨hup, ?_⟩
    refine hdelivers.step hforward hrouted hinv.role (step_cases hstep) fun req cmd ha => ?_
    subst ha
    exact absurd rfl hforeign
  | _ => exact hi

theorem JoinsAwaited.step (hn : n.Lawful) (hh : h ≠ "") (hinv : PhoneInv n s)
    (hrouted : s.Routed n h) (hrouted' : s'.Routed n h) (hi : JoinsAwaited n h s)
    (hs : PhoneStep n s s') : JoinsAwaited n h s' := by
  obtain ⟨as, hserver⟩ := hinv.server
  obtain ⟨code, last, bs, hpage⟩ := hinv.page
  have hlinked := linked_run hserver
  -- an answer on its way to the page that the page does not get now
  have hdown : ∀ down event, s.down = down ++ [event] → ¬ event.Replies h →
      JoinsAwaited n h { s with down := down } := by
    intro down event htaken hother mask hrejoined
    rcases hi mask hrejoined with hup | hanswers | ⟨reply, hmem, hreplies⟩
    · exact Or.inl hup
    · exact Or.inr (Or.inl hanswers)
    · rw [htaken] at hmem
      rcases List.mem_append.mp hmem with hmem | hmem
      · exact Or.inr (Or.inr ⟨reply, hmem, hreplies⟩)
      · cases List.mem_singleton.mp hmem
        exact absurd hreplies hother
  have hknown : ∀ m : SignalMessage, OutboundEvent.Replies h (.message m) →
      parseSignalMessage n.pf (.text (m.serialize n.wire)) =
        some ⟨m.id, m.data.getD "", m.sessionId⟩ := by
    intro m hreplies
    obtain ⟨readNumber, hparse⟩ := hn.jsonParse
    refine parseSignalMessage_serialize n.pf hparse hn.printsAlike ?_
    rcases hreplies with hid | ⟨hid, -⟩ <;> rw [hid] <;> decide
  cases hs with
  | page hstep => exact hi.withPage hstep
  | store =>
    intro mask hrejoined
    exact (hi mask hrejoined).imp_left fun ⟨code, hmem, hcode⟩ =>
      ⟨code, List.mem_cons_of_mem _ hmem, hcode⟩
  | @uplink r up req server htaken hread hstep =>
    intro mask hrejoined
    have hto := step_cases hstep
    rcases hi mask hrejoined with
      ⟨code, hmem, hcode⟩ | ⟨peer, hpeer, hwill⟩ | ⟨event, hmem, hreplies⟩
    · rw [htaken] at hmem
      rcases List.mem_append.mp hmem with hmem | hmem
      · exact Or.inl ⟨code, hmem, hcode⟩
      · cases List.mem_singleton.mp hmem
        obtain ⟨name, hname⟩ := Option.ne_none_iff_exists'.mp hcode
        obtain ⟨req', hread', hcmd⟩ := exists_readAs hn (r := .controllerJoin code) hname
        rw [hread] at hread'
        cases hread'
        exact Or.inr (Or.inl (answers_received hinv.role hcmd hto))
    · -- a task that has an answer to give is handed nothing
      cases hto with
      | spawn id new log hsp =>
        cases hsp with
        | receive old req hold hopen hidle =>
          rw [hpeer] at hold
          cases hold
          rw [hidle] at hwill
          exact hwill.elim
    · exact Or.inr (Or.inr ⟨event, List.mem_append_right _ hmem, hreplies⟩)
  | @unread r up e htaken hread =>
    intro mask hrejoined
    refine (hi mask hrejoined).imp_left fun ⟨code, hmem, hcode⟩ => ⟨code, ?_, hcode⟩
    rw [htaken] at hmem
    refine (List.mem_append.mp hmem).resolve_right fun hmem => ?_
    cases List.mem_singleton.mp hmem
    obtain ⟨name, hname⟩ := Option.ne_none_iff_exists'.mp hcode
    obtain ⟨req', hread', -⟩ := exists_readAs hn (r := .controllerJoin code) hname
    rw [hread] at hread'
    cases hread'
  | @closed down page htaken hstep => exact (hdown down .close htaken id).withPage hstep
  | @downlink m down msg page htaken hread hstep =>
    by_cases hreplies : OutboundEvent.Replies h (.message m)
    · intro mask hrejoined
      rw [hknown m hreplies] at hread
      cases hread
      -- the page had asked to join already, or does not now that it is answered
      obtain ⟨added, hlog, hup, -⟩ := withPage_added (s := { s with down := down }) hstep
      have hrejoined' : Rejoined n.socket h mask page.log := hrejoined
      rw [hlog] at hrejoined'
      rcases hrejoined'.of_append with ⟨e, he, code, rfl, hcode⟩ | ⟨-, hold⟩
      · unfold Awaited
        rw [hup]
        exact Or.inl ⟨code, List.mem_append_left _
          (List.mem_filterMap.mpr ⟨_, he, if_pos rfl⟩), hcode⟩
      · have hconn := attached_run hpage hold.lastInput
        exact absurd hrejoined (not_rejoined_of_reply hh hconn hreplies hstep)
    · exact (hdown down _ htaken hreplies).withPage hstep
  | @ignored m down htaken hread =>
    refine hdown down _ htaken fun hreplies => ?_
    rw [hknown m hreplies] at hread
    cases hread
  | @server a server hforeign hstep =>
    intro mask hrejoined
    rcases hi mask hrejoined with hup | hanswers | ⟨event, hmem, hreplies⟩
    · exact Or.inl hup
    · rcases hanswers.step hlinked hrouted hrouted' (step_cases hstep) with
        hanswers | ⟨event, hmem, hreplies⟩
      · exact Or.inr (Or.inl hanswers)
      · exact Or.inr (Or.inr ⟨event, List.mem_append_left _ hmem, hreplies⟩)
    · exact Or.inr (Or.inr ⟨event, List.mem_append_right _ hmem, hreplies⟩)
  | _ => exact hi

end Invariant

/-! ## What the core is told -/

section Masks

variable {mask : UInt32} {device index id : UInt32}

theorem payloadBit_inputPacket {n : Nat} (h : n < 16) :
    payloadBit (inputPacket mask) n = mask.toNat.testBit n := by
  have hbyte : ∀ v : UInt32, ((v &&& 0xff).toUInt8).toNat = v.toNat % 2 ^ 8 := fun v => by
    rw [UInt32.toNat_toUInt8, UInt32.toNat_and, show (0xff : UInt32).toNat = 2 ^ 8 - 1 from rfl,
      Nat.and_two_pow_sub_one_eq_mod, Nat.mod_mod]
  unfold payloadBit
  by_cases hlow : n < 8
  · rw [Nat.div_eq_of_lt hlow, Nat.mod_eq_of_lt hlow]
    show ((mask &&& 0xff).toUInt8).toNat.testBit n = _
    rw [hbyte, Nat.testBit_mod_two_pow, decide_eq_true hlow, Bool.true_and]
  · have hdiv : n / 8 = 1 := by omega
    have hmod : n % 8 < 8 := by omega
    rw [hdiv]
    show (((mask >>> 8) &&& 0xff).toUInt8).toNat.testBit (n % 8) = _
    rw [hbyte, Nat.testBit_mod_two_pow, decide_eq_true hmod, Bool.true_and,
      UInt32.toNat_shiftRight, show (8 : UInt32).toNat % 32 = 8 from rfl, Nat.testBit_shiftRight]
    congr 1
    omega

/-- A port that shows the packet of a mask is read as the mask. -/
theorem reads_mask {controllers : Controllers} {port : Fin maxPlayers}
    (h : controllers port = packetState (inputPacket mask)) :
    inputStateCallback none controllers (UInt32.ofNat port.val) device index id =
      if pressed mask.toNat.testBit device index id then 1 else 0 := by
  rw [inputStateCallback_port, h, packetState, reading_packet]
  split
  · next hanalog =>
    have hnot : pressed mask.toNat.testBit device index id = false := by
      subst hanalog
      rfl
    rw [hnot, if_neg Bool.false_ne_true]
    have haxes : axisOf (inputPacket mask) = fun _ => 0 := by
      funext i
      have hnone : (inputPacket mask)[(i.val + 1) * 2]? = none := by
        refine List.getElem?_eq_none ?_
        show 2 ≤ (i.val + 1) * 2
        omega
      unfold axisOf
      rw [hnone]
    rw [haxes]
    cases axisIndex index id <;> rfl
  · have hbits : pressed (payloadBit (inputPacket mask)) device index id =
        pressed mask.toNat.testBit device index id := by
      unfold pressed
      cases hbit : buttonBitIndex id with
      | none => rfl
      | some bit =>
        rw [Option.any_some, Option.any_some, payloadBit_inputPacket (buttonBitIndex_lt hbit)]
    rw [hbits]

end Masks

/-! ## The result -/

/-- The page is paired on the socket and has nothing to send, nothing is on the way, and neither
the phone's task nor the worker has anything left to do for it. -/
structure PhonePath.AtRest {ν : Type} (n : Wiring ν) (h : String) (s : PhonePath) : Prop where
  host : s.page.hostIdRef = h
  socket : s.page.effects.conn = some n.socket
  isOpen : s.page.isOpen (some n.socket) = true
  idle : (s.page.sendTick false).log = s.page.log
  up : s.up = []
  down : s.down = []
  toWorker : s.toWorker = []
  task : ∀ peer, s.server.peers n.clientId = some peer → peer.prog.isDone = true
  router : (s.worker.tasks .router).isDone = true
  emulator : (s.worker.tasks .emulator).isDone = true
  channel : ∃ events, s.worker.room.inputs = some events ∧
    ∀ event ∈ events, event.clientId ≠ n.clientId

section Results

variable {ν : Type} {n : Wiring ν} {s : PhonePath} {h : String} {mask : UInt32}

/-- The worker is asked for no session of the phone. -/
theorem PhoneInv.not_initiates (hi : PhoneInv n s) :
    ∀ msg ∈ s.worker.handled, ¬ Initiates n.clientId msg := by
  rintro msg hmem ⟨hid, hclient⟩
  obtain ⟨taken, hqueue, hhandled⟩ := hi.relayed
  obtain ⟨as, hserver⟩ := hi.server
  have hplaced : .message msg ∈ s.server.shared.queues n.workerId := by
    rw [hhandled] at hmem
    obtain ⟨event, hevent, he⟩ := List.mem_filterMap.mp hmem
    cases event with
    | close => cases he
    | message m =>
      cases he
      rw [hqueue]
      exact List.mem_append_right _ hevent
  rcases (forwardInv_run hserver).queues _ msg hplaced with
    hserverId | ⟨c, cmd, event, data, hasked, hforwards, rfl⟩
  · rw [hid] at hserverId
    exact absurd hserverId (signalId_notMem_serverIds
      (show WorkerEventKind.initWebrtc ≠ .candidate by decide))
  · obtain rfl : event = .initWebrtc := signalId_injective hid
    have hc : some c = some n.clientId := (Option.filter_eq_some_iff.mp hclient).1
    cases hc
    exact hi.asked cmd hasked data hforwards

/-- The worker has handled the input after all that asked for a slot of the phone. -/
theorem PhoneInv.handled (hn : n.Lawful) (hi : PhoneInv n s) (hrelayed : s.toWorker = [])
    (hcarried : Carried n.clientId n.workerId (encodeMaskBase64 mask) s.server) :
    Since (InputOf n.codec n.clientId (inputPacket mask)) (fun msg => ¬ Disturbs n.clientId msg)
      s.worker.handled := by
  obtain ⟨taken, hqueue, hhandled⟩ := hi.relayed
  rw [hrelayed, List.nil_append] at hqueue
  rw [hhandled]
  rw [Carried, hqueue] at hcarried
  refine hcarried.filterMap ?_ ?_
  · rintro event rfl
    have hencoded : encodeMaskBase64 mask ≠ "" :=
      Base64Codec.standard_lawful.encode_ne_empty (List.cons_ne_nil _ _)
    refine ⟨_, rfl, rfl, ?_, encodeMaskBase64 mask, ?_, ?_⟩
    · exact Option.filter_eq_some_iff.mpr ⟨rfl, by simpa using hn.named⟩
    · exact Option.filter_eq_some_iff.mpr ⟨rfl, by simpa using hencoded⟩
    · rw [hn.decode]
      exact Base64Codec.standard_lawful.decode_encode _
  · rintro event msg hsilent hevent ⟨hclient, hid⟩
    cases event with
    | close => cases hevent
    | message m =>
      cases hevent
      exact hsilent ⟨(Option.filter_eq_some_iff.mp hclient).1, hid⟩

/-- What is on its way stays so while the phone is routed. -/
theorem underway_run (hn : n.Lawful) (hname : optionalTrimmed (some h) = some h)
    {joinCode : String} {lastJoinCode : Option String} {as bs : List PhoneAction}
    {s₀ : PhonePath} (hbefore : Run (PhonePath.step n) (PhonePath.init joinCode lastJoinCode) as s₀)
    (hjoined : s₀.page.log.head? = some (.joined n.socket h))
    (hrun : RunWhen (fun s _ => s.Routed n h) (PhonePath.step n) s₀ bs s) (hrouted : s.Routed n h) :
    PhoneInv n s ∧ InputsUnderway n h s ∧ JoinsAwaited n h s := by
  have hh : h ≠ "" := by
    rintro rfl
    revert hname
    decide
  have hinv₀ : PhoneInv n s₀ := hbefore.invariant (phoneInv_init joinCode lastJoinCode)
    fun _ _ _ hi _ hs => phoneInv_step hn hi (phoneStep_cases hs)
  -- the page has sent nothing yet since it was joined
  obtain ⟨older, hlog⟩ := List.head?_eq_some_iff.mp hjoined
  have hsettled₀ : ∀ mask, ¬ SettledInput n.socket h mask s₀.page.log := by
    intro mask hsettled
    rw [SettledInput, hlog, since_cons] at hsettled
    rcases hsettled with he | ⟨⟨hother, -⟩, -⟩
    · cases he
    · exact hother
  have hrejoined₀ : ∀ mask, ¬ Rejoined n.socket h mask s₀.page.log := by
    intro mask hrejoined
    rw [hlog] at hrejoined
    exact hrejoined.1
  induction hrun with
  | nil =>
    exact ⟨hinv₀, fun mask hs => absurd hs (hsettled₀ mask), fun mask hr =>
      absurd hr (hrejoined₀ mask)⟩
  | snoc a _ hok hs ih =>
    obtain ⟨hinv, hinputs, hjoins⟩ := ih hok
    have hstep := phoneStep_cases hs
    exact ⟨phoneInv_step hn hinv hstep, hinputs.step hn hname hinv hok hstep,
      hjoins.step hn hh hinv hok hrouted hstep⟩

/-- **The core reads the buttons of the phone.**  However the page, the server with all its other
connections and the worker with its other clients interleave, with the page joining again and typing
in between: after the page was told that it joined, as long as the server keeps the phone with the
host, whenever the page still has the host and its socket, has nothing to send and nothing is left
of the phone on the way, what the core reads on the port of its slot, if it has one, is the mask of
the page, button by button. -/
theorem phone_input_converges (hn : n.Lawful) (hname : optionalTrimmed (some h) = some h)
    {joinCode : String} {lastJoinCode : Option String} {as bs : List PhoneAction}
    {s₀ : PhonePath} (hbefore : Run (PhonePath.step n) (PhonePath.init joinCode lastJoinCode) as s₀)
    (hjoined : s₀.page.log.head? = some (.joined n.socket h))
    (hrun : RunWhen (fun s _ => s.Routed n h) (PhonePath.step n) s₀ bs s) (hrouted : s.Routed n h)
    (hrest : s.AtRest n h) {port : Fin maxPlayers}
    (hport : s.worker.room.playerSlots.slotForClient n.clientId = some port.val)
    (device index button : UInt32) :
    inputStateCallback none s.worker.room.controllers (UInt32.ofNat port.val) device index button =
      if pressed s.page.maskRef.toNat.testBit device index button then 1 else 0 := by
  obtain ⟨hinv, hinputs, hjoins⟩ := underway_run hn hname hbefore hjoined hrun hrouted
  obtain ⟨code, last, cs, hpage⟩ := hinv.page
  obtain ⟨ds, hworker⟩ := hinv.worker
  have hhost : s.page.hostIdRef ≠ "" := by
    rw [hrest.host]
    rintro rfl
    revert hname
    decide
  have hopen : s.page.isOpen s.page.effects.conn = true := by
    rw [hrest.socket]
    exact hrest.isOpen
  obtain ⟨k, hconn, hlast⟩ := (pageInv_run hpage).lastInput_of_idle hhost hopen hrest.idle
  rw [hrest.socket] at hconn
  cases hconn
  rw [hrest.host] at hlast
  -- a join since then would not have been answered
  have hsettled : SettledInput n.socket h s.page.maskRef s.page.log := by
    refine hlast.settled_or_rejoined.resolve_right fun hrejoined => ?_
    rcases hjoins _ hrejoined with ⟨code, hmem, -⟩ | ⟨peer, hpeer, hwill⟩ | ⟨event, hmem, -⟩
    · rw [hrest.up] at hmem
      cases hmem
    · rw [Prog.eq_ret_of_isDone (hrest.task peer hpeer)] at hwill
      exact hwill
    · rw [hrest.down] at hmem
      cases hmem
  have hcarried : Carried n.clientId n.workerId (encodeMaskBase64 s.page.maskRef) s.server := by
    rcases hinputs _ hsettled with hup | ⟨-, hdelivers⟩
    · rw [hrest.up] at hup
      exact absurd hup (not_since_nil _ _)
    · obtain ⟨peer, hpeer, -⟩ := id hdelivers
      exact hdelivers.carried hpeer (Prog.eq_ret_of_isDone (hrest.task peer hpeer))
  have hhandled := hinv.handled hn hrest.toWorker hcarried
  obtain ⟨g, hwp, hfollows⟩ := (lastInputInv_run hworker hinv.not_initiates).settles hhandled
  rw [Prog.eq_ret_of_isDone hrest.router] at hwp
  rw [Prog.eq_ret_of_isDone hrest.emulator] at hfollows
  have hsettles : g.Settles (inputPacket s.page.maskRef) := hwp
  have hlong : 2 ≤ (inputPacket s.page.maskRef).length := le_refl 2
  obtain ⟨events, hevents, hdone⟩ := hrest.channel
  exact reads_mask (hsettles.shown hfollows hlong hevents hdone hport)

end Results

/-- A phone and a worker, with the libraries that can be run. -/
def plainWiring : Wiring Empty where
  caseMap := CaseMap.ascii
  pf := plainPlatform
  printNumber _ := []
  cfg := plainConfig
  wire := flatWire
  codec := inputCodec
  socket := 0
  clientId := "phone"
  workerId := "worker"

theorem plainWiring_lawful : plainWiring.Lawful where
  wire := flatWire_lawful
  printsAlike := printsAlike_flat _
  jsonParse := ⟨fun _ => (), rfl⟩
  decode := rfl
  named := by decide

/-- A host plays at the worker, and the phone pairs with its code. -/
def pairing : List PhoneAction :=
  (.connect "worker" .worker :: advances "worker" 1 ++
    .connect "host" .browser :: advances "host" 5 ++
    .receive "host" ⟨"joinRoom", none, some "worker"⟩ :: advances "host" 4 ++
    .receive "host" ⟨"controllerHost", none, some "worker"⟩ :: advances "host" 4 ++
    .connect "phone" .browser :: advances "phone" 5 : List ServerAction).map .server ++
  .page (.renderConn (some 0)) :: .page (.commit false) :: .page (.opened 0 false) :: .uplink ::
  (advances "phone" 7).map .server ++ [.downlink, .downlink]

/-- A button is pressed, and everything arrives. -/
def pressing : List PhoneAction :=
  .page (.setMaskBit 4 true) :: .page (.sendTick false) :: .uplink ::
  (advances "phone" 3).map .server ++
  .relay true :: (runs .router 2).map .worker ++ .relay true :: (runs .router 2).map .worker ++
  .relay true :: (runs .router 3).map .worker ++ (.poll :: runs .emulator 2).map .worker

theorem phone_input_converges_pressed :
    ∃ s₀ s, Run (PhonePath.step plainWiring) (PhonePath.init "AAAAAA" none) pairing s₀ ∧
      RunWhen (fun s _ => s.Routed plainWiring "host") (PhonePath.step plainWiring) s₀ pressing s ∧
      inputStateCallback none s.worker.room.controllers 1 Retro.deviceJoypad 0
        Retro.deviceIdJoypadX = 1 := by
  have hpaired : ∃ s₀, Run (PhonePath.step plainWiring) (PhonePath.init "AAAAAA" none) pairing s₀ ∧
      s₀.page.log.head? = some (.joined 0 "host") ∧
      (execWhen (fun s _ => s.Routed plainWiring "host") (PhonePath.step plainWiring) s₀
        pressing).any (fun s => decide (s.Routed plainWiring "host" ∧ s.page.hostIdRef = "host" ∧
          s.page.effects.conn = some 0 ∧ s.page.isOpen (some 0) = true ∧
          (s.page.sendTick false).log = s.page.log ∧ s.page.maskRef = 4 ∧ s.up = [] ∧
          s.down = [] ∧ s.toWorker = [] ∧
          (s.server.peers "phone").all (fun peer => peer.prog.isDone) = true ∧
          (s.worker.tasks .router).isDone = true ∧ (s.worker.tasks .emulator).isDone = true ∧
          s.worker.room.inputs = some [] ∧
          s.worker.room.playerSlots.slotForClient "phone" = some 1)) = true :=
    execWhen_any (by decide +kernel)
  obtain ⟨s₀, hbefore, hjoined, hpressed⟩ := hpaired
  obtain ⟨s, hrun, hrouted, hhost, hsocket, hopen, hidle, hmask, hup, hdown, htoWorker, htask,
    hrouter, hemulator, hinputs, hport⟩ := execWhen_any hpressed
  refine ⟨s₀, s, hbefore, hrun, ?_⟩
  have hrest : s.AtRest plainWiring "host" := by
    refine ⟨hhost, hsocket, hopen, hidle, hup, hdown, htoWorker, fun peer hpeer => ?_, hrouter,
      hemulator, [], hinputs, nofun⟩
    have hpeer' : s.server.peers "phone" = some peer := hpeer
    rwa [hpeer'] at htask
  have hport' : s.worker.room.playerSlots.slotForClient plainWiring.clientId =
      some (⟨1, by decide⟩ : Fin maxPlayers).val := hport
  have hread := phone_input_converges plainWiring_lawful (by decide) hbefore hjoined hrun hrouted
    hrest hport' Retro.deviceJoypad 0 Retro.deviceIdJoypadX
  rw [hmask] at hread
  exact hread

end CloudGame.Portal
