import CloudGame.Lib.JsText
import CloudGame.Portal.Messages
import CloudGame.Signal.Delivery
import CloudGame.Signal.Views

/-!
# The games and players that the portal shows (`arcade-portal/src/store/index.jsx`)

The store of the page takes the games and the player counts from its socket (`handleMessage` in
`store/signalConnection.js`) and, when it is mounted, from a snapshot that it fetches beside it.
`StoreRoom` is one connection: the server with all its tasks, the store, what is on its way to the
page and what the socket has handed out, both newest first.  The snapshot is arbitrary, as is what
the store held before the connection.

A snapshot replaces all counts, however old it is, so it must not come after a message (`InTime`).

* `counts_shown`: when the server is at rest and the page has read its messages, it shows the games
  of the last `games` message, and of every worker the count that the server has recorded.
-/

namespace CloudGame.Portal

open CloudGame.Lib CloudGame.Signal

variable {ν : Type}

/-! ## The store -/

structure Store (ν : Type) where
  games : Option (JsonValue ν)
  currentPlayersInRoom : Int
  playerCountsByRoom : String → Option Int

def initialState : Store ν := ⟨none, 0, fun _ => none⟩

/-- The payloads of `GAMES`, `SNAPSHOT` and `UPDATE_PLAYER_COUNT`. -/
inductive StoreUpdate (ν : Type) where
  | games (games : JsonValue ν)
  | snapshot (games : JsonValue ν) (playerCountsByRoom : String → Option Int)
  | updatePlayerCount (roomId : Option String) (count : String)

def parsePlayerCount (value : String) : Int :=
  if value = "" then 0
  else
    match Js.parseInt value with
    | some parsed => max 0 parsed
    | none => 0

def reducer (state : Store ν) : StoreUpdate ν → Store ν
  | .games games => { state with games := some games }
  | .snapshot games counts => { state with games := some games, playerCountsByRoom := counts }
  | .updatePlayerCount roomId count =>
    let parsed := parsePlayerCount count
    -- the empty room is as good as none
    if roomId.getD "" = "" then { state with currentPlayersInRoom := parsed }
    else { state with
      currentPlayersInRoom := parsed
      playerCountsByRoom :=
        Function.update state.playerCountsByRoom (roomId.getD "") (some parsed) }

/-- `msg.data || "{}"` -/
def gamesText (data : String) : String := if data = "" then "\x7b\x7d" else data

namespace Store

/-- A message that `parseSignalMessage` accepts; games that are not JSON are only logged. -/
def handleMessage (pf : RtcPlatform) (state : Store pf.Number) (msg : PortalMessage) :
    Store pf.Number :=
  if msg.id = SignalIds.games then
    match pf.jsonParse (gamesText msg.data) with
    | some games => reducer state (.games games)
    | none => state
  else if msg.id = SignalIds.updatePlayerCount then
    reducer state (.updatePlayerCount msg.targetID msg.data)
  else state

/-- The store at an event of the socket. -/
def receive (pf : RtcPlatform) (wire : WireCodecs ν) (state : Store pf.Number) :
    OutboundEvent → Store pf.Number
  | .message m =>
    match parseSignalMessage pf (.text (m.serialize wire)) with
    | some msg => state.handleMessage pf msg
    | none => state
  | .close => state

end Store

/-! ## The store and the server -/

structure StoreWiring (ν : Type) where
  pf : RtcPlatform
  printNumber : pf.Number → List Char
  cfg : Config
  wire : WireCodecs ν
  /-- The connection of the page. -/
  clientId : String

/-- The libraries do what they are documented to do. -/
structure StoreWiring.Lawful (n : StoreWiring ν) : Prop where
  printsAlike : PrintsAlike n.wire n.printNumber
  jsonParse : ∃ readNumber, n.pf.jsonParse = Js.jsonParse readNumber

structure StoreRoom (n : StoreWiring ν) where
  server : Server
  store : Store n.pf.Number
  down : List OutboundEvent
  received : List OutboundEvent

inductive StoreAction (n : StoreWiring ν) where
  | server (a : ServerAction)
  | snapshot (games : JsonValue n.pf.Number) (playerCountsByRoom : String → Option Int)
  | message

def StoreAction.atServer {n : StoreWiring ν} : StoreAction n → Option ServerAction
  | .server a => some a
  | _ => none

namespace StoreRoom

variable {n : StoreWiring ν}

def init (store : Store n.pf.Number) : StoreRoom n := ⟨Server.init, store, [], []⟩

def step (s : StoreRoom n) : StoreAction n → Option (StoreRoom n)
  | .server a => (s.server.step n.cfg a).map fun server =>
      { s with
        server := server
        down := grown (s.server.shared.queues n.clientId) (server.shared.queues n.clientId) ++
          s.down }
  | .snapshot games counts => some { s with store := reducer s.store (.snapshot games counts) }
  | .message => (s.down.getLast?).map fun event =>
      { s with
        store := s.store.receive n.pf n.wire event
        down := s.down.dropLast
        received := event :: s.received }

/-- The server leaves no client a stale message as its last, and no snapshot comes after a
message. -/
def InTime (s : StoreRoom n) : StoreAction n → Prop
  | .server a => NotStale n.cfg s.server a
  | .snapshot _ _ => s.received = []
  | .message => True

end StoreRoom

/-! ## What the store shows -/

/-- The store has the games of the last `games` message, if they are JSON, and the count of every
room from the last message about it. -/
structure ShowsLast (pf : RtcPlatform) (store : Store pf.Number) (received : List OutboundEvent) :
    Prop where
  games : ∀ data games, received.findSome? gamesData = some data →
    pf.jsonParse (gamesText (data.getD "")) = some games → store.games = some games
  counts : ∀ w data, w ≠ "" → received.findSome? (countData w) = some data →
    store.playerCountsByRoom w = some (parsePlayerCount (data.getD ""))

section Messages

variable {pf : RtcPlatform} {store : Store pf.Number} {received : List OutboundEvent}
  {m : SignalMessage}

theorem parsePlayerCount_toString {k : Nat} (hk : k < 2 ^ 53) :
    parsePlayerCount (toString k) = (k : Int) := by
  unfold parsePlayerCount
  rw [Js.parseInt_toString hk]
  split
  · next hempty =>
    have hparse := Js.parseInt_toString hk
    rw [hempty] at hparse
    cases hparse
  · exact max_eq_right (Int.natCast_nonneg k)

theorem games_ne_updatePlayerCount : SignalIds.games ≠ SignalIds.updatePlayerCount := by decide

/-- A message that shows nothing leaves what is shown. -/
theorem ShowsLast.quiet (h : ShowsLast pf store received) {event : OutboundEvent}
    (hgames : gamesData event = none) (hcount : ∀ w, countData w event = none) :
    ShowsLast pf store (event :: received) := by
  refine ⟨fun data games hdata => ?_, fun w data hw hdata => ?_⟩
  · rw [List.findSome?_cons, hgames] at hdata
    exact h.games data games hdata
  · rw [List.findSome?_cons, hcount w] at hdata
    exact h.counts w data hw hdata

theorem ShowsLast.takeGames (h : ShowsLast pf store received) (hid : m.id = SignalIds.games) :
    ShowsLast pf (store.handleMessage pf ⟨m.id, m.data.getD "", m.sessionId⟩)
      (.message m :: received) := by
  have hcount (w : String) : countData w (.message m) = none :=
    if_neg fun hc => games_ne_updatePlayerCount (hid.symm.trans hc.1)
  have hgames : gamesData (.message m) = some m.data := if_pos hid
  unfold Store.handleMessage
  rw [if_pos hid]
  refine ⟨fun data games hdata hparse => ?_, fun w data hw hdata => ?_⟩
  · rw [List.findSome?_cons, hgames] at hdata
    cases hdata
    rw [hparse]
    rfl
  · rw [List.findSome?_cons, hcount w] at hdata
    have hold := h.counts w data hw hdata
    split
    · exact hold
    · exact hold

theorem ShowsLast.takeCount (h : ShowsLast pf store received)
    (hid : m.id = SignalIds.updatePlayerCount) :
    ShowsLast pf (store.handleMessage pf ⟨m.id, m.data.getD "", m.sessionId⟩)
      (.message m :: received) := by
  have hne : ¬ m.id = SignalIds.games := fun hc => games_ne_updatePlayerCount (hc.symm.trans hid)
  have hgames : gamesData (.message m) = none := if_neg hne
  unfold Store.handleMessage reducer
  rw [if_neg hne, if_pos hid]
  refine ⟨fun data games hdata hparse => ?_, fun w data hw hdata => ?_⟩
  · rw [List.findSome?_cons, hgames] at hdata
    have hold := h.games data games hdata hparse
    dsimp only
    split
    · exact hold
    · exact hold
  · rw [List.findSome?_cons] at hdata
    by_cases hroom : m.sessionId = some w
    · have hcount : countData w (.message m) = some m.data := if_pos ⟨hid, hroom⟩
      rw [hcount] at hdata
      cases hdata
      simp only [hroom, Option.getD_some, if_neg hw, Function.update_self]
    · have hcount : countData w (.message m) = none := if_neg fun hc => hroom hc.2
      rw [hcount] at hdata
      have hold := h.counts w data hw hdata
      dsimp only
      split
      · exact hold
      · next hfull =>
        have hother : w ≠ m.sessionId.getD "" := by
          intro he
          cases hsession : m.sessionId with
          | none =>
            rw [hsession] at hfull
            exact hfull rfl
          | some room =>
            rw [hsession] at he
            exact hroom (hsession.trans (congrArg some he.symm))
        show Function.update _ _ _ w = _
        rw [Function.update_of_ne hother]
        exact hold

/-- The store at an event of the queue, which it understands. -/
theorem ShowsLast.receive {wire : WireCodecs ν} (h : ShowsLast pf store received)
    {event : OutboundEvent}
    (hread : ∀ m, event = .message m → parseSignalMessage pf (.text (m.serialize wire)) =
      some ⟨m.id, m.data.getD "", m.sessionId⟩) :
    ShowsLast pf (store.receive pf wire event) (event :: received) := by
  cases event with
  | close => exact h.quiet rfl fun _ => rfl
  | message m =>
    unfold Store.receive
    dsimp only
    rw [hread m rfl]
    dsimp only
    by_cases hgames : m.id = SignalIds.games
    · exact h.takeGames hgames
    by_cases hcount : m.id = SignalIds.updatePlayerCount
    · exact h.takeCount hcount
    unfold Store.handleMessage
    rw [if_neg hgames, if_neg hcount]
    exact h.quiet (if_neg hgames) fun w => if_neg fun hc => hcount hc.1

end Messages

structure StoreInv (n : StoreWiring ν) (s : StoreRoom n) : Prop where
  server : ∃ as, RunWhen (NotStale n.cfg) (Server.step n.cfg) Server.init as s.server
  queue : s.server.shared.queues n.clientId = s.down ++ s.received
  shows : ShowsLast n.pf s.store s.received

section Steps

variable {n : StoreWiring ν} {s s' : StoreRoom n}

theorem storeInv_step (hn : n.Lawful) (hi : StoreInv n s) {a : StoreAction n} (hok : s.InTime a)
    (hs : s.step a = some s') : StoreInv n s' := by
  obtain ⟨as, hrun⟩ := hi.server
  cases a with
  | server a =>
    obtain ⟨server, hserver, rfl⟩ := Option.map_eq_some_iff.mp hs
    obtain ⟨added, hqueue⟩ := queues_step (step_cases hserver) n.clientId
    refine ⟨⟨_, hrun.snoc a hok hserver⟩, ?_, hi.shows⟩
    show server.shared.queues n.clientId = grown _ _ ++ s.down ++ s.received
    rw [hqueue, grown_append, hi.queue, List.append_assoc]
  | snapshot games counts =>
    cases hs
    have hnone : s.received = [] := hok
    refine ⟨hi.server, hi.queue, ?_⟩
    show ShowsLast n.pf _ s.received
    rw [hnone]
    exact ⟨nofun, nofun⟩
  | message =>
    obtain ⟨event, hnext, rfl⟩ := Option.map_eq_some_iff.mp hs
    obtain ⟨newer, hdown⟩ := List.getLast?_eq_some_iff.mp hnext
    have hqueue : s.server.shared.queues n.clientId = newer ++ event :: s.received := by
      rw [hi.queue, hdown, List.append_assoc, List.singleton_append]
    refine ⟨hi.server, ?_, hi.shows.receive fun m hm => ?_⟩
    · show _ = s.down.dropLast ++ event :: s.received
      rw [hqueue, hdown, List.dropLast_concat]
    · obtain ⟨readNumber, hparse⟩ := hn.jsonParse
      have hmem : .message m ∈ s.server.shared.queues n.clientId := by
        rw [hqueue, hm]
        exact List.mem_append_right _ List.mem_cons_self
      exact parseSignalMessage_serialize n.pf hparse hn.printsAlike
        (onBehalf_known ((forwardInv_run hrun.run).queues n.clientId m hmem))

theorem storeInv_run (hn : n.Lawful) {store : Store n.pf.Number} {as : List (StoreAction n)}
    (h : RunWhen StoreRoom.InTime StoreRoom.step (StoreRoom.init store) as s) : StoreInv n s :=
  h.relative ⟨⟨[], .nil⟩, rfl, ⟨nofun, nofun⟩⟩ fun _ _ _ _ _ hi hok hs =>
    storeInv_step hn hi hok hs

/-- The server at work is one that runs alone. -/
theorem server_run {store : Store n.pf.Number} {as : List (StoreAction n)}
    (h : Run StoreRoom.step (StoreRoom.init store) as s) :
    Run (Server.step n.cfg) Server.init (as.filterMap StoreAction.atServer) s.server := by
  refine h.history (I := fun as s => Run (Server.step n.cfg) Server.init
    (as.filterMap StoreAction.atServer) s.server) .nil fun as s a s' hi _ hs => ?_
  rw [List.filterMap_append]
  cases a with
  | server a =>
    obtain ⟨server, hserver, rfl⟩ := Option.map_eq_some_iff.mp hs
    exact hi.snoc a trivial hserver
  | snapshot games counts =>
    cases hs
    show Run _ _ (as.filterMap StoreAction.atServer ++ []) s.server
    rw [List.append_nil]
    exact hi
  | message =>
    obtain ⟨event, -, rfl⟩ := Option.map_eq_some_iff.mp hs
    show Run _ _ (as.filterMap StoreAction.atServer ++ []) s.server
    rw [List.append_nil]
    exact hi

end Steps

/-! ## The result -/

/-- **The page shows what is.**  In a run that leaves no client a stale message as its last, and in
which no snapshot comes after a message, whenever no task of the server is at work and the page has
read its messages: the store has the games of a message that the server's library decodes to the
current payload, if the scripts can parse it, and for every worker with a recorded player count
that count. -/
theorem counts_shown {n : StoreWiring ν} (hn : n.Lawful) {store : Store n.pf.Number}
    {as : List (StoreAction n)} {s : StoreRoom n}
    (h : RunWhen StoreRoom.InTime StoreRoom.step (StoreRoom.init store) as s)
    (hq : s.server.Quiescent) (hread : s.down = [])
    (hc : s.server.shared.registry.clients.lookup n.clientId ≠ none) :
    (∃ data, GamesCurrent n.cfg s.server.shared data ∧ ∀ games,
      n.pf.jsonParse (gamesText (data.getD "")) = some games → s.store.games = some games) ∧
    ∀ w k, w ≠ "" → s.server.shared.registry.playerCounts.lookup w = some k → k < 2 ^ 53 →
      s.store.playerCountsByRoom w = some (k : Int) := by
  have hi := storeInv_run hn h
  obtain ⟨as', hrun⟩ := hi.server
  have hqueue : s.server.shared.queues n.clientId = s.received := by
    rw [hi.queue, hread, List.nil_append]
  obtain ⟨hgames, hcounts⟩ := viewed_run hrun n.clientId hc
  obtain ⟨data, hlast, hcurrent⟩ := hgames.resolve_right hq.not_owes
  rw [hqueue] at hlast
  refine ⟨⟨data, hcurrent, fun games hparse => hi.shows.games data games hlast hparse⟩,
    fun w k hw hk hlt => ?_⟩
  obtain ⟨data, hlast, hcurrent⟩ := (hcounts w (by rw [hk]; nofun)).resolve_right hq.not_owes
  rw [hqueue] at hlast
  rw [hi.shows.counts w data hw hlast, hcurrent k hk, Option.getD_some,
    parsePlayerCount_toString hlt]

def storeWiring : StoreWiring Empty where
  pf := plainPlatform
  printNumber _ := []
  cfg := plainConfig
  wire := flatWire
  clientId := "late"

theorem storeWiring_lawful : storeWiring.Lawful where
  printsAlike := printsAlike_flat _
  jsonParse := ⟨fun _ => (), rfl⟩

/-- `InTime`, as a look at the message tells. -/
def inTime (s : StoreRoom storeWiring) : StoreAction storeWiring → Bool
  | .server a => current plainConfig s.server a
  | .snapshot _ _ => s.received.isEmpty
  | .message => true

theorem inTime_of_look (s : StoreRoom storeWiring) (a : StoreAction storeWiring)
    (h : inTime s a = true) : s.InTime a := by
  cases a with
  | server a => exact notStale_of_current plainConfig s.server a h
  | snapshot games counts => exact List.isEmpty_iff.mp h
  | message => trivial

/-- The page of the browser that comes late; its snapshot tells an old count. -/
def storeRun : List (StoreAction storeWiring) :=
  viewRun.map .server ++ [.snapshot .null fun _ => some 2, .message, .message]

theorem counts_shown_late : ∃ s,
    Run StoreRoom.step (StoreRoom.init initialState : StoreRoom storeWiring) storeRun s ∧
      s.store.playerCountsByRoom "worker" = some 3 := by
  have heval : (execWhen (fun s a => inTime s a = true) StoreRoom.step
      (StoreRoom.init initialState : StoreRoom storeWiring) storeRun).any (fun s =>
        decide (s.server.Done viewRun ∧ s.down = [] ∧
          s.server.shared.registry.clients.lookup "late" ≠ none ∧
          s.server.shared.registry.playerCounts.lookup "worker" = some 3)) = true := by
    decide +kernel
  obtain ⟨s, hrun, hdone, hread, hc, hk⟩ := execWhen_any heval
  have hinTime := hrun.mono inTime_of_look
  have hq : s.server.Quiescent := quiescent_of_done (server_run hrun.run) hdone
  have hshown := counts_shown storeWiring_lawful hinTime hq hread hc
  exact ⟨s, hrun.run, hshown.2 "worker" 3 (by decide) hk (by decide)⟩

/-- The snapshot that was taken before the worker told its players comes last, and the page no
longer shows them. -/
theorem counts_overtaken : ∃ s,
    Run StoreRoom.step (StoreRoom.init initialState : StoreRoom storeWiring)
        (viewRun.map .server ++ [.message, .message, .snapshot .null fun _ => none]) s ∧
      s.server.Quiescent ∧ s.down = [] ∧
      s.server.shared.registry.playerCounts.lookup "worker" = some 3 ∧
      s.store.playerCountsByRoom "worker" = none := by
  have heval : (execWhen (fun _ _ => True) StoreRoom.step
      (StoreRoom.init initialState : StoreRoom storeWiring)
      (viewRun.map .server ++ [.message, .message, .snapshot .null fun _ => none])).any (fun s =>
        decide (s.server.Done viewRun ∧ s.down = [] ∧
          s.server.shared.registry.playerCounts.lookup "worker" = some 3 ∧
          s.store.playerCountsByRoom "worker" = none)) = true := by
    decide +kernel
  obtain ⟨s, hrun, hdone, h⟩ := execWhen_any heval
  exact ⟨s, hrun, quiescent_of_done (server_run hrun.run) hdone, h⟩

end CloudGame.Portal
