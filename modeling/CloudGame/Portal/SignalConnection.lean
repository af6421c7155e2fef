import CloudGame.Lib.Run
import CloudGame.Lib.Timers
import Mathlib.Algebra.Group.Nat.Defs

/-!
# The signaling connection of the portal (`store/signalConnection.js`)

`createSignalConnection` keeps one WebSocket to the signaling server: a closed socket is replaced
after a delay, or when the page comes to the foreground or back online, until the app closes the
connection.  The state holds the variables of its closures, every socket it ever made, the timers
of the page, and the page's visibility and connectivity.

* `Core`: what holds of the sockets and the timers in every state; `Live` and `Dead` add what holds
  before and after the app's `close`; `inv_run` has them for every run.
* `connection_kept`: one socket and one reconnect timer at most, a reconnect timer whenever there is
  nothing else to bring the connection back, and nothing left to run after `close`.
-/

namespace CloudGame.Portal

open CloudGame.Lib (Timer Timers Run execWhen_any)

/-! ## State -/

/-- `CONNECTING`, `OPEN`, `CLOSING` and `CLOSED`. -/
inductive ReadyState where
  | connecting
  | opened
  | closing
  | closed
deriving DecidableEq

/-- A socket with what its call of `connect` closed over; `listening` says whether the four
listeners are still on it. -/
structure Socket where
  attempt : Nat
  readyState : ReadyState
  listening : Bool
  heartbeatId : Option Nat
  connectTimeoutId : Option Nat
deriving DecidableEq

/-- What a timer runs; the number of a socket is its place in `sockets`. -/
inductive Callback where
  | reconnect (attempt : Nat)
  | heartbeat (n : Nat)
  | connectTimeout (n : Nat)
deriving DecidableEq

def Callback.isReconnect : Callback → Bool
  | .reconnect _ => true
  | _ => false

def Callback.isHeartbeat : Callback → Bool
  | .heartbeat _ => true
  | _ => false

/-- The page events that have listeners. -/
inductive PageEvent where
  | pageshow
  | focus
  | online
  | visibilitychange
deriving DecidableEq

/-- `announced` is the socket `onSocketChange` was last called with, and `undelivered` the events
of changes to `visible` and `online` whose listeners are still to run. -/
structure Connection where
  heartbeatMs : Nat
  closedByApp : Bool
  reconnectTimer : Option Nat
  socket : Option Nat
  cleanupSocket : Option Nat
  cleanupLifecycle : Bool
  announced : Option Nat
  sockets : List Socket
  timers : Timers Callback
  visible : Bool
  online : Bool
  undelivered : List PageEvent

def maxReconnectDelayMs : Nat := 5000

def connectTimeoutMs : Nat := 8000

namespace Connection

def canAttemptConnection (c : Connection) : Bool :=
  !c.closedByApp && c.visible && c.online

def modifySocket (c : Connection) (n : Nat) (f : Socket → Socket) : Connection :=
  { c with sockets := c.sockets.modify n f }

/-- The ready state of a socket, `none` without one. -/
def readyState (c : Connection) (socket : Option Nat) : Option ReadyState :=
  socket.bind fun n => c.sockets[n]?.map Socket.readyState

end Connection

/-- `WebSocket.close` -/
def Socket.close (k : Socket) : Socket :=
  if k.readyState = .closing ∨ k.readyState = .closed then k else { k with readyState := .closing }

namespace Connection

/-! ## Functions of the connection -/

def closeSocket (c : Connection) : Option Nat → Connection
  | none => c
  | some n => c.modifySocket n Socket.close

/-- `throws` says whether `send` throws. -/
def sendGetGames (c : Connection) (targetSocket : Option Nat) (throws : Bool) : Connection :=
  if c.readyState targetSocket ≠ some .opened then c
  else if throws then c.closeSocket targetSocket
  else c

def stopConnectTimeout (c : Connection) (n : Nat) : Connection :=
  { c.modifySocket n fun k => { k with connectTimeoutId := none } with
    timers := c.timers.clear (c.sockets[n]?.bind Socket.connectTimeoutId) }

def startHeartbeat (c : Connection) (n : Nat) : Connection :=
  { c.modifySocket n fun k => { k with heartbeatId := some c.timers.nextId } with
    timers := c.timers.set c.heartbeatMs (.heartbeat n) }

def stopHeartbeat (c : Connection) (n : Nat) : Connection :=
  { c.modifySocket n fun k => { k with heartbeatId := none } with
    timers := c.timers.clear (c.sockets[n]?.bind Socket.heartbeatId) }

/-- The state and the number of the socket that `connect` returns. -/
def connect (c : Connection) (attempt : Nat) : Connection × Nat :=
  let nextSocket := c.sockets.length
  ({ c with
      announced := some nextSocket
      sockets := c.sockets ++
        [{ attempt := attempt, readyState := .connecting, listening := true, heartbeatId := none,
           connectTimeoutId := some c.timers.nextId }]
      cleanupSocket := some nextSocket
      timers := c.timers.set connectTimeoutMs (.connectTimeout nextSocket) }, nextSocket)

/-- `socket = connect(attempt)` -/
def reconnect (c : Connection) (attempt : Nat) : Connection :=
  { (c.connect attempt).1 with socket := some (c.connect attempt).2 }

/-- `if (reconnectTimer) { clearTimeout(reconnectTimer); reconnectTimer = null; }` -/
def stopReconnect (c : Connection) : Connection :=
  { c with timers := c.timers.clear c.reconnectTimer, reconnectTimer := none }

/-- The delay before the attempt that follows `attempt`. -/
def reconnectDelay (attempt : Nat) : Nat := min (1000 * 2 ^ attempt) maxReconnectDelayMs

def handleClose (c : Connection) (n : Nat) (attempt : Nat) : Connection :=
  let c := (c.stopConnectTimeout n).stopHeartbeat n
  if c.closedByApp then c
  else if c.socket ≠ some n then c
  else if ¬ c.canAttemptConnection then c
  else
    let c := c.stopReconnect
    { c with
      reconnectTimer := some c.timers.nextId
      timers := c.timers.set (reconnectDelay attempt) (.reconnect attempt) }

def handleOpen (c : Connection) (n : Nat) (throws : Bool) : Connection :=
  ((c.stopConnectTimeout n).sendGetGames (some n) throws).startHeartbeat n

/-- What the timer of `handleClose` runs. -/
def handleReconnectTimer (c : Connection) (attempt : Nat) : Connection :=
  let c := { c with reconnectTimer := none }
  if ¬ c.canAttemptConnection then c
  else c.reconnect (min (attempt + 1) 5)

/-- What the timer of `connect` runs. -/
def handleConnectTimeout (c : Connection) (n : Nat) : Connection :=
  if c.socket ≠ some n then c
  else if c.readyState (some n) = some .connecting then c.closeSocket (some n)
  else c

def recoverOnForeground (c : Connection) (throws : Bool) : Connection :=
  if c.closedByApp then c
  else if ¬ c.canAttemptConnection then c
  else if c.readyState c.socket = some .opened then c.sendGetGames c.socket throws
  else if c.readyState c.socket = some .connecting then c
  else if c.readyState c.socket = some .closing then c
  else if c.reconnectTimer.isSome then c
  else c.reconnect 0

/-- The listener of a page event. -/
def handlePageEvent (c : Connection) (throws : Bool) : PageEvent → Connection
  | .visibilitychange => if c.visible then c.recoverOnForeground throws else c
  | _ => c.recoverOnForeground throws

/-- What `cleanupSocket` does for the socket it was made for. -/
def removeListeners (c : Connection) (n : Nat) : Connection :=
  ((c.modifySocket n fun k => { k with listening := false }).stopConnectTimeout n).stopHeartbeat n

def close (c : Connection) : Connection :=
  let c := { c with closedByApp := true }.stopReconnect
  let c := { c with cleanupLifecycle := false }
  let c := match c.cleanupSocket with
    | some n => { c.removeListeners n with cleanupSocket := none }
    | none => c
  let c := c.closeSocket c.socket
  { c with socket := none, announced := none }

end Connection

/-- `createSignalConnection`, called on a page of that visibility and connectivity. -/
def createSignalConnection (heartbeatMs : Nat) (visible online : Bool) : Connection :=
  let c : Connection :=
    { heartbeatMs := heartbeatMs, closedByApp := false, reconnectTimer := none, socket := none,
      cleanupSocket := none, cleanupLifecycle := true, announced := none, sockets := [],
      timers := Timers.empty, visible := visible, online := online, undelivered := [] }
  if c.canAttemptConnection then c.reconnect 0 else c

/-! ## Events -/

/-- Events of the sockets, of the timers and of the page; `throws` says whether the `send` of a
listener throws. -/
inductive ConnectionAction where
  | opened (n : Nat) (throws : Bool)
  | closing (n : Nat)
  | closed (n : Nat)
  | error (n : Nat)
  | message (n : Nat)
  | timer (id : Nat) (throws : Bool)
  | setVisible (visible : Bool)
  | setOnline (online : Bool)
  | page (event : PageEvent) (throws : Bool)
  | close
deriving DecidableEq

namespace Connection

/-- Runs a timer that expired: a timeout is no longer pending then, an interval stays. -/
def runTimer (c : Connection) (id : Nat) (throws : Bool) : Callback → Connection
  | .reconnect attempt =>
    { c with timers := c.timers.clear (some id) }.handleReconnectTimer attempt
  | .heartbeat n => c.sendGetGames (some n) throws
  | .connectTimeout n => { c with timers := c.timers.clear (some id) }.handleConnectTimeout n

def step (c : Connection) : ConnectionAction → Option Connection
  | .opened n throws =>
    c.sockets[n]?.bind fun k =>
      if k.readyState = .connecting then
        let c := c.modifySocket n fun k => { k with readyState := .opened }
        some (if k.listening then c.handleOpen n throws else c)
      else none
  | .closing n =>
    c.sockets[n]?.bind fun k =>
      if k.readyState = .connecting ∨ k.readyState = .opened then
        some (c.modifySocket n fun k => { k with readyState := .closing })
      else none
  | .closed n =>
    c.sockets[n]?.bind fun k =>
      if k.readyState ≠ .closed then
        let c := c.modifySocket n fun k => { k with readyState := .closed }
        some (if k.listening then c.handleClose n k.attempt else c)
      else none
  -- these two listeners log and call the app
  | .error n => if n < c.sockets.length then some c else none
  | .message n => if n < c.sockets.length then some c else none
  | .timer id throws => (c.timers.find id).map fun t => c.runTimer id throws t.callback
  | .setVisible visible =>
    if visible = c.visible then some c
    else some { c with visible := visible, undelivered := .visibilitychange :: c.undelivered }
  | .setOnline online =>
    -- `offline` has no listener
    if online = c.online then some c
    else if online then some { c with online := true, undelivered := .online :: c.undelivered }
    else some { c with online := false }
  | .page event throws =>
    let c := { c with undelivered := c.undelivered.erase event }
    some (if c.cleanupLifecycle then c.handlePageEvent throws event else c)
  | .close => some c.close

end Connection

/-! ## What holds of sockets and timers -/

def AllClosed (sockets : List Socket) : Prop :=
  ∀ (n : Nat) (k : Socket), sockets[n]? = some k → k.readyState = .closed

/-- A socket that is not `CLOSED` is the newest.  A pending reconnect timer is the one
`reconnectTimer` names, and then every socket is closed; a pending heartbeat is the one its socket
knows, so what a socket clears is its own. -/
structure Core (sockets : List Socket) (timers : Timers Callback) (reconnectTimer : Option Nat) :
    Prop where
  newest : ∀ {n : Nat} {k : Socket}, sockets[n]? = some k → k.readyState ≠ .closed →
    n + 1 = sockets.length
  unopened : ∀ {n : Nat} {k : Socket}, sockets[n]? = some k → k.readyState = .connecting →
    k.heartbeatId = none
  reconnects : ∀ {t : Timer Callback}, t ∈ timers.pending → t.callback.isReconnect = true →
    reconnectTimer = some t.id ∧ t.delay ≤ maxReconnectDelayMs ∧ AllClosed sockets
  waits : ∀ {id : Nat}, reconnectTimer = some id →
    ∃ t ∈ timers.pending, t.id = id ∧ t.callback.isReconnect = true
  beats : ∀ {t : Timer Callback} {n : Nat}, t ∈ timers.pending → t.callback = .heartbeat n →
    ∃ k : Socket, sockets[n]? = some k ∧ k.heartbeatId = some t.id
  heartbeatId : ∀ {n id : Nat} {k : Socket}, sockets[n]? = some k → k.heartbeatId = some id →
    timers.Gave id (.heartbeat n)
  connectTimeoutId : ∀ {n id : Nat} {k : Socket}, sockets[n]? = some k →
    k.connectTimeoutId = some id → timers.Gave id (.connectTimeout n)

/-- What the functions of the connection do to a socket: it opens and closes, and gives up timers
that are not pending any more. -/
structure Changes (timers : Timers Callback) (n : Nat) (k k' : Socket) : Prop where
  closed : k.readyState = .closed → k'.readyState = .closed
  connecting : k'.readyState = .connecting → k.readyState = .connecting
  heartbeatId : k'.heartbeatId = k.heartbeatId ∨
    k'.heartbeatId = none ∧ ∀ t ∈ timers.pending, t.callback ≠ .heartbeat n
  connectTimeoutId : k'.connectTimeoutId = k.connectTimeoutId ∨ k'.connectTimeoutId = none

theorem getElem?_modify_cases {sockets : List Socket} {m n : Nat} {f : Socket → Socket}
    {k : Socket} (h : (sockets.modify n f)[m]? = some k) :
    (m = n ∧ ∃ l : Socket, sockets[n]? = some l ∧ f l = k) ∨ m ≠ n ∧ sockets[m]? = some k := by
  rw [List.getElem?_modify] at h
  obtain ⟨l, hl, rfl⟩ := Option.map_eq_some_iff.mp h
  by_cases hmn : n = m
  · subst hmn
    rw [if_pos rfl]
    exact Or.inl ⟨rfl, l, hl, rfl⟩
  · rw [if_neg hmn]
    exact Or.inr ⟨fun he => hmn he.symm, hl⟩

theorem getElem?_concat_cases {sockets : List Socket} {m : Nat} {k l : Socket}
    (h : (sockets ++ [k])[m]? = some l) : sockets[m]? = some l ∨ m = sockets.length ∧ l = k := by
  rcases Nat.lt_or_ge m sockets.length with hlt | hge
  · rw [List.getElem?_append_left hlt] at h
    exact Or.inl h
  · rw [List.getElem?_append_right hge, List.getElem?_singleton] at h
    split at h
    · next hzero => exact Or.inr ⟨by omega, (Option.some.inj h).symm⟩
    · cases h

namespace Core

variable {sockets : List Socket} {timers : Timers Callback} {reconnectTimer : Option Nat}

theorem modify {n : Nat} {f : Socket → Socket} (hc : Core sockets timers reconnectTimer)
    (hf : ∀ k, sockets[n]? = some k → Changes timers n k (f k)) :
    Core (sockets.modify n f) timers reconnectTimer where
  newest := by
    intro m k hk hstate
    rw [List.length_modify]
    rcases getElem?_modify_cases hk with ⟨rfl, l, hl, rfl⟩ | ⟨hne, hk⟩
    · exact hc.newest hl fun he => hstate ((hf l hl).closed he)
    · exact hc.newest hk hstate
  unopened := by
    intro m k hk hstate
    rcases getElem?_modify_cases hk with ⟨rfl, l, hl, rfl⟩ | ⟨hne, hk⟩
    · have hnone := hc.unopened hl ((hf l hl).connecting hstate)
      rcases (hf l hl).heartbeatId with he | ⟨he, _⟩
      · rw [he, hnone]
      · exact he
    · exact hc.unopened hk hstate
  reconnects := by
    intro t ht hre
    obtain ⟨hid, hdelay, hall⟩ := hc.reconnects ht hre
    refine ⟨hid, hdelay, fun m k hk => ?_⟩
    rcases getElem?_modify_cases hk with ⟨rfl, l, hl, rfl⟩ | ⟨hne, hk⟩
    · exact (hf l hl).closed (hall _ l hl)
    · exact hall m k hk
  waits := hc.waits
  beats := by
    intro t m ht hcall
    obtain ⟨k, hk, hid⟩ := hc.beats ht hcall
    rw [List.getElem?_modify, hk]
    by_cases hmn : n = m
    · subst hmn
      refine ⟨f k, by simp, ?_⟩
      rcases (hf k hk).heartbeatId with he | ⟨_, hno⟩
      · rw [he, hid]
      · exact absurd hcall (hno t ht)
    · exact ⟨k, by simp [hmn], hid⟩
  heartbeatId := by
    intro m id k hk hid
    rcases getElem?_modify_cases hk with ⟨rfl, l, hl, rfl⟩ | ⟨hne, hk⟩
    · rcases (hf l hl).heartbeatId with he | ⟨he, _⟩
      · exact hc.heartbeatId hl (he ▸ hid)
      · rw [he] at hid
        cases hid
    · exact hc.heartbeatId hk hid
  connectTimeoutId := by
    intro m id k hk hid
    rcases getElem?_modify_cases hk with ⟨rfl, l, hl, rfl⟩ | ⟨hne, hk⟩
    · rcases (hf l hl).connectTimeoutId with he | he
      · exact hc.connectTimeoutId hl (he ▸ hid)
      · rw [he] at hid
        cases hid
    · exact hc.connectTimeoutId hk hid

/-- A timer may be cleared that is no reconnect timer. -/
theorem clear {id : Option Nat} (hc : Core sockets timers reconnectTimer)
    (hid : ∀ t ∈ timers.pending, id = some t.id → t.callback.isReconnect = false) :
    Core sockets (timers.clear id) reconnectTimer where
  newest := hc.newest
  unopened := hc.unopened
  reconnects := fun ht => hc.reconnects (Timers.mem_clear.mp ht).1
  waits := by
    intro id' hwait
    obtain ⟨t, ht, rfl, hre⟩ := hc.waits hwait
    refine ⟨t, Timers.mem_clear.mpr ⟨ht, fun he => ?_⟩, rfl, hre⟩
    rw [hid t ht he] at hre
    cases hre
  beats := fun ht => hc.beats (Timers.mem_clear.mp ht).1
  heartbeatId := fun hk hid => (hc.heartbeatId hk hid).clear
  connectTimeoutId := fun hk hid => (hc.connectTimeoutId hk hid).clear

/-- The reconnect timer is cleared, or has expired. -/
theorem stopReconnect (hc : Core sockets timers reconnectTimer) :
    Core sockets (timers.clear reconnectTimer) none where
  newest := hc.newest
  unopened := hc.unopened
  reconnects := by
    intro t ht hre
    obtain ⟨ht, hne⟩ := Timers.mem_clear.mp ht
    exact absurd (hc.reconnects ht hre).1 hne
  waits := fun he => by cases he
  beats := fun ht => hc.beats (Timers.mem_clear.mp ht).1
  heartbeatId := fun hk hid => (hc.heartbeatId hk hid).clear
  connectTimeoutId := fun hk hid => (hc.connectTimeoutId hk hid).clear

/-- A reconnect timer is set when every socket is closed. -/
theorem schedule {delay attempt : Nat} (hc : Core sockets timers none)
    (hall : AllClosed sockets) (hdelay : delay ≤ maxReconnectDelayMs) :
    Core sockets (timers.set delay (.reconnect attempt)) (some timers.nextId) where
  newest := hc.newest
  unopened := hc.unopened
  reconnects := by
    intro t ht hre
    rcases Timers.mem_set.mp ht with rfl | ht
    · exact ⟨rfl, hdelay, hall⟩
    · cases (hc.reconnects ht hre).1
  waits := fun he => ⟨_, Timers.mem_set.mpr (Or.inl rfl), Option.some.inj he, rfl⟩
  beats := by
    intro t n ht hcall
    rcases Timers.mem_set.mp ht with rfl | ht
    · cases hcall
    · exact hc.beats ht hcall
  heartbeatId := fun hk hid => (hc.heartbeatId hk hid).set
  connectTimeoutId := fun hk hid => (hc.connectTimeoutId hk hid).set

/-- A new socket is made when every other is closed and no reconnect timer is pending. -/
theorem connect {delay attempt : Nat} (hc : Core sockets timers none) (hall : AllClosed sockets) :
    Core
      (sockets ++
        [{ attempt := attempt, readyState := .connecting, listening := true, heartbeatId := none,
           connectTimeoutId := some timers.nextId }])
      (timers.set delay (.connectTimeout sockets.length)) none where
  newest := by
    intro n k hk hstate
    rcases getElem?_concat_cases hk with hk | ⟨rfl, rfl⟩
    · exact absurd (hall n k hk) hstate
    · simp
  unopened := by
    intro n k hk hstate
    rcases getElem?_concat_cases hk with hk | ⟨rfl, rfl⟩
    · exact hc.unopened hk hstate
    · rfl
  reconnects := by
    intro t ht hre
    rcases Timers.mem_set.mp ht with rfl | ht
    · cases hre
    · cases (hc.reconnects ht hre).1
  waits := fun he => by cases he
  beats := by
    intro t n ht hcall
    rcases Timers.mem_set.mp ht with rfl | ht
    · cases hcall
    · obtain ⟨k, hk, hid⟩ := hc.beats ht hcall
      have hlt : n < sockets.length := (List.getElem?_eq_some_iff.mp hk).1
      exact ⟨k, by rw [List.getElem?_append_left hlt, hk], hid⟩
  heartbeatId := by
    intro n id k hk hid
    rcases getElem?_concat_cases hk with hk | ⟨rfl, rfl⟩
    · exact (hc.heartbeatId hk hid).set
    · cases hid
  connectTimeoutId := by
    intro n id k hk hid
    rcases getElem?_concat_cases hk with hk | ⟨rfl, rfl⟩
    · exact (hc.connectTimeoutId hk hid).set
    · obtain rfl : timers.nextId = id := Option.some.inj hid
      exact Timers.gave_set

/-- A socket past `CONNECTING` gets its heartbeat when it has none. -/
theorem startHeartbeat {n delay : Nat} (hc : Core sockets timers reconnectTimer) {k : Socket}
    (hk : sockets[n]? = some k) (hstate : k.readyState ≠ .connecting)
    (hnone : k.heartbeatId = none) :
    Core (sockets.modify n fun k => { k with heartbeatId := some timers.nextId })
      (timers.set delay (.heartbeat n)) reconnectTimer where
  newest := by
    intro m l hl hopen
    rw [List.length_modify]
    rcases getElem?_modify_cases hl with ⟨rfl, l', hl', rfl⟩ | ⟨hne, hl⟩
    · exact hc.newest hl' hopen
    · exact hc.newest hl hopen
  unopened := by
    intro m l hl hconn
    rcases getElem?_modify_cases hl with ⟨rfl, l', hl', rfl⟩ | ⟨hne, hl⟩
    · obtain rfl : k = l' := Option.some.inj (hk.symm.trans hl')
      exact absurd hconn hstate
    · exact hc.unopened hl hconn
  reconnects := by
    intro t ht hre
    rcases Timers.mem_set.mp ht with rfl | ht
    · cases hre
    · obtain ⟨hid, hdelay, hall⟩ := hc.reconnects ht hre
      refine ⟨hid, hdelay, fun m l hl => ?_⟩
      rcases getElem?_modify_cases hl with ⟨rfl, l', hl', rfl⟩ | ⟨hne, hl⟩
      · exact hall _ l' hl'
      · exact hall m l hl
  waits := by
    intro id hwait
    obtain ⟨t, ht, hid, hre⟩ := hc.waits hwait
    exact ⟨t, Timers.mem_set.mpr (Or.inr ht), hid, hre⟩
  beats := by
    intro t m ht hcall
    rw [List.getElem?_modify]
    rcases Timers.mem_set.mp ht with rfl | ht
    · obtain rfl : n = m := Callback.heartbeat.inj hcall
      exact ⟨{ k with heartbeatId := some timers.nextId }, by simp [hk], rfl⟩
    · obtain ⟨l, hl, hid⟩ := hc.beats ht hcall
      by_cases hmn : n = m
      · subst hmn
        obtain rfl : k = l := Option.some.inj (hk.symm.trans hl)
        rw [hnone] at hid
        cases hid
      · exact ⟨l, by simp [hmn, hl], hid⟩
  heartbeatId := by
    intro m id l hl hid
    rcases getElem?_modify_cases hl with ⟨rfl, l, hl, rfl⟩ | ⟨hne, hl⟩
    · obtain rfl : timers.nextId = id := Option.some.inj hid
      exact Timers.gave_set
    · exact (hc.heartbeatId hl hid).set
  connectTimeoutId := by
    intro m id l hl hid
    rcases getElem?_modify_cases hl with ⟨rfl, l', hl', rfl⟩ | ⟨hne, hl⟩
    · exact (hc.connectTimeoutId hl' hid).set
    · exact (hc.connectTimeoutId hl hid).set

end Core

/-! ## Before and after `close` -/

/-- Before the app's `close`, `socket` is the newest one, and all have their listeners. -/
structure Live (c : Connection) : Prop where
  core : Core c.sockets c.timers c.reconnectTimer
  closedByApp : c.closedByApp = false
  cleanupLifecycle : c.cleanupLifecycle = true
  socket : ∀ n, c.socket = some n ↔ n + 1 = c.sockets.length
  cleanupSocket : c.cleanupSocket = c.socket
  announced : c.announced = c.socket
  listening : ∀ (n : Nat) (k : Socket), c.sockets[n]? = some k → k.listening = true
  stopped : ∀ (n : Nat) (k : Socket), c.sockets[n]? = some k → k.readyState = .closed →
    k.heartbeatId = none

/-- Without a socket the connection is waited for, or the page cannot use it now. -/
def Attended (c : Connection) : Prop :=
  c.visible = true → c.online = true → c.undelivered = [] → AllClosed c.sockets →
    c.reconnectTimer ≠ none

/-- After the app's `close` no listener is left on a socket that is still to close. -/
structure Dead (c : Connection) : Prop where
  core : Core c.sockets c.timers c.reconnectTimer
  closedByApp : c.closedByApp = true
  cleanupLifecycle : c.cleanupLifecycle = false
  socket : c.socket = none
  cleanupSocket : c.cleanupSocket = none
  announced : c.announced = none
  reconnectTimer : c.reconnectTimer = none
  deaf : ∀ (n : Nat) (k : Socket), c.sockets[n]? = some k → k.readyState ≠ .closed →
    k.listening = false
  silent : ∀ (n : Nat) (k : Socket), c.sockets[n]? = some k → k.heartbeatId = none

theorem forall_modify {sockets : List Socket} {n : Nat} {f : Socket → Socket}
    {P : Nat → Socket → Prop} (h : ∀ m k, sockets[m]? = some k → P m k)
    (hf : ∀ k, sockets[n]? = some k → P n k → P n (f k)) :
    ∀ m k, (sockets.modify n f)[m]? = some k → P m k := by
  intro m k hk
  rcases getElem?_modify_cases hk with ⟨rfl, l, hl, rfl⟩ | ⟨_, hk⟩
  · exact hf l hl (h _ l hl)
  · exact h m k hk

theorem not_allClosed {sockets : List Socket} {n : Nat} {k : Socket} (hk : sockets[n]? = some k)
    (hstate : k.readyState ≠ .closed) : ¬ AllClosed sockets := fun hall => hstate (hall n k hk)

theorem readyState_eq {c : Connection} {n : Nat} {k : Socket} (hk : c.sockets[n]? = some k) :
    c.readyState (some n) = some k.readyState := by
  simp [Connection.readyState, hk]

theorem readyState_some {c : Connection} {socket : Option Nat} {state : ReadyState}
    (h : c.readyState socket = some state) :
    ∃ n k, socket = some n ∧ c.sockets[n]? = some k ∧ k.readyState = state := by
  obtain ⟨n, rfl, hn⟩ := Option.bind_eq_some_iff.mp h
  obtain ⟨k, hk, rfl⟩ := Option.map_eq_some_iff.mp hn
  exact ⟨n, k, rfl, hk, rfl⟩

/-! ### Sockets that open and close -/

/-- A change of the ready state that neither closes a socket nor brings one back. -/
structure Moves (k k' : Socket) : Prop where
  rest : k' = { k with readyState := k'.readyState }
  closed : k'.readyState = .closed ↔ k.readyState = .closed
  connecting : k'.readyState = .connecting → k.readyState = .connecting

theorem close_moves (k : Socket) : Moves k k.close := by
  unfold Socket.close
  split
  · exact ⟨rfl, Iff.rfl, id⟩
  · next hstate => exact ⟨rfl, by simp_all, fun he => by cases he⟩

theorem Moves.changes {k k' : Socket} (h : Moves k k') (timers : Timers Callback) (n : Nat) :
    Changes timers n k k' := by
  refine ⟨h.closed.mpr, h.connecting, Or.inl ?_, Or.inl ?_⟩ <;> rw [h.rest]

theorem core_stopConnectTimeout {c : Connection} (h : Core c.sockets c.timers c.reconnectTimer)
    (n : Nat) :
    Core (c.stopConnectTimeout n).sockets (c.stopConnectTimeout n).timers c.reconnectTimer := by
  have hclear : Core c.sockets (c.timers.clear (c.sockets[n]?.bind Socket.connectTimeoutId))
      c.reconnectTimer := by
    refine h.clear fun t ht hid => ?_
    obtain ⟨k, hk, hid⟩ := Option.bind_eq_some_iff.mp hid
    rw [(h.connectTimeoutId hk hid).2 t ht rfl]
    rfl
  exact hclear.modify fun k _ => ⟨id, id, Or.inl rfl, Or.inr rfl⟩

theorem core_stopHeartbeat {c : Connection} (h : Core c.sockets c.timers c.reconnectTimer)
    (n : Nat) :
    Core (c.stopHeartbeat n).sockets (c.stopHeartbeat n).timers c.reconnectTimer := by
  have hclear : Core c.sockets (c.timers.clear (c.sockets[n]?.bind Socket.heartbeatId))
      c.reconnectTimer := by
    refine h.clear fun t ht hid => ?_
    obtain ⟨k, hk, hid⟩ := Option.bind_eq_some_iff.mp hid
    rw [(h.heartbeatId hk hid).2 t ht rfl]
    rfl
  refine hclear.modify fun k hk => ⟨id, id, Or.inr ⟨rfl, fun t ht hcall => ?_⟩, Or.inl rfl⟩
  obtain ⟨ht, hne⟩ := Timers.mem_clear.mp ht
  obtain ⟨l, hl, hid⟩ := h.beats ht hcall
  exact hne (by rw [hl, Option.bind_some, hid])

/-- A socket that changes and whose timers are stopped: one change of it, and one of the timers. -/
theorem retire_eq (c : Connection) (n : Nat) (f : Socket → Socket) :
    ((c.modifySocket n f).stopConnectTimeout n).stopHeartbeat n =
      { c.modifySocket n fun k => { f k with connectTimeoutId := none, heartbeatId := none } with
        timers := (((c.modifySocket n f).stopConnectTimeout n).stopHeartbeat n).timers } := by
  simp only [Connection.stopHeartbeat, Connection.stopConnectTimeout, Connection.modifySocket]
  rw [List.modify_modify_eq, List.modify_modify_eq]
  rfl

theorem retire_sockets {c : Connection} {n : Nat} {f : Socket → Socket} :
    (((c.modifySocket n f).stopConnectTimeout n).stopHeartbeat n).sockets =
      c.sockets.modify n
        fun k => { f k with connectTimeoutId := none, heartbeatId := none } := by
  rw [retire_eq]
  rfl

theorem core_retire {c : Connection} {n : Nat} {f : Socket → Socket}
    (h : Core c.sockets c.timers c.reconnectTimer)
    (hf : ∀ k, c.sockets[n]? = some k → Changes c.timers n k (f k)) :
    Core (((c.modifySocket n f).stopConnectTimeout n).stopHeartbeat n).sockets
      (((c.modifySocket n f).stopConnectTimeout n).stopHeartbeat n).timers c.reconnectTimer :=
  core_stopHeartbeat (c := (c.modifySocket n f).stopConnectTimeout n)
    (core_stopConnectTimeout (c := c.modifySocket n f) (h.modify hf) n) n

namespace Live

variable {c : Connection} {n : Nat} {f : Socket → Socket}

/-- The socket `n` and the timers change; the timers are kept as `Core` asks. -/
theorem modify (h : Live c) {timers : Timers Callback} {reconnectTimer : Option Nat}
    (hcore : Core (c.sockets.modify n f) timers reconnectTimer)
    (hf : ∀ k, c.sockets[n]? = some k → k.listening = true →
      (f k).listening = true ∧ ((f k).readyState = .closed → (f k).heartbeatId = none)) :
    Live { c.modifySocket n f with timers := timers, reconnectTimer := reconnectTimer } where
  core := hcore
  closedByApp := h.closedByApp
  cleanupLifecycle := h.cleanupLifecycle
  socket := by
    intro m
    show c.socket = some m ↔ m + 1 = (c.sockets.modify n f).length
    rw [List.length_modify, h.socket]
  cleanupSocket := h.cleanupSocket
  announced := h.announced
  listening := forall_modify h.listening fun k hk hlisten => (hf k hk hlisten).1
  stopped := forall_modify h.stopped fun k hk _ => (hf k hk (h.listening n k hk)).2

theorem move (h : Live c) (hf : ∀ k, c.sockets[n]? = some k → Moves k (f k)) :
    Live (c.modifySocket n f) := by
  refine h.modify (h.core.modify fun k hk => (hf k hk).changes _ _) fun k hk hlisten => ?_
  rw [(hf k hk).rest]
  exact ⟨hlisten, fun hstate => h.stopped n k hk ((hf k hk).closed.mp hstate)⟩

theorem stopConnectTimeout (h : Live c) (n : Nat) : Live (c.stopConnectTimeout n) :=
  h.modify (core_stopConnectTimeout h.core n) fun k hk hlisten => ⟨hlisten, h.stopped n k hk⟩

theorem sendGetGames (h : Live c) (socket : Option Nat) (throws : Bool) :
    Live (c.sendGetGames socket throws) := by
  unfold Connection.sendGetGames
  split
  · exact h
  · split
    · cases socket with
      | none => exact h
      | some n => exact h.move fun k _ => close_moves k
    · exact h

/-- The socket the connection holds decides whether all are closed. -/
theorem allClosed (h : Live c)
    (hcur : ∀ state, c.readyState c.socket = some state → state = .closed) :
    AllClosed c.sockets := by
  intro n k hk
  by_contra hstate
  have hsocket : c.socket = some n := (h.socket n).mpr (h.core.newest hk hstate)
  exact hstate (hcur k.readyState (by rw [hsocket, readyState_eq hk]))

theorem reconnect (h : Live c) (hnone : c.reconnectTimer = none) (hall : AllClosed c.sockets)
    (attempt : Nat) : Live (c.reconnect attempt) where
  core := by
    show Core _ _ c.reconnectTimer
    rw [hnone]
    exact (hnone ▸ h.core : Core c.sockets c.timers none).connect hall
  closedByApp := h.closedByApp
  cleanupLifecycle := h.cleanupLifecycle
  socket := by
    intro m
    simp [Connection.reconnect, Connection.connect]
    exact eq_comm
  cleanupSocket := rfl
  announced := rfl
  listening := by
    intro m k hk
    rcases getElem?_concat_cases hk with hk | ⟨rfl, rfl⟩
    · exact h.listening m k hk
    · rfl
  stopped := by
    intro m k hk hstate
    rcases getElem?_concat_cases hk with hk | ⟨rfl, rfl⟩
    · exact h.stopped m k hk hstate
    · cases hstate

end Live

theorem reconnect_attended (c : Connection) (attempt : Nat) : Attended (c.reconnect attempt) := by
  intro _ _ _ hall
  cases hall c.sockets.length _ List.getElem?_concat_length

/-- While the page is hidden or offline there is nothing to attend to. -/
theorem attended_of_not {c : Connection} (hopen : c.closedByApp = false)
    (hnot : ¬ c.canAttemptConnection = true) : Attended c := by
  intro hvisible honline _ _
  exact absurd (by simp [Connection.canAttemptConnection, hopen, hvisible, honline]) hnot

theorem Attended.move {c : Connection} {n : Nat} {f : Socket → Socket} (h : Attended c)
    (hf : ∀ k, c.sockets[n]? = some k → Moves k (f k)) : Attended (c.modifySocket n f) := by
  intro hvisible honline hnone hall
  refine h hvisible honline hnone fun m k hk => ?_
  have hmod := hall m
  have hget : (c.modifySocket n f).sockets[m]? = _ := List.getElem?_modify f n c.sockets m
  rw [hget, hk] at hmod
  by_cases hmn : n = m
  · subst hmn
    exact (hf k hk).closed.mp (hmod (f k) (by simp))
  · exact hmod k (by simp [hmn])

theorem Attended.sendGetGames {c : Connection} (h : Attended c) (socket : Option Nat)
    (throws : Bool) : Attended (c.sendGetGames socket throws) := by
  unfold Connection.sendGetGames
  split
  · exact h
  · split
    · cases socket with
      | none => exact h
      | some n => exact h.move fun k _ => close_moves k
    · exact h

theorem modifySocket_socket {c : Connection} {n : Nat} {f : Socket → Socket} {k : Socket}
    (hk : c.sockets[n]? = some k) : (c.modifySocket n f).sockets[n]? = some (f k) := by
  simp [Connection.modifySocket, hk]

theorem stopConnectTimeout_socket {c : Connection} {n : Nat} {k : Socket}
    (hk : c.sockets[n]? = some k) :
    (c.stopConnectTimeout n).sockets[n]? = some { k with connectTimeoutId := none } :=
  modifySocket_socket hk

theorem sendGetGames_socket {c : Connection} {n : Nat} {k : Socket} (socket : Option Nat)
    (throws : Bool) (hk : c.sockets[n]? = some k) :
    ∃ k', (c.sendGetGames socket throws).sockets[n]? = some k' ∧ Moves k k' := by
  have hsame : Moves k k := ⟨rfl, Iff.rfl, id⟩
  unfold Connection.sendGetGames
  split
  · exact ⟨k, hk, hsame⟩
  split
  · cases socket with
    | none => exact ⟨k, hk, hsame⟩
    | some m =>
      by_cases hmn : m = n
      · subst hmn
        exact ⟨k.close, modifySocket_socket hk, close_moves k⟩
      · refine ⟨k, ?_, hsame⟩
        simp [Connection.closeSocket, Connection.modifySocket, hmn, hk]
  · exact ⟨k, hk, hsame⟩

/-! ### Events before `close` -/

theorem Attended.connectTimeout {c : Connection} (h : Attended c) (n : Nat) :
    Attended (c.handleConnectTimeout n) := by
  unfold Connection.handleConnectTimeout
  split
  · exact h
  split
  · exact h.move fun k _ => close_moves k
  · exact h

namespace Live

variable {c : Connection}

theorem opened (h : Live c) {n : Nat} {k : Socket} (hk : c.sockets[n]? = some k)
    (hstate : k.readyState = .connecting) (throws : Bool) :
    Live ((c.modifySocket n fun k => { k with readyState := .opened }).handleOpen n throws) ∧
      Attended
        ((c.modifySocket n fun k => { k with readyState := .opened }).handleOpen n throws) := by
  have hmoves : ∀ l, c.sockets[n]? = some l → Moves l { l with readyState := .opened } := by
    intro l hl
    obtain rfl : k = l := Option.some.inj (hk.symm.trans hl)
    exact ⟨rfl, by simp [hstate], fun he => by cases he⟩
  have hlive := ((h.move hmoves).stopConnectTimeout n).sendGetGames (some n) throws
  obtain ⟨k', hk', hmove⟩ := sendGetGames_socket (some n) throws
    (stopConnectTimeout_socket (c := c.modifySocket n fun k => { k with readyState := .opened })
      (modifySocket_socket hk))
  have hconn : k'.readyState ≠ .connecting := fun he => by cases hmove.connecting he
  have hopen : k'.readyState ≠ .closed := fun he => by cases hmove.closed.mp he
  have hidle := h.core.unopened hk hstate
  have hnone : k'.heartbeatId = none := by
    rw [hmove.rest]
    exact hidle
  refine ⟨hlive.modify (hlive.core.startHeartbeat hk' hconn hnone) fun l hl hlisten => ?_, ?_⟩
  · obtain rfl : k' = l := Option.some.inj (hk'.symm.trans hl)
    exact ⟨hlisten, fun he => absurd he hopen⟩
  · exact fun _ _ _ hall => absurd hall (not_allClosed (modifySocket_socket hk') hopen)

/-- The first two lines of `handleClose`. -/
theorem retire (h : Live c) (n : Nat) :
    Live (((c.modifySocket n fun k => { k with readyState := .closed }).stopConnectTimeout
      n).stopHeartbeat n) := by
  have hchanges : ∀ k, c.sockets[n]? = some k →
      Changes c.timers n k { k with readyState := .closed } :=
    fun k _ => ⟨fun _ => rfl, by simp, Or.inl rfl, Or.inl rfl⟩
  have hcore := core_retire h.core hchanges
  rw [retire_sockets] at hcore
  rw [retire_eq]
  exact h.modify hcore fun k _ hlisten => ⟨hlisten, fun _ => rfl⟩

theorem closed (h : Live c) {n : Nat} {k : Socket} (hk : c.sockets[n]? = some k)
    (hstate : k.readyState ≠ .closed) (attempt : Nat) :
    Live ((c.modifySocket n fun k => { k with readyState := .closed }).handleClose n attempt) ∧
      Attended
        ((c.modifySocket n fun k => { k with readyState := .closed }).handleClose n attempt) := by
  have hretire := h.retire n
  have hlen := h.core.newest hk hstate
  have hall : AllClosed (((c.modifySocket n fun k =>
      { k with readyState := .closed }).stopConnectTimeout n).stopHeartbeat n).sockets := by
    rw [retire_sockets]
    intro m l hl
    rcases getElem?_modify_cases hl with ⟨rfl, l', hl', rfl⟩ | ⟨hne, hl⟩
    · rfl
    · by_contra hopen
      have hlen' := h.core.newest hl hopen
      exact hne (by omega)
  have hsocket : (((c.modifySocket n fun k =>
      { k with readyState := .closed }).stopConnectTimeout n).stopHeartbeat n).socket = some n := by
    refine (hretire.socket n).mpr ?_
    rw [retire_sockets, List.length_modify]
    exact hlen
  unfold Connection.handleClose
  rw [if_neg (by rw [hretire.closedByApp]; decide), if_neg (not_not_intro hsocket)]
  split
  · next hnot => exact ⟨hretire, attended_of_not hretire.closedByApp hnot⟩
  · exact ⟨{ hretire with
        core := hretire.core.stopReconnect.schedule hall (Nat.min_le_right _ _) },
      fun _ _ _ _ hnone => by cases hnone⟩

theorem recoverOnForeground (h : Live c) (throws : Bool) :
    Live (c.recoverOnForeground throws) ∧ Attended (c.recoverOnForeground throws) := by
  unfold Connection.recoverOnForeground
  rw [if_neg (by rw [h.closedByApp]; decide)]
  split
  · next hnot => exact ⟨h, attended_of_not h.closedByApp hnot⟩
  split
  · next hopened =>
    obtain ⟨n, k, _, hk, hstate⟩ := readyState_some hopened
    have hatt : Attended c := fun _ _ _ hall =>
      absurd hall (not_allClosed hk (by rw [hstate]; decide))
    exact ⟨h.sendGetGames _ _, hatt.sendGetGames _ _⟩
  split
  · next hconnecting =>
    obtain ⟨n, k, _, hk, hstate⟩ := readyState_some hconnecting
    exact ⟨h, fun _ _ _ hall => absurd hall (not_allClosed hk (by rw [hstate]; decide))⟩
  split
  · next hclosing =>
    obtain ⟨n, k, _, hk, hstate⟩ := readyState_some hclosing
    exact ⟨h, fun _ _ _ hall => absurd hall (not_allClosed hk (by rw [hstate]; decide))⟩
  split
  · next htimer => exact ⟨h, fun _ _ _ _ hnone => by rw [hnone] at htimer; cases htimer⟩
  · next hopened hconnecting hclosing htimer =>
    have hall : AllClosed c.sockets := by
      refine h.allClosed fun state hcur => ?_
      cases state with
      | connecting => exact absurd hcur hconnecting
      | opened => exact absurd hcur hopened
      | closing => exact absurd hcur hclosing
      | closed => rfl
    exact ⟨h.reconnect (by simpa using htimer) hall 0, reconnect_attended c 0⟩

theorem page (h : Live c) (throws : Bool) (event : PageEvent) :
    Live (c.handlePageEvent throws event) ∧ Attended (c.handlePageEvent throws event) := by
  cases event with
  | visibilitychange =>
    show Live (if c.visible then _ else c) ∧ Attended (if c.visible then _ else c)
    split
    · exact h.recoverOnForeground throws
    · next hhidden => exact ⟨h, fun hvisible => absurd hvisible hhidden⟩
  | pageshow => exact h.recoverOnForeground throws
  | focus => exact h.recoverOnForeground throws
  | online => exact h.recoverOnForeground throws

theorem connectTimeout (h : Live c) (n : Nat) : Live (c.handleConnectTimeout n) := by
  unfold Connection.handleConnectTimeout
  split
  · exact h
  split
  · exact h.move fun k _ => close_moves k
  · exact h

theorem timer (h : Live c) (hatt : Attended c) {t : Timer Callback} (ht : t ∈ c.timers.pending)
    (throws : Bool) :
    Live (c.runTimer t.id throws t.callback) ∧ Attended (c.runTimer t.id throws t.callback) := by
  cases hcall : t.callback with
  | reconnect attempt =>
    obtain ⟨hid, _, hall⟩ := h.core.reconnects ht (by rw [hcall]; rfl)
    have hfree : Live { c with timers := c.timers.clear (some t.id), reconnectTimer := none } :=
      { h with core := hid ▸ h.core.stopReconnect }
    show Live (if _ then _ else _) ∧ Attended (if _ then _ else _)
    split
    · next hnot => exact ⟨hfree, attended_of_not h.closedByApp hnot⟩
    · exact ⟨hfree.reconnect rfl hall _, reconnect_attended _ _⟩
  | heartbeat n => exact ⟨h.sendGetGames _ _, hatt.sendGetGames _ _⟩
  | connectTimeout n =>
    have hfree : Live { c with timers := c.timers.clear (some t.id) } :=
      { h with
        core := h.core.clear fun u hu hid => by
          rw [Timers.eq_of_id hu ht (Option.some.inj hid).symm, hcall]
          rfl }
    have hatt' : Attended { c with timers := c.timers.clear (some t.id) } := hatt
    exact ⟨hfree.connectTimeout n, hatt'.connectTimeout n⟩

end Live

/-! ### The app closes the connection -/

theorem Live.close {c : Connection} (h : Live c) : Dead c.close := by
  have hcore := h.core.stopReconnect
  cases hsocket : c.socket with
  | none =>
    have hclean : c.cleanupSocket = none := h.cleanupSocket.trans hsocket
    have hempty : c.sockets = [] := by
      refine List.eq_nil_of_length_eq_zero (Nat.eq_zero_of_not_pos fun hpos => ?_)
      have hlast := (h.socket (c.sockets.length - 1)).mpr (Nat.sub_add_cancel hpos)
      rw [hsocket] at hlast
      cases hlast
    have hclose : c.close = { c with
        closedByApp := true, reconnectTimer := none, cleanupLifecycle := false, socket := none,
        announced := none, timers := c.timers.clear c.reconnectTimer } := by
      simp [Connection.close, Connection.stopReconnect, Connection.closeSocket, hclean, hsocket]
    rw [hclose]
    exact ⟨hcore, rfl, rfl, rfl, hclean, rfl, rfl, by simp [hempty], by simp [hempty]⟩
  | some n =>
    have hclean : c.cleanupSocket = some n := h.cleanupSocket.trans hsocket
    let c1 : Connection := { c with
      closedByApp := true, reconnectTimer := none, cleanupLifecycle := false,
      timers := c.timers.clear c.reconnectTimer }
    have hclose : c.close = { (c1.removeListeners n).modifySocket n Socket.close with
        socket := none, cleanupSocket := none, announced := none } := by
      simp [c1, Connection.close, Connection.stopReconnect, Connection.removeListeners,
        Connection.stopHeartbeat, Connection.stopConnectTimeout, Connection.modifySocket,
        Connection.closeSocket, hclean, hsocket]
    have hsockets : (c1.removeListeners n).sockets = c.sockets.modify n fun k =>
        { k with listening := false, connectTimeoutId := none, heartbeatId := none } :=
      retire_sockets
    have hretire : Core (c1.removeListeners n).sockets (c1.removeListeners n).timers none :=
      core_retire (c := c1) hcore fun k _ => ⟨id, id, Or.inl rfl, Or.inl rfl⟩
    -- the others are closed already, since the newest is `n`
    have hothers : ∀ m k, c.sockets[m]? = some k → m ≠ n → k.readyState = .closed := by
      intro m k hk hne
      by_contra hopen
      have hlen := (h.socket n).mp hsocket
      have hlen' := h.core.newest hk hopen
      exact hne (by omega)
    rw [hclose]
    refine ⟨hretire.modify fun k _ => (close_moves k).changes _ _, rfl, rfl, rfl, rfl, rfl, rfl, ?_,
      ?_⟩
    · show ∀ m k, ((c1.removeListeners n).sockets.modify n Socket.close)[m]? = some k → _
      rw [hsockets, List.modify_modify_eq]
      intro m k hk hopen
      rcases getElem?_modify_cases hk with ⟨rfl, l, hl, rfl⟩ | ⟨hne, hk⟩
      · rw [Function.comp_apply, (close_moves _).rest]
      · exact absurd (hothers m k hk hne) hopen
    · show ∀ m k, ((c1.removeListeners n).sockets.modify n Socket.close)[m]? = some k → _
      rw [hsockets, List.modify_modify_eq]
      intro m k hk
      rcases getElem?_modify_cases hk with ⟨rfl, l, hl, rfl⟩ | ⟨hne, hk⟩
      · rw [Function.comp_apply, (close_moves _).rest]
      · exact h.stopped m k hk (hothers m k hk hne)

/-! ### Events after `close` -/

namespace Dead

variable {c : Connection}

theorem modify (h : Dead c) {n : Nat} {f : Socket → Socket}
    (hf : ∀ k, c.sockets[n]? = some k → Changes c.timers n k (f k) ∧
      ((f k).readyState ≠ .closed → k.readyState ≠ .closed ∧ (f k).listening = k.listening) ∧
      (f k).heartbeatId = k.heartbeatId) : Dead (c.modifySocket n f) where
  core := h.core.modify fun k hk => (hf k hk).1
  closedByApp := h.closedByApp
  cleanupLifecycle := h.cleanupLifecycle
  socket := h.socket
  cleanupSocket := h.cleanupSocket
  announced := h.announced
  reconnectTimer := h.reconnectTimer
  deaf := forall_modify h.deaf fun k hk hdeaf hstate => by
    rw [((hf k hk).2.1 hstate).2]
    exact hdeaf ((hf k hk).2.1 hstate).1
  silent := forall_modify h.silent fun k hk hsilent => by rw [(hf k hk).2.2, hsilent]

/-- After `close` nothing that could make or use a socket is pending. -/
theorem pending (h : Dead c) {t : Timer Callback}
    (ht : t ∈ c.timers.pending) :
    t.callback.isReconnect = false ∧ t.callback.isHeartbeat = false := by
  cases hcall : t.callback with
  | reconnect attempt =>
    have hid := (h.core.reconnects ht (by rw [hcall]; rfl)).1
    rw [h.reconnectTimer] at hid
    cases hid
  | heartbeat n =>
    obtain ⟨k, hk, hid⟩ := h.core.beats ht hcall
    rw [h.silent n k hk] at hid
    cases hid
  | connectTimeout n => exact ⟨rfl, rfl⟩

/-- Only a connect timeout may still be pending, and it does nothing. -/
theorem timer (h : Dead c) {t : Timer Callback} (ht : t ∈ c.timers.pending) (throws : Bool) :
    Dead (c.runTimer t.id throws t.callback) ∧
      (c.runTimer t.id throws t.callback).sockets = c.sockets := by
  cases hcall : t.callback with
  | reconnect attempt =>
    have hnot := (h.pending ht).1
    rw [hcall] at hnot
    cases hnot
  | heartbeat n =>
    have hnot := (h.pending ht).2
    rw [hcall] at hnot
    cases hnot
  | connectTimeout n =>
    have hcore : Core c.sockets (c.timers.clear (some t.id)) c.reconnectTimer := by
      refine h.core.clear fun u hu hid => ?_
      rw [Timers.eq_of_id hu ht (Option.some.inj hid).symm, hcall]
      rfl
    have hrun : c.runTimer t.id throws (.connectTimeout n) =
        { c with timers := c.timers.clear (some t.id) } := by
      simp [Connection.runTimer, Connection.handleConnectTimeout, h.socket]
    rw [hrun]
    exact ⟨{ h with core := hcore }, rfl⟩

theorem close (h : Dead c) : Dead c.close ∧ c.close.sockets = c.sockets := by
  have hclose : c.close = { c with timers := c.timers.clear c.reconnectTimer } := by
    simp [Connection.close, Connection.stopReconnect, Connection.closeSocket, h.closedByApp,
      h.cleanupLifecycle, h.socket, h.cleanupSocket, h.announced, h.reconnectTimer]
  rw [hclose]
  refine ⟨{ h with core := ?_ }, rfl⟩
  show Core c.sockets (c.timers.clear c.reconnectTimer) c.reconnectTimer
  rw [h.reconnectTimer]
  exact h.reconnectTimer ▸ h.core.stopReconnect

end Dead

/-! ## Runs -/

/-- What a step can do. -/
inductive ConnectionStep (c : Connection) : ConnectionAction → Connection → Prop
  | opened {n : Nat} {k : Socket} (throws : Bool) (hk : c.sockets[n]? = some k)
      (hstate : k.readyState = .connecting) :
      ConnectionStep c (.opened n throws)
        (if k.listening then
          (c.modifySocket n fun k => { k with readyState := .opened }).handleOpen n throws
        else c.modifySocket n fun k => { k with readyState := .opened })
  | closing {n : Nat} {k : Socket} (hk : c.sockets[n]? = some k)
      (hstate : k.readyState = .connecting ∨ k.readyState = .opened) :
      ConnectionStep c (.closing n) (c.modifySocket n fun k => { k with readyState := .closing })
  | closed {n : Nat} {k : Socket} (hk : c.sockets[n]? = some k) (hstate : k.readyState ≠ .closed) :
      ConnectionStep c (.closed n)
        (if k.listening then
          (c.modifySocket n fun k => { k with readyState := .closed }).handleClose n k.attempt
        else c.modifySocket n fun k => { k with readyState := .closed })
  | same {a : ConnectionAction} (hne : a ≠ .close) : ConnectionStep c a c
  | timer {t : Timer Callback} (throws : Bool) (ht : t ∈ c.timers.pending) :
      ConnectionStep c (.timer t.id throws) (c.runTimer t.id throws t.callback)
  | setVisible (visible : Bool) :
      ConnectionStep c (.setVisible visible)
        { c with visible := visible, undelivered := .visibilitychange :: c.undelivered }
  | setOnline : ConnectionStep c (.setOnline true)
      { c with online := true, undelivered := .online :: c.undelivered }
  | setOffline : ConnectionStep c (.setOnline false) { c with online := false }
  | page (event : PageEvent) (throws : Bool) :
      ConnectionStep c (.page event throws)
        (if c.cleanupLifecycle then
          { c with undelivered := c.undelivered.erase event }.handlePageEvent throws event
        else { c with undelivered := c.undelivered.erase event })
  | close : ConnectionStep c .close c.close

theorem connectionStep {c c' : Connection} {a : ConnectionAction} (hs : c.step a = some c') :
    ConnectionStep c a c' := by
  cases a with
  | opened n throws =>
    obtain ⟨k, hk, hs⟩ := Option.bind_eq_some_iff.mp hs
    obtain ⟨hstate, hs⟩ := Option.ite_none_right_eq_some.mp hs
    exact Option.some.inj hs ▸ .opened throws hk hstate
  | closing n =>
    obtain ⟨k, hk, hs⟩ := Option.bind_eq_some_iff.mp hs
    obtain ⟨hstate, hs⟩ := Option.ite_none_right_eq_some.mp hs
    exact Option.some.inj hs ▸ .closing hk hstate
  | closed n =>
    obtain ⟨k, hk, hs⟩ := Option.bind_eq_some_iff.mp hs
    obtain ⟨hstate, hs⟩ := Option.ite_none_right_eq_some.mp hs
    exact Option.some.inj hs ▸ .closed hk hstate
  | error n =>
    obtain ⟨_, hs⟩ := Option.ite_none_right_eq_some.mp hs
    exact Option.some.inj hs ▸ .same (by simp)
  | message n =>
    obtain ⟨_, hs⟩ := Option.ite_none_right_eq_some.mp hs
    exact Option.some.inj hs ▸ .same (by simp)
  | timer id throws =>
    obtain ⟨t, ht, rfl⟩ := Option.map_eq_some_iff.mp hs
    obtain ⟨hmem, rfl⟩ := Timers.find_some ht
    exact .timer throws hmem
  | setVisible visible =>
    simp only [Connection.step] at hs
    split at hs
    · exact Option.some.inj hs ▸ .same (by simp)
    · exact Option.some.inj hs ▸ .setVisible visible
  | setOnline online =>
    simp only [Connection.step] at hs
    split at hs
    · exact Option.some.inj hs ▸ .same (by simp)
    · cases online with
      | true => exact Option.some.inj hs ▸ .setOnline
      | false => exact Option.some.inj hs ▸ .setOffline
  | page event throws => exact Option.some.inj hs ▸ .page event throws
  | close => exact Option.some.inj hs ▸ .close

theorem live_step {c c' : Connection} {a : ConnectionAction} (h : Live c) (hatt : Attended c)
    (hs : ConnectionStep c a c') : a ≠ .close ∧ Live c' ∧ Attended c' ∨ a = .close ∧ Dead c' := by
  cases hs with
  | opened throws hk hstate =>
    rw [if_pos (h.listening _ _ hk)]
    exact Or.inl ⟨by simp, h.opened hk hstate throws⟩
  | @closing n k hk hstate =>
    have hmoves : ∀ l, c.sockets[n]? = some l → Moves l { l with readyState := .closing } := by
      intro l hl
      obtain rfl : k = l := Option.some.inj (hk.symm.trans hl)
      exact ⟨rfl, by rcases hstate with he | he <;> simp [he], fun he => by cases he⟩
    exact Or.inl ⟨by simp, h.move hmoves, hatt.move hmoves⟩
  | closed hk hstate =>
    rw [if_pos (h.listening _ _ hk)]
    exact Or.inl ⟨by simp, h.closed hk hstate _⟩
  | same hne => exact Or.inl ⟨hne, h, hatt⟩
  | timer throws ht => exact Or.inl ⟨by simp, h.timer hatt ht throws⟩
  | setVisible visible => exact Or.inl ⟨by simp, { h with }, fun _ _ he => by cases he⟩
  | setOnline => exact Or.inl ⟨by simp, { h with }, fun _ _ he => by cases he⟩
  | setOffline => exact Or.inl ⟨by simp, { h with }, fun _ he => by cases he⟩
  | page event throws =>
    have hpage : Live { c with undelivered := c.undelivered.erase event } := { h with }
    rw [if_pos h.cleanupLifecycle]
    exact Or.inl ⟨by simp, hpage.page throws event⟩
  | close => exact Or.inr ⟨rfl, h.close⟩

theorem dead_step {c c' : Connection} {a : ConnectionAction} (h : Dead c)
    (hs : ConnectionStep c a c') : Dead c' ∧ c'.sockets.length = c.sockets.length := by
  cases hs with
  | @opened n k throws hk hstate =>
    rw [if_neg (by rw [h.deaf n k hk (by rw [hstate]; decide)]; decide)]
    refine ⟨h.modify fun l hl => ?_, List.length_modify _ _ _⟩
    obtain rfl : k = l := Option.some.inj (hk.symm.trans hl)
    exact ⟨⟨by simp [hstate], by simp, Or.inl rfl, Or.inl rfl⟩, fun _ => ⟨by simp [hstate], rfl⟩,
      rfl⟩
  | @closing n k hk hstate =>
    refine ⟨h.modify fun l hl => ?_, List.length_modify _ _ _⟩
    obtain rfl : k = l := Option.some.inj (hk.symm.trans hl)
    have hopen : k.readyState ≠ .closed := by rcases hstate with he | he <;> simp [he]
    exact ⟨⟨fun he => absurd he hopen, by simp, Or.inl rfl, Or.inl rfl⟩, fun _ => ⟨hopen, rfl⟩, rfl⟩
  | @closed n k hk hstate =>
    rw [if_neg (by rw [h.deaf n k hk hstate]; decide)]
    refine ⟨h.modify fun l _ => ?_, List.length_modify _ _ _⟩
    exact ⟨⟨fun _ => rfl, by simp, Or.inl rfl, Or.inl rfl⟩, fun he => absurd rfl he, rfl⟩
  | same _ => exact ⟨h, rfl⟩
  | timer throws ht =>
    obtain ⟨hdead, hsockets⟩ := h.timer ht throws
    exact ⟨hdead, by rw [hsockets]⟩
  | setVisible visible => exact ⟨{ h with }, rfl⟩
  | setOnline => exact ⟨{ h with }, rfl⟩
  | setOffline => exact ⟨{ h with }, rfl⟩
  | page event throws =>
    rw [if_neg (by rw [h.cleanupLifecycle]; decide)]
    exact ⟨{ h with }, rfl⟩
  | close =>
    obtain ⟨hdead, hsockets⟩ := h.close
    exact ⟨hdead, by rw [hsockets]⟩

theorem live_start (heartbeatMs : Nat) (visible online : Bool) :
    Live (createSignalConnection heartbeatMs visible online) ∧
      Attended (createSignalConnection heartbeatMs visible online) := by
  have hcore : Core [] Timers.empty none :=
    ⟨by simp, by simp, by simp, by simp, by simp, by simp, by simp⟩
  have hlive : Live
      { heartbeatMs := heartbeatMs, closedByApp := false, reconnectTimer := none, socket := none,
        cleanupSocket := none, cleanupLifecycle := true, announced := none, sockets := [],
        timers := Timers.empty, visible := visible, online := online, undelivered := [] } :=
    ⟨hcore, rfl, rfl, by simp, rfl, rfl, by simp, by simp⟩
  simp only [createSignalConnection]
  split
  · exact ⟨hlive.reconnect rfl (by simp [AllClosed]) 0, reconnect_attended _ 0⟩
  · next hnot => exact ⟨hlive, attended_of_not rfl hnot⟩

/-- The connection is live until the app closes it, and dead from then on. -/
theorem inv_run {heartbeatMs : Nat} {visible online : Bool} {as : List ConnectionAction}
    {c : Connection}
    (h : Run Connection.step (createSignalConnection heartbeatMs visible online) as c) :
    (ConnectionAction.close ∉ as ∧ Live c ∧ Attended c) ∨
      (ConnectionAction.close ∈ as ∧ Dead c) := by
  refine h.history
    (I := fun as c =>
      (ConnectionAction.close ∉ as ∧ Live c ∧ Attended c) ∨ (ConnectionAction.close ∈ as ∧ Dead c))
    (Or.inl ⟨List.not_mem_nil, live_start heartbeatMs visible online⟩) ?_
  rintro as c a c' (⟨hnot, hlive, hatt⟩ | ⟨hmem, hdead⟩) - hs
  · rcases live_step hlive hatt (connectionStep hs) with ⟨hne, hinv⟩ | ⟨rfl, hdead⟩
    · exact Or.inl ⟨by simp [hnot, hne.symm], hinv⟩
    · exact Or.inr ⟨by simp, hdead⟩
  · exact Or.inr ⟨by simp [hmem], (dead_step hdead (connectionStep hs)).1⟩

theorem Core.open_unique {sockets : List Socket} {timers : Timers Callback}
    {reconnectTimer : Option Nat} (h : Core sockets timers reconnectTimer) {m n : Nat}
    {k l : Socket} (hk : sockets[m]? = some k) (hl : sockets[n]? = some l)
    (hkopen : k.readyState ≠ .closed) (hlopen : l.readyState ≠ .closed) : m = n := by
  have hm := h.newest hk hkopen
  have hn := h.newest hl hlopen
  omega

theorem Core.reconnect_unique {sockets : List Socket} {timers : Timers Callback}
    {reconnectTimer : Option Nat} (h : Core sockets timers reconnectTimer) {t u : Timer Callback}
    (ht : t ∈ timers.pending) (hu : u ∈ timers.pending) (hret : t.callback.isReconnect = true)
    (hreu : u.callback.isReconnect = true) : t = u := by
  have hid : some t.id = some u.id :=
    (h.reconnects ht hret).1.symm.trans (h.reconnects hu hreu).1
  exact Timers.eq_of_id ht hu (Option.some.inj hid)

/-- **The signaling connection.**  At most one socket is not `CLOSED` and at most one reconnect
timer is pending, with a delay of at most 5000 ms.  Until the app closes the connection, once the
events of every change to the page have been delivered, a page that is visible and online and whose
socket is absent or `CLOSED` has a reconnect timer.  After `close` no reconnect timer and no
heartbeat is pending, and no socket is made any more. -/
theorem connection_kept {heartbeatMs : Nat} {visible online : Bool} {as : List ConnectionAction}
    {c : Connection}
    (h : Run Connection.step (createSignalConnection heartbeatMs visible online) as c) :
    (∀ (m n : Nat) (k l : Socket), c.sockets[m]? = some k → c.sockets[n]? = some l →
      k.readyState ≠ .closed → l.readyState ≠ .closed → m = n) ∧
    (∀ t ∈ c.timers.pending, ∀ u ∈ c.timers.pending,
      t.callback.isReconnect = true → u.callback.isReconnect = true → t = u) ∧
    (∀ t ∈ c.timers.pending, t.callback.isReconnect = true → t.delay ≤ 5000) ∧
    (ConnectionAction.close ∉ as → c.undelivered = [] → c.visible = true → c.online = true →
      (c.readyState c.socket = none ∨ c.readyState c.socket = some .closed) →
      ∃ t ∈ c.timers.pending, t.callback.isReconnect = true) ∧
    (ConnectionAction.close ∈ as →
      (∀ t ∈ c.timers.pending,
        t.callback.isReconnect = false ∧ t.callback.isHeartbeat = false) ∧
      ∀ bs c', Run Connection.step c bs c' → c'.sockets.length = c.sockets.length) := by
  have hinv := inv_run h
  have hcore : Core c.sockets c.timers c.reconnectTimer := by
    rcases hinv with ⟨_, hlive, _⟩ | ⟨_, hdead⟩
    · exact hlive.core
    · exact hdead.core
  refine ⟨fun m n k l hk hl => hcore.open_unique hk hl,
    fun t ht u hu => hcore.reconnect_unique ht hu, fun t ht hre => (hcore.reconnects ht hre).2.1,
    fun hnot hnone hvisible honline hcur => ?_, fun hmem => ?_⟩
  · rcases hinv with ⟨_, hlive, hatt⟩ | ⟨hmem, _⟩
    · have hall : AllClosed c.sockets := by
        refine hlive.allClosed fun state hstate => ?_
        rcases hcur with he | he <;> rw [hstate] at he <;> cases he
        rfl
      obtain ⟨id, hid⟩ := Option.ne_none_iff_exists'.mp (hatt hvisible honline hnone hall)
      obtain ⟨t, ht, _, hre⟩ := hcore.waits hid
      exact ⟨t, ht, hre⟩
    · exact absurd hmem hnot
  · rcases hinv with ⟨hnot, _⟩ | ⟨_, hdead⟩
    · exact absurd hmem hnot
    · refine ⟨fun t ht => hdead.pending ht, fun bs c' hrun => ?_⟩
      have hrest : Dead c' ∧ c'.sockets.length = c.sockets.length := by
        refine hrun.invariant (I := fun s => Dead s ∧ s.sockets.length = c.sockets.length)
          ⟨hdead, rfl⟩ ?_
        rintro s a s' ⟨hs, hlen⟩ - hstep
        obtain ⟨hs', hlen'⟩ := dead_step hs (connectionStep hstep)
        exact ⟨hs', hlen'.trans hlen⟩
      exact hrest.2

/-- The run in which a socket closes, its replacement times out while the page is hidden, and the
page comes back. -/
theorem connection_kept_hidden : ∃ c,
    Run Connection.step (createSignalConnection 15000 true true)
      [.opened 0 false, .closed 0, .timer 3 false, .setVisible false, .page .visibilitychange false,
        .timer 4 false, .closed 1, .setVisible true, .page .visibilitychange false, .closed 2] c ∧
      ∃ t ∈ c.timers.pending, t.callback.isReconnect = true := by
  have hrun : ∃ c,
      Run Connection.step (createSignalConnection 15000 true true)
        [.opened 0 false, .closed 0, .timer 3 false, .setVisible false,
          .page .visibilitychange false, .timer 4 false, .closed 1, .setVisible true,
          .page .visibilitychange false, .closed 2] c ∧
        c.undelivered = [] ∧ c.visible = true ∧ c.online = true ∧
          c.readyState c.socket = some .closed :=
    execWhen_any (by decide +kernel)
  obtain ⟨c, hrun, hnone, hvisible, honline, hclosed⟩ := hrun
  exact ⟨c, hrun,
    (connection_kept hrun).2.2.2.1 (by decide) hnone hvisible honline (Or.inr hclosed)⟩

end CloudGame.Portal
