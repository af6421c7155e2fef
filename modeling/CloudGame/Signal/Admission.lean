import CloudGame.Lib.FreshNames
import CloudGame.Lib.Text
import CloudGame.Signal.Tasks

/-!
# Who is let in, and under which name (`arcade-signal/src/ws.rs`, `arcade-signal/src/config.rs`)

A request for a WebSocket is let in by `browser_ws` and `worker_ws` if its query can be read and its
token, and for a browser its `Origin`, is what the environment asks for.  Whether the request is one
for a WebSocket at all is decided before.  The task of the new socket then makes its id with
`next_session_id`: it takes a number from a shared counter, reads the clock, and writes both in
hexadecimal.  `Listener` is the server of `Signal.Server` with the sockets on their way to it; the
counter, the clock and the server's own steps interleave in any order, and the clock shows anything.

Main results: a request is let in exactly if it gives no token twice, has the one asked for and, for
a browser, an `Origin` that is one of the words of the environment's list (`respond_iff`); and in
every run of at most `2 ^ 64` connections each connection was let in, and its id is one that no
other has ever had (`peers_admitted`).
-/

namespace CloudGame.Signal

open CloudGame.Lib

/-! ## Configuration -/

/-- What separates the entries of `SIGNAL_ALLOWED_ORIGINS`. -/
def isOriginSeparator (c : Char) : Bool := c == ',' || isWhitespace c

/-- One round of the loop of `parse_allowed_origins`. -/
def insertOrigin (set : List String) (entry : List Char) : List String :=
  let trimmed := trim (String.ofList entry)
  if trimmed = "" then set else set.insert trimmed

def parseAllowedOrigins (raw : Option String) : Option (List String) :=
  match raw with
  | none => none
  | some raw =>
    let set := (raw.toList.splitOnP isOriginSeparator).foldl insertOrigin []
    if set = [] then none else some set

/-- The text of `SIGNAL_AUTH_TOKEN`, trimmed, if any is left. -/
def parseAuthToken (raw : Option String) : Option String :=
  match raw with
  | none => none
  | some value => if trim value = "" then none else some (trim value)

def eqIgnoreAsciiCase (a b : String) : Bool :=
  a.toList.map Char.toLower == b.toList.map Char.toLower

def parseEnvFlag (raw : Option String) : Bool :=
  ((raw.map trim).filter (· ≠ "")).any fun value =>
    value == "1" || eqIgnoreAsciiCase value "true" || eqIgnoreAsciiCase value "yes" ||
      eqIgnoreAsciiCase value "on"

/-- The fields of `AppState` that no request changes. -/
structure AppState where
  authToken : Option String
  allowedOrigins : Option (List String)
  dedupeRoomsByGame : Bool

/-- `AppConfig::from_env`, as `main` passes it to `AppState::new`. -/
def AppState.fromEnv (env : String → Option String) : AppState where
  authToken := parseAuthToken (env "SIGNAL_AUTH_TOKEN")
  allowedOrigins := parseAllowedOrigins (env "SIGNAL_ALLOWED_ORIGINS")
  dedupeRoomsByGame := parseEnvFlag (env "SIGNAL_DEDUP_ROOMS_BY_GAME")

/-! ## Requests -/

/-- `HeaderValue::to_str`: the text of a header of visible ASCII characters, spaces and tabs. -/
def headerText (value : List UInt8) : Option String :=
  if value.all (fun b => (32 ≤ b && b < 127) || b == 9) then
    some (String.ofList (value.map Char.ofUInt8))
  else none

def AppState.isTokenValid (state : AppState) (candidate : Option String) : Bool :=
  match state.authToken with
  | some expected => candidate == some expected
  | none => true

/-- `is_origin_allowed` on the first `Origin` header of the request. -/
def AppState.isOriginAllowed (state : AppState) (header : Option (List UInt8)) : Bool :=
  match state.allowedOrigins with
  | none => true
  | some allowed =>
    let origin := ((header.bind headerText).map trim).filter (· ≠ "")
    origin.any fun value => allowed.contains value

/-- `Query<WsAuthQuery>`: fields of other names are ignored, and a second `token` is an error. -/
def wsAuthQuery (pairs : List (String × String)) : Option (Option String) :=
  match pairs.filter fun pair => pair.1 = "token" with
  | [] => some none
  | [pair] => some (some pair.2)
  | _ :: _ :: _ => none

inductive Response where
  | badRequest
  | forbidden
  | unauthorized
  | upgrade (role : PeerRole)
deriving DecidableEq

/-- A request for a socket, with what is read of it: the `Origin` and the decoded query. -/
inductive Request where
  | browser (origin : Option (List UInt8)) (query : List (String × String))
  | worker (query : List (String × String))

/-- The query is read before the function is called. -/
def browserWs (state : AppState) (origin : Option (List UInt8)) (query : List (String × String)) :
    Response :=
  match wsAuthQuery query with
  | none => .badRequest
  | some token =>
    if !state.isOriginAllowed origin then .forbidden
    else if !state.isTokenValid token then .unauthorized
    else .upgrade .browser

def workerWs (state : AppState) (query : List (String × String)) : Response :=
  match wsAuthQuery query with
  | none => .badRequest
  | some token => if !state.isTokenValid token then .unauthorized else .upgrade .worker

def respond (state : AppState) : Request → Response
  | .browser origin query => browserWs state origin query
  | .worker query => workerWs state query

/-! ## Ids -/

/-- `next_session_id`: `seq` is what `fetch_add` returned, `nanos` what the clock shows, if it shows
a time after the epoch. -/
def nextSessionId (nanos : Option Nat) (seq : UInt64) : String :=
  String.ofList (Nat.toDigits 16 (nanos.getD 0) ++ '-' :: Nat.toDigits 16 seq.toNat)

/-! ## The listener -/

structure Listener where
  /-- `SESSION_ID_COUNTER`. -/
  counter : UInt64
  /-- The sockets that were let in and have no number yet. -/
  upgraded : List PeerRole
  /-- The sockets that have a number and have not read the clock. -/
  numbered : List (PeerRole × UInt64)
  server : Server

inductive ListenerAction where
  | request (r : Request)
  | fetchAdd (role : PeerRole)
  | connect (role : PeerRole) (seq : UInt64) (nanos : Option Nat)
  | serve (action : ServerAction)

def ServerAction.isConnect : ServerAction → Bool
  | .connect _ _ => true
  | _ => false

def ListenerAction.isFetchAdd : ListenerAction → Bool
  | .fetchAdd _ => true
  | _ => false

namespace Listener

def init : Listener := ⟨0, [], [], Server.init⟩

/-- The server's configuration is that of the environment. -/
def config (state : AppState) (caseMap : CaseMap) (json : SerdeJson) : Config :=
  ⟨state.dedupeRoomsByGame, caseMap, json⟩

def step (state : AppState) (caseMap : CaseMap) (json : SerdeJson) (s : Listener) :
    ListenerAction → Option Listener
  | .request r =>
    match respond state r with
    | .upgrade role => some { s with upgraded := role :: s.upgraded }
    | _ => some s
  | .fetchAdd role =>
    if role ∈ s.upgraded then
      some { s with
        counter := s.counter + 1
        upgraded := s.upgraded.erase role
        numbered := (role, s.counter) :: s.numbered }
    else none
  | .connect role seq nanos =>
    if (role, seq) ∈ s.numbered then
      (s.server.step (config state caseMap json) (.connect (nextSessionId nanos seq) role)).map
        fun server => { s with numbered := s.numbered.erase (role, seq), server := server }
    else none
  | .serve action =>
    if action.isConnect then none
    else (s.server.step (config state caseMap json) action).map fun server =>
      { s with server := server }

end Listener

/-! ## Who is let in -/

/-- `value` is an entry of the list: a word between commas and white space. -/
def IsOrigin (raw value : String) : Prop :=
  value ≠ "" ∧ IsWord isOriginSeparator raw.toList value.toList

theorem trim_of_isWord {raw word : List Char} (h : IsWord isOriginSeparator raw word) :
    trim (String.ofList word) = String.ofList word := by
  refine trim_eq_self fun c hc => ?_
  rw [String.toList_ofList] at hc
  have hsep := h.1 c hc
  rw [isOriginSeparator, Bool.or_eq_false_iff] at hsep
  exact hsep.2

theorem mem_foldl_insertOrigin {value : String} (entries : List (List Char)) :
    ∀ set, value ∈ entries.foldl insertOrigin set ↔
      value ∈ set ∨ ∃ entry ∈ entries, value = trim (String.ofList entry) ∧ value ≠ "" := by
  induction entries with
  | nil => intro set; simp
  | cons entry entries ih =>
    intro set
    rw [List.foldl_cons, ih]
    simp only [insertOrigin]
    split
    · next hblank => grind
    · next hblank => grind

/-- What is collected are the entries. -/
theorem mem_origins_iff {raw value : String} :
    value ∈ (raw.toList.splitOnP isOriginSeparator).foldl insertOrigin [] ↔ IsOrigin raw value := by
  rw [mem_foldl_insertOrigin]
  constructor
  · rintro (hmem | ⟨entry, hentry, rfl, hne⟩)
    · cases hmem
    · have hword := mem_splitOnP_iff.mp hentry
      rw [trim_of_isWord hword] at hne ⊢
      exact ⟨hne, by rwa [String.toList_ofList]⟩
  · rintro ⟨hne, hword⟩
    refine Or.inr ⟨value.toList, mem_splitOnP_iff.mpr hword, ?_, hne⟩
    rw [trim_of_isWord hword, String.ofList_toList]

/-- The entries are collected, if there are any. -/
theorem parseAllowedOrigins_cases (raw : String) :
    (parseAllowedOrigins (some raw) = none ∧ ¬ ∃ value, IsOrigin raw value) ∨
      ∃ allowed, parseAllowedOrigins (some raw) = some allowed ∧
        (∃ value, IsOrigin raw value) ∧ ∀ value, value ∈ allowed ↔ IsOrigin raw value := by
  simp only [parseAllowedOrigins]
  split
  · next hset =>
    refine Or.inl ⟨rfl, ?_⟩
    rintro ⟨value, hvalue⟩
    rw [← mem_origins_iff, hset] at hvalue
    cases hvalue
  · next hset =>
    obtain ⟨value, hvalue⟩ := List.exists_mem_of_ne_nil _ hset
    exact Or.inr ⟨_, rfl, ⟨value, mem_origins_iff.mp hvalue⟩, fun value => mem_origins_iff⟩

/-- The request names an origin of the list, if the list has any. -/
def Request.OriginFits (env : String → Option String) : Request → Prop
  | .browser origin _ =>
    ∀ raw, env "SIGNAL_ALLOWED_ORIGINS" = some raw → (∃ value, IsOrigin raw value) →
      ∃ header text, origin = some header ∧ headerText header = some text ∧
        IsOrigin raw (trim text)
  | .worker _ => True

def Request.query : Request → List (String × String)
  | .browser _ query => query
  | .worker query => query

/-- All the tokens that the query gives. -/
def Request.tokens (r : Request) : List String :=
  (r.query.filter fun pair => pair.1 = "token").map (·.2)

/-- No token is given twice. -/
def Request.Readable (r : Request) : Prop := r.tokens.length ≤ 1

def Request.role : Request → PeerRole
  | .browser _ _ => .browser
  | .worker _ => .worker

/-- The request carries the token, if there is one to carry, and no other. -/
def Request.TokenFits (env : String → Option String) (r : Request) : Prop :=
  ∀ raw, env "SIGNAL_AUTH_TOKEN" = some raw → trim raw ≠ "" → r.tokens = [trim raw]

/-- The query is read exactly if no token is given twice, and the token is then the only one. -/
theorem wsAuthQuery_cases (r : Request) :
    (wsAuthQuery r.query = none ∧ ¬ r.Readable) ∨
      ∃ token, wsAuthQuery r.query = some token ∧ r.Readable ∧ r.tokens = token.toList := by
  unfold wsAuthQuery Request.Readable Request.tokens
  cases r.query.filter fun pair => pair.1 = "token" with
  | nil => exact Or.inr ⟨none, rfl, Nat.zero_le 1, rfl⟩
  | cons pair more =>
    cases more with
    | nil => exact Or.inr ⟨some pair.2, rfl, Nat.le_refl 1, rfl⟩
    | cons second more => exact Or.inl ⟨rfl, by simp⟩

theorem isTokenValid_iff {env : String → Option String} {r : Request} {token : Option String}
    (htoken : r.tokens = token.toList) :
    (AppState.fromEnv env).isTokenValid token = true ↔ r.TokenFits env := by
  unfold AppState.isTokenValid AppState.fromEnv parseAuthToken Request.TokenFits
  rw [htoken]
  cases env "SIGNAL_AUTH_TOKEN" with
  | none => simp
  | some raw =>
    by_cases hblank : trim raw = ""
    · simp [hblank]
    · cases token <;> simp [hblank]

theorem isOriginAllowed_iff {env : String → Option String} {origin : Option (List UInt8)}
    {query : List (String × String)} :
    (AppState.fromEnv env).isOriginAllowed origin = true ↔
      (Request.browser origin query).OriginFits env := by
  unfold AppState.isOriginAllowed AppState.fromEnv Request.OriginFits
  cases env "SIGNAL_ALLOWED_ORIGINS" with
  | none => simp [parseAllowedOrigins]
  | some raw =>
    rcases parseAllowedOrigins_cases raw with ⟨heq, hnone⟩ | ⟨allowed, heq, hsome, hmem⟩
    · simp only [heq, true_iff]
      intro raw' hraw hsome
      cases hraw
      exact absurd hsome hnone
    · simp only [heq, Option.some.injEq, forall_eq', hsome, forall_const]
      cases origin with
      | none => simp
      | some header =>
        cases htext : headerText header with
        | none => simp [htext]
        | some text =>
          by_cases hblank : trim text = ""
          · simp [htext, hblank, IsOrigin]
          · simp [htext, hblank, hmem]

/-- **Who is let in**: every answer is given exactly when it should be. -/
theorem respond_iff (env : String → Option String) (r : Request) :
    (respond (AppState.fromEnv env) r = .badRequest ↔ ¬ r.Readable) ∧
      (respond (AppState.fromEnv env) r = .forbidden ↔ r.Readable ∧ ¬ r.OriginFits env) ∧
      (respond (AppState.fromEnv env) r = .unauthorized ↔
        r.Readable ∧ r.OriginFits env ∧ ¬ r.TokenFits env) ∧
      ∀ role, respond (AppState.fromEnv env) r = .upgrade role ↔
        r.role = role ∧ r.Readable ∧ r.OriginFits env ∧ r.TokenFits env := by
  rcases wsAuthQuery_cases r with ⟨hquery, hread⟩ | ⟨token, hquery, hread, htokens⟩
  · have hbad : respond (AppState.fromEnv env) r = .badRequest := by
      cases r with
      | browser origin query =>
        change wsAuthQuery query = none at hquery
        rw [respond, browserWs, hquery]
      | worker query =>
        change wsAuthQuery query = none at hquery
        rw [respond, workerWs, hquery]
    simp [hbad, hread]
  · have htoken : (AppState.fromEnv env).isTokenValid token = true ↔ r.TokenFits env :=
      isTokenValid_iff htokens
    rw [← htoken]
    cases r with
    | browser origin query =>
      change wsAuthQuery query = some token at hquery
      have horigin : (AppState.fromEnv env).isOriginAllowed origin = true ↔
          (Request.browser origin query).OriginFits env := isOriginAllowed_iff
      rw [← horigin]
      simp only [respond, browserWs, hquery, hread, Request.role]
      cases (AppState.fromEnv env).isOriginAllowed origin
      · simp
      · cases (AppState.fromEnv env).isTokenValid token <;> simp
    | worker query =>
      change wsAuthQuery query = some token at hquery
      simp only [respond, workerWs, hquery, hread, Request.role, Request.OriginFits]
      cases (AppState.fromEnv env).isTokenValid token <;> simp

/-! ## Ids are made once -/

theorem dash_notMem_toDigits (n : Nat) : '-' ∉ Nat.toDigits 16 n := by
  intro hc
  obtain ⟨d, hd, hdash⟩ := mem_toDigits (by decide) hc
  have hletter : ∀ d < 16, '-' ≠ Nat.digitChar d := by decide
  exact hletter d hd hdash

/-- An id says the time and the number it was made of. -/
theorem nextSessionId_inj {nanos nanos' : Option Nat} {seq seq' : UInt64}
    (h : nextSessionId nanos seq = nextSessionId nanos' seq') :
    nanos.getD 0 = nanos'.getD 0 ∧ seq = seq' := by
  have hlist := congrArg String.toList h
  rw [nextSessionId, nextSessionId, String.toList_ofList, String.toList_ofList] at hlist
  -- the first dash ends the time
  have htime : Nat.toDigits 16 (nanos.getD 0) = Nat.toDigits 16 (nanos'.getD 0) ∧
      Nat.toDigits 16 seq.toNat = Nat.toDigits 16 seq'.toNat := by
    rcases List.append_eq_append_iff.mp hlist with ⟨more, heq, hmore⟩ | ⟨more, heq, hmore⟩
    · cases more with
      | nil => exact ⟨by rw [heq, List.append_nil], (List.cons_eq_cons.mp hmore).2⟩
      | cons c more =>
        obtain ⟨rfl, -⟩ := List.cons_eq_cons.mp hmore
        exact absurd (heq ▸ by simp) (dash_notMem_toDigits (nanos'.getD 0))
    · cases more with
      | nil => exact ⟨by rw [heq, List.append_nil], (List.cons_eq_cons.mp hmore).2.symm⟩
      | cons c more =>
        obtain ⟨rfl, -⟩ := List.cons_eq_cons.mp hmore
        exact absurd (heq ▸ by simp) (dash_notMem_toDigits (nanos.getD 0))
  exact ⟨toDigits_inj (by decide) (by decide) htime.1,
    UInt64.toNat_inj.mp (toDigits_inj (by decide) (by decide) htime.2)⟩

/-- A request can name a peer by its id: nothing of the id is trimmed. -/
theorem optionalTrimmed_nextSessionId (nanos : Option Nat) (seq : UInt64) :
    optionalTrimmed (some (nextSessionId nanos seq)) = some (nextSessionId nanos seq) := by
  have hletter : ∀ d < 16, isWhitespace (Nat.digitChar d) = false := by decide
  have htrim : trim (nextSessionId nanos seq) = nextSessionId nanos seq := by
    refine trim_eq_self fun c hc => ?_
    rw [nextSessionId, String.toList_ofList, List.mem_append, List.mem_cons] at hc
    rcases hc with hc | rfl | hc
    · obtain ⟨d, hd, rfl⟩ := mem_toDigits (by decide) hc
      exact hletter d hd
    · decide
    · obtain ⟨d, hd, rfl⟩ := mem_toDigits (by decide) hc
      exact hletter d hd
  have hne : nextSessionId nanos seq ≠ "" := by
    intro hnil
    have := congrArg String.toList hnil
    rw [nextSessionId, String.toList_ofList] at this
    simp at this
  unfold optionalTrimmed
  simp only [htrim, hne, if_false]

/-! ## Runs of the listener -/

section Listening

variable {state : AppState} {caseMap : CaseMap} {json : SerdeJson}

/-- The roles that were let in, the numbers that were handed out and the peers of the server: no
number is handed out twice, and a peer's id was made of one that is not pending any more. -/
structure ListenerInv (state : AppState) (actions : List ListenerAction) (s : Listener) : Prop where
  counter : s.counter = UInt64.ofNat (actions.countP ListenerAction.isFetchAdd)
  upgraded : ∀ role ∈ s.upgraded, ∃ r, .request r ∈ actions ∧ respond state r = .upgrade role
  numbered : ∀ p ∈ s.numbered, p.2.toNat < actions.countP ListenerAction.isFetchAdd ∧
    ∃ r, .request r ∈ actions ∧ respond state r = .upgrade p.1
  distinct : s.numbered.Pairwise fun p q => p.2 ≠ q.2
  peers : ∀ id peer, s.server.peers id = some peer → ∃ nanos seq, id = nextSessionId nanos seq ∧
    seq.toNat < actions.countP ListenerAction.isFetchAdd ∧ (∀ p ∈ s.numbered, p.2 ≠ seq) ∧
    ∃ r, .request r ∈ actions ∧ respond state r = .upgrade peer.role

/-- Steps of the server other than `connect` keep the peers and their roles. -/
theorem peers_kept {cfg : Config} {s s' : Server} {a : ServerAction}
    (h : s.step cfg a = some s') (hconnect : a.isConnect = false) {id : String} {peer : Peer}
    (hpeer : s'.peers id = some peer) : ∃ old, s.peers id = some old ∧ old.role = peer.role := by
  cases step_cases h with
  | spawn id' new log hsp =>
    rw [peers_setPeer] at hpeer
    split at hpeer
    · next hid =>
      cases hpeer
      subst hid
      cases hsp with
      | connect role hnew => cases hconnect
      | receive old req hold hopen hidle => exact ⟨old, hold, rfl⟩
      | disconnect old hold hopen hidle => exact ⟨old, hold, rfl⟩
    · exact ⟨peer, hpeer, rfl⟩
  | advance id' own choice i k r sh hown hprog hnow hperform =>
    rw [peers_performed] at hpeer
    split at hpeer
    · next hid =>
      cases hpeer
      subst hid
      exact ⟨own, hown, rfl⟩
    · exact ⟨peer, hpeer, rfl⟩
  | rehash registry controllers hr hc => exact ⟨peer, hpeer, rfl⟩

theorem countP_snoc (actions : List ListenerAction) (a : ListenerAction) :
    (actions ++ [a]).countP ListenerAction.isFetchAdd =
      actions.countP ListenerAction.isFetchAdd + if a.isFetchAdd then 1 else 0 := by
  rw [List.countP_append, List.countP_singleton]

/-- A number that was taken out is not pending any more. -/
theorem ne_of_mem_erase {numbered : List (PeerRole × UInt64)} {role : PeerRole} {seq : UInt64}
    (hdistinct : numbered.Pairwise fun p q => p.2 ≠ q.2) (hmem : (role, seq) ∈ numbered) :
    ∀ p ∈ numbered.erase (role, seq), p.2 ≠ seq := by
  have hperm := List.perm_cons_erase hmem
  have hpair := (hperm.pairwise_iff fun h => Ne.symm h).mp hdistinct
  intro p hp
  exact Ne.symm (List.rel_of_pairwise_cons hpair hp)

/-- The id of a pending number is new. -/
theorem ListenerInv.fresh {actions : List ListenerAction} {s : Listener}
    (h : ListenerInv state actions s) {role : PeerRole} {seq : UInt64}
    (hmem : (role, seq) ∈ s.numbered) (nanos : Option Nat) :
    s.server.peers (nextSessionId nanos seq) = none := by
  cases hpeer : s.server.peers (nextSessionId nanos seq) with
  | none => rfl
  | some peer =>
    obtain ⟨nanos', seq', hid, -, hnot, -⟩ := h.peers _ peer hpeer
    exact absurd (nextSessionId_inj hid).2 (hnot _ hmem)

theorem requested_snoc {actions : List ListenerAction} {a : ListenerAction} {role : PeerRole}
    (h : ∃ r, .request r ∈ actions ∧ respond state r = .upgrade role) :
    ∃ r, .request r ∈ actions ++ [a] ∧ respond state r = .upgrade role := by
  obtain ⟨r, hr, hrole⟩ := h
  exact ⟨r, List.mem_append_left _ hr, hrole⟩

/-- A step that takes no number leaves what was said of the numbers. -/
theorem ListenerInv.later {actions : List ListenerAction} {s : Listener}
    (h : ListenerInv state actions s) {a : ListenerAction} (ha : a.isFetchAdd = false) :
    ListenerInv state (actions ++ [a]) s := by
  have hcount : (actions ++ [a]).countP ListenerAction.isFetchAdd =
      actions.countP ListenerAction.isFetchAdd := by rw [countP_snoc, ha]; rfl
  refine ⟨by rw [hcount]; exact h.counter, fun role hrole => requested_snoc (h.upgraded role hrole),
    fun p hp => ?_, h.distinct, fun id peer hpeer => ?_⟩
  · rw [hcount]
    exact ⟨(h.numbered p hp).1, requested_snoc (h.numbered p hp).2⟩
  · obtain ⟨nanos, seq, hid, hlt, hnot, hr⟩ := h.peers id peer hpeer
    rw [hcount]
    exact ⟨nanos, seq, hid, hlt, hnot, requested_snoc hr⟩

/-- The number a socket takes is larger than all before. -/
theorem ListenerInv.fetchAdd {actions : List ListenerAction} {s : Listener}
    (h : ListenerInv state actions s) {role : PeerRole} (hmem : role ∈ s.upgraded)
    (hcalls : actions.countP ListenerAction.isFetchAdd < 2 ^ 64) :
    ListenerInv state (actions ++ [.fetchAdd role])
      { s with
        counter := s.counter + 1
        upgraded := s.upgraded.erase role
        numbered := (role, s.counter) :: s.numbered } := by
  have hcount : (actions ++ [ListenerAction.fetchAdd role]).countP ListenerAction.isFetchAdd =
      actions.countP ListenerAction.isFetchAdd + 1 := by rw [countP_snoc]; rfl
  have hseq : s.counter.toNat = actions.countP ListenerAction.isFetchAdd := by
    rw [h.counter, UInt64.toNat_ofNat']
    exact Nat.mod_eq_of_lt hcalls
  have hne : ∀ seq : UInt64, seq.toNat < actions.countP ListenerAction.isFetchAdd →
      s.counter ≠ seq := by
    rintro seq hlt rfl
    omega
  refine ⟨?_, ?_, ?_, ?_, ?_⟩
  · rw [hcount, h.counter]
    simp
  · intro role' hrole'
    exact requested_snoc (h.upgraded role' (List.mem_of_mem_erase hrole'))
  · intro p hp
    rw [hcount]
    rcases List.mem_cons.mp hp with rfl | hp
    · exact ⟨by rw [hseq]; exact Nat.lt_succ_self _, requested_snoc (h.upgraded role hmem)⟩
    · exact ⟨Nat.lt_succ_of_lt (h.numbered p hp).1, requested_snoc (h.numbered p hp).2⟩
  · exact List.pairwise_cons.mpr ⟨fun p hp => hne p.2 (h.numbered p hp).1, h.distinct⟩
  · intro id peer hpeer
    obtain ⟨nanos, seq, hid, hlt, hnot, hr⟩ := h.peers id peer hpeer
    rw [hcount]
    refine ⟨nanos, seq, hid, Nat.lt_succ_of_lt hlt, fun p hp => ?_, requested_snoc hr⟩
    rcases List.mem_cons.mp hp with rfl | hp
    · exact hne seq hlt
    · exact hnot p hp

theorem listenerInv_step {actions : List ListenerAction} {s s' : Listener} {a : ListenerAction}
    (hs : s.step state caseMap json a = some s') (h : ListenerInv state actions s)
    (hcalls : (actions ++ [a]).countP ListenerAction.isFetchAdd ≤ 2 ^ 64) :
    ListenerInv state (actions ++ [a]) s' := by
  cases a with
  | request r =>
    have h' : ListenerInv state (actions ++ [.request r]) s := h.later rfl
    simp only [Listener.step] at hs
    split at hs
    · next role hup =>
      cases hs
      refine { h' with upgraded := fun role' hmem => ?_ }
      rcases List.mem_cons.mp hmem with rfl | hmem
      · exact ⟨r, by simp, hup⟩
      · exact h'.upgraded role' hmem
    · cases hs
      exact h'
  | fetchAdd role =>
    simp only [Listener.step] at hs
    split at hs
    · next hmem =>
      cases hs
      rw [countP_snoc] at hcalls
      exact h.fetchAdd hmem (Nat.lt_of_succ_le hcalls)
    · cases hs
  | connect role seq nanos =>
    have h' : ListenerInv state (actions ++ [.connect role seq nanos]) s := h.later rfl
    simp only [Listener.step] at hs
    split at hs
    · next hmem =>
      simp only [Server.step, h.fresh hmem nanos, Option.map_some, Option.some.injEq] at hs
      subst hs
      refine { h' with
        numbered := fun p hp => h'.numbered p (List.mem_of_mem_erase hp)
        distinct := h.distinct.sublist List.erase_sublist
        peers := fun id peer hpeer => ?_ }
      rw [peers_setPeer] at hpeer
      split at hpeer
      · next hid =>
        cases hpeer
        exact ⟨nanos, seq, hid, (h'.numbered _ hmem).1, ne_of_mem_erase h.distinct hmem,
          (h'.numbered _ hmem).2⟩
      · obtain ⟨nanos', seq', hid, hlt, hnot, hr⟩ := h'.peers id peer hpeer
        exact ⟨nanos', seq', hid, hlt, fun p hp => hnot p (List.mem_of_mem_erase hp), hr⟩
    · cases hs
  | serve action =>
    have h' : ListenerInv state (actions ++ [.serve action]) s := h.later rfl
    simp only [Listener.step] at hs
    split at hs
    · cases hs
    · next hconnect =>
      obtain ⟨server, hserver, rfl⟩ := Option.map_eq_some_iff.mp hs
      refine { h' with peers := fun id peer hpeer => ?_ }
      obtain ⟨old, hold, hrole⟩ := peers_kept hserver (Bool.eq_false_iff.mpr hconnect) hpeer
      rw [← hrole]
      exact h'.peers id old hold

theorem listenerInv_run {actions : List ListenerAction} {s : Listener}
    (h : Run (Listener.step state caseMap json) Listener.init actions s)
    (hcalls : actions.countP ListenerAction.isFetchAdd ≤ 2 ^ 64) :
    ListenerInv state actions s := by
  refine h.history (I := fun actions s => actions.countP ListenerAction.isFetchAdd ≤ 2 ^ 64 →
    ListenerInv state actions s) ?_ ?_ hcalls
  · intro _
    refine ⟨rfl, ?_, ?_, List.Pairwise.nil, ?_⟩
    · intro role hrole; cases hrole
    · intro p hp; cases hp
    · intro id peer hpeer; cases hpeer
  · intro actions s a s' ih _ hs hcalls
    refine listenerInv_step hs (ih ?_) hcalls
    rw [countP_snoc] at hcalls
    omega

/-- **Every connection was let in, under an id of its own**, whatever the clock shows and however
the sockets on their way and the server's tasks interleave: a socket that has its number is always
connected, under an id that no connection ever had. -/
theorem peers_admitted {env : String → Option String} {actions : List ListenerAction}
    {s : Listener}
    (h : Run (Listener.step (AppState.fromEnv env) caseMap json) Listener.init actions s)
    (hcalls : actions.countP ListenerAction.isFetchAdd ≤ 2 ^ 64) :
    (∀ id peer, s.server.peers id = some peer →
      optionalTrimmed (some id) = some id ∧
        ∃ r, .request r ∈ actions ∧ r.role = peer.role ∧ r.Readable ∧ r.OriginFits env ∧
          r.TokenFits env) ∧
    ∀ role seq nanos, (role, seq) ∈ s.numbered →
      s.server.peers (nextSessionId nanos seq) = none ∧
        ∃ s', s.step (AppState.fromEnv env) caseMap json (.connect role seq nanos) = some s' := by
  have hinv := listenerInv_run h hcalls
  refine ⟨fun id peer hpeer => ?_, fun role seq nanos hmem => ?_⟩
  · obtain ⟨nanos, seq, rfl, -, -, r, hr, hrole⟩ := hinv.peers id peer hpeer
    exact ⟨optionalTrimmed_nextSessionId nanos seq, r, hr,
      ((respond_iff env r).2.2.2 peer.role).mp hrole⟩
  · have hfresh := hinv.fresh hmem nanos
    refine ⟨hfresh, ?_⟩
    simp [Listener.step, hmem, Server.step, hfresh]

/-- An environment that allows two origins. -/
def twoOrigins (name : String) : Option String :=
  if name = "SIGNAL_ALLOWED_ORIGINS" then some "a, b" else none

/-- A browser of the second one is let in, takes the first number and is connected. -/
def secondOrigin : List ListenerAction :=
  [.request (.browser (some [32, 98]) []), .fetchAdd .browser, .connect .browser 0 (some 31)]

theorem peers_admitted_origin :
    ∃ peer : Peer, optionalTrimmed (some "1f-0") = some "1f-0" ∧
      ∃ r, .request r ∈ secondOrigin ∧ r.role = peer.role ∧ r.Readable ∧
        r.OriginFits twoOrigins ∧ r.TokenFits twoOrigins := by
  obtain ⟨s, hrun, hpeer⟩ := execWhen_any (P := fun s : Listener => s.server.peers "1f-0" ≠ none)
    (show (execWhen (fun _ _ => True) (Listener.step (AppState.fromEnv twoOrigins)
        CaseMap.ascii SerdeJson.plain) Listener.init secondOrigin).any
      (fun s => decide (s.server.peers "1f-0" ≠ none)) = true from by decide)
  obtain ⟨peer, hpeer⟩ := Option.ne_none_iff_exists'.mp hpeer
  exact ⟨peer, (peers_admitted hrun (by decide)).1 "1f-0" peer hpeer⟩

end Listening

end CloudGame.Signal
