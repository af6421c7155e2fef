import CloudGame.Lib.HashMap
import CloudGame.Lib.Text
import Mathlib.Algebra.Group.Nat.Defs

/-!
# The controller directory (`arcade-signal/src/controllers.rs`)

A host (a browser that plays on a worker) registers and gets a six-letter join code; a phone
controller joins with the code and gets a route to the host's worker.  The state is three maps:
`codeToHost` (code to registration), `hostToCode` and `controllerToHost` (controller to route).

Every operation takes the clock readings it makes as arguments (`now`, and `later` for the second
reading of `registerHost`), and the seeds that `next_join_code_seed` returns.  `none` as the result
of `nextAvailableCode` is the probing loop that never ends, when every code is taken.

`Linked` is the invariant that ties the maps together: the two code maps are inverse to each other.
Each operation has one lemma that says what it does to every lookup, under `Linked` where the
operation walks both maps.
-/

namespace CloudGame.Signal

open CloudGame.Lib

/-- `JOIN_CODE_TTL`: 15 minutes, an `Instant` being a number of nanoseconds. -/
def joinCodeTtl : Nat := 15 * 60 * 10 ^ 9

def joinCodeLength : Nat := 6

def joinCodeAlphabet : List Char := "ABCDEFGHJKLMNPQRSTUVWXYZ23456789".toList

def maxJoinCodeAttempts : Nat := 128

structure HostRegistration where
  hostClientId : String
  workerId : String
  expiresAt : Nat
deriving DecidableEq

structure ControllerRoute where
  hostClientId : String
  workerId : String
deriving DecidableEq

structure ControllerState where
  codeToHost : HashMap String HostRegistration
  hostToCode : HashMap String String
  controllerToHost : HashMap String ControllerRoute

/-- `ControllerState::default`. -/
def ControllerState.empty : ControllerState := ⟨∅, ∅, ∅⟩

structure ControllerJoinTarget where
  hostClientId : String
  workerId : String
deriving DecidableEq

structure ControllerCleanup where
  notifyHost : Option String
  notifyControllers : List String
  workerTerminations : List (String × String)
deriving DecidableEq

/-! ## Join codes -/

/-- The loop of `encode_join_code`: `n` letters still to write, before `out`. -/
def encodeJoinCodeGo : Nat → UInt64 → List Char → List Char
  | 0, _, out => out
  | n + 1, value, out =>
    encodeJoinCodeGo n (value / 32) (joinCodeAlphabet.getD (value % 32).toNat 'A' :: out)

def encodeJoinCode (value : UInt64) : String :=
  String.ofList (encodeJoinCodeGo joinCodeLength value [])

/-- The final loop of `next_available_code`, for at most `fuel` rounds. -/
def probeCode (taken : String → Bool) : Nat → UInt64 → Option String
  | 0, _ => none
  | fuel + 1, seed =>
    if taken (encodeJoinCode seed) then probeCode taken fuel (seed + 1)
    else some (encodeJoinCode seed)

namespace ControllerState

/-- `seeds i` is the result of the `i`-th call of `next_join_code_seed`.  A code depends on its
seed modulo `32^6` only, so a probing loop of `32^6` rounds has seen every code. -/
def nextAvailableCode (s : ControllerState) (seeds : Nat → UInt64) : Option String :=
  let taken code := (s.codeToHost.lookup code).isSome
  match (List.range maxJoinCodeAttempts).find? fun i => !taken (encodeJoinCode (seeds i)) with
  | some i => some (encodeJoinCode (seeds i))
  | none => probeCode taken (32 ^ joinCodeLength) (seeds maxJoinCodeAttempts)

/-! ## Operations -/

def refreshControllerRoutes (s : ControllerState) (hostClientId workerId : String) :
    ControllerState :=
  { s with
    controllerToHost := HashMap.mapVal (fun _ route =>
      if route.hostClientId = hostClientId then { route with workerId := workerId } else route)
      s.controllerToHost }

/-- The body of the second loop of `prune_expired`. -/
def pruneCode (s : ControllerState) (code : String) : ControllerState :=
  match s.codeToHost.lookup code with
  | none => s
  | some registration =>
    let s := { s with codeToHost := s.codeToHost.erase code }
    if s.hostToCode.lookup registration.hostClientId = some code then
      { s with hostToCode := s.hostToCode.erase registration.hostClientId }
    else s

def pruneExpired (s : ControllerState) (now : Nat) : ControllerState :=
  let expiredCodes := s.codeToHost.items.filterMap fun e =>
    if e.2.expiresAt ≤ now then some e.1 else none
  expiredCodes.foldl pruneCode s

/-- The end of `register_host`: a fresh code for the host. -/
def issueCode (s : ControllerState) (hostClientId workerId : String) (later : Nat)
    (seeds : Nat → UInt64) : Option (String × ControllerState) :=
  match s.nextAvailableCode seeds with
  | none => none
  | some code =>
    let s := { s with
      codeToHost := s.codeToHost.insert code ⟨hostClientId, workerId, later + joinCodeTtl⟩
      hostToCode := s.hostToCode.insert hostClientId code }
    some (code, s.refreshControllerRoutes hostClientId workerId)

def registerHost (s : ControllerState) (hostClientId workerId : String) (now later : Nat)
    (seeds : Nat → UInt64) : Option (String × ControllerState) :=
  let s := s.pruneExpired now
  match s.hostToCode.lookup hostClientId with
  | none => s.issueCode hostClientId workerId later seeds
  | some existingCode =>
    match s.codeToHost.lookup existingCode with
    | some registration =>
      let s := { s with
        codeToHost := s.codeToHost.insert existingCode
          { registration with workerId := workerId, expiresAt := later + joinCodeTtl } }
      some (existingCode, s.refreshControllerRoutes hostClientId workerId)
    | none =>
      issueCode { s with hostToCode := s.hostToCode.erase hostClientId } hostClientId workerId later
        seeds

def join (caseMap : CaseMap) (s : ControllerState) (controllerClientId code : String) (now : Nat) :
    Except String ControllerJoinTarget × ControllerState :=
  let normalized := caseMap.toUppercase (trim code)
  if normalized = "" then (.error "missing-code", s)
  else
    let s := s.pruneExpired now
    match s.codeToHost.lookup normalized with
    | none => (.error "invalid-code", s)
    | some registration =>
      (.ok ⟨registration.hostClientId, registration.workerId⟩,
        { s with
          controllerToHost := s.controllerToHost.insert controllerClientId
            ⟨registration.hostClientId, registration.workerId⟩ })

def workerForInput (s : ControllerState) (controllerClientId hostClientId : String) :
    Option String :=
  match s.controllerToHost.lookup controllerClientId with
  | none => none
  | some route => if route.hostClientId = hostClientId then some route.workerId else none

/-- The controllers whose route leads to `clientId`. -/
def controllersOf (s : ControllerState) (clientId : String) : List String :=
  s.controllerToHost.items.filterMap fun e =>
    if e.2.hostClientId = clientId then some e.1 else none

/-- The code of `clientId` and its registration removed, as `cleanup_peer` does it. -/
def removeHostCode (s : ControllerState) (clientId : String) : ControllerState :=
  match s.hostToCode.lookup clientId with
  | some code => { s with hostToCode := s.hostToCode.erase clientId
                          codeToHost := s.codeToHost.erase code }
  | none => s

def cleanupPeer (s : ControllerState) (clientId : String) : ControllerCleanup × ControllerState :=
  match s.controllerToHost.lookup clientId with
  | some route =>
    (⟨some route.hostClientId, [], [(route.workerId, clientId)]⟩,
      { s with controllerToHost := s.controllerToHost.erase clientId })
  | none =>
    let s := s.removeHostCode clientId
    let controllerIds := s.controllersOf clientId
    let workerTerminations := controllerIds.filterMap fun controllerId =>
      (s.controllerToHost.lookup controllerId).map fun route => (route.workerId, controllerId)
    (⟨none, controllerIds, workerTerminations⟩,
      { s with controllerToHost := HashMap.eraseAll controllerIds s.controllerToHost })

/-- The same maps, each iterated in any order. -/
def Rehashed (s s' : ControllerState) : Prop :=
  HashMap.Rehashed s.codeToHost s'.codeToHost ∧ HashMap.Rehashed s.hostToCode s'.hostToCode ∧
    HashMap.Rehashed s.controllerToHost s'.controllerToHost

instance (s s' : ControllerState) : Decidable (Rehashed s s') :=
  inferInstanceAs (Decidable (_ ∧ _ ∧ _))

/-! ## The two code maps are inverse to each other -/

structure Linked (s : ControllerState) : Prop where
  code : ∀ k r, s.codeToHost.lookup k = some r → s.hostToCode.lookup r.hostClientId = some k
  host : ∀ h k, s.hostToCode.lookup h = some k →
    ∃ r, s.codeToHost.lookup k = some r ∧ r.hostClientId = h

theorem linked_empty : Linked empty where
  code := by intro k r h; simp [empty] at h
  host := by intro h k hk; simp [empty] at hk

theorem Linked.rehashed {s s' : ControllerState} (hl : Linked s) (h : Rehashed s s') :
    Linked s' where
  code k r hk := by
    rw [h.1.lookup] at hk
    rw [h.2.1.lookup]
    exact hl.code k r hk
  host x k hk := by
    rw [h.2.1.lookup] at hk
    simp only [h.1.lookup]
    exact hl.host x k hk

/-! ## `prune_expired` -/

section Prune

variable (s : ControllerState) (code : String)

theorem pruneCode_controllerToHost : (s.pruneCode code).controllerToHost = s.controllerToHost := by
  unfold pruneCode
  split
  · rfl
  · dsimp only
    split <;> rfl

theorem pruneCode_codeToHost (k : String) : (s.pruneCode code).codeToHost.lookup k =
    if k = code then none else s.codeToHost.lookup k := by
  unfold pruneCode
  split
  · next h =>
    split
    · next hk => rw [hk]; exact h
    · rfl
  · dsimp only
    split <;> exact HashMap.lookup_erase_eq_ite _ _ _

theorem pruneCode_hostToCode (hl : Linked s) (h : String) : (s.pruneCode code).hostToCode.lookup h =
    if s.hostToCode.lookup h = some code then none else s.hostToCode.lookup h := by
  unfold pruneCode
  split
  · next hc =>
    rw [if_neg]
    intro hh
    obtain ⟨r, hr, -⟩ := hl.host h code hh
    rw [hc] at hr
    cases hr
  · next r hr =>
    have hcode := hl.code code r hr
    simp only [hcode, if_true]
    rw [HashMap.lookup_erase_eq_ite]
    by_cases hh : h = r.hostClientId
    · rw [if_pos hh, hh, if_pos hcode]
    · rw [if_neg hh, if_neg]
      intro hh'
      obtain ⟨r', hr', he⟩ := hl.host h code hh'
      rw [hr] at hr'
      cases hr'
      exact hh he.symm

theorem pruneCode_linked (hl : Linked s) : Linked (s.pruneCode code) where
  code k r hk := by
    rw [pruneCode_codeToHost] at hk
    split at hk
    · cases hk
    · next hne =>
      rw [pruneCode_hostToCode s code hl, hl.code k r hk, if_neg (by simpa using hne)]
  host h k hk := by
    rw [pruneCode_hostToCode s code hl] at hk
    split at hk
    · cases hk
    · next hne =>
      obtain ⟨r, hr, he⟩ := hl.host h k hk
      refine ⟨r, ?_, he⟩
      rw [pruneCode_codeToHost, if_neg, hr]
      rintro rfl
      exact hne hk

end Prune

/-- The codes of `prune_expired`'s loop removed one after the other. -/
theorem pruneCodes_spec (codes : List String) : ∀ s : ControllerState, Linked s →
    Linked (codes.foldl pruneCode s) ∧
    (codes.foldl pruneCode s).controllerToHost = s.controllerToHost ∧
    ∀ k, (codes.foldl pruneCode s).codeToHost.lookup k =
      if k ∈ codes then none else s.codeToHost.lookup k := by
  induction codes with
  | nil => intro s hl; exact ⟨hl, rfl, fun k => by simp⟩
  | cons c codes ih =>
    intro s hl
    obtain ⟨h1, h2, h3⟩ := ih (s.pruneCode c) (pruneCode_linked s c hl)
    refine ⟨h1, h2.trans (pruneCode_controllerToHost s c), fun k => ?_⟩
    rw [List.foldl_cons, h3, pruneCode_codeToHost]
    by_cases hc : k = c <;> by_cases hm : k ∈ codes <;> simp [hc, hm]

theorem pruneExpired_linked {s : ControllerState} (hl : Linked s) (now : Nat) :
    Linked (s.pruneExpired now) := (pruneCodes_spec _ s hl).1

theorem pruneExpired_controllerToHost {s : ControllerState} (hl : Linked s) (now : Nat) :
    (s.pruneExpired now).controllerToHost = s.controllerToHost := (pruneCodes_spec _ s hl).2.1

/-- What is left of the registrations are those that have not expired. -/
theorem pruneExpired_codeToHost {s : ControllerState} (hl : Linked s) (now : Nat) (k : String) :
    (s.pruneExpired now).codeToHost.lookup k =
      (s.codeToHost.lookup k).filter fun r => now < r.expiresAt := by
  unfold pruneExpired
  rw [(pruneCodes_spec _ s hl).2.2]
  have hmem : (k ∈ s.codeToHost.items.filterMap fun e =>
      if e.2.expiresAt ≤ now then some e.1 else none) ↔
      ∃ r, s.codeToHost.lookup k = some r ∧ r.expiresAt ≤ now := by
    rw [List.mem_filterMap]
    constructor
    · rintro ⟨⟨k', r⟩, hm, he⟩
      dsimp only at he
      split at he
      · next hle =>
        cases he
        exact ⟨r, HashMap.mem_items.mp hm, hle⟩
      · cases he
    · rintro ⟨r, hr, hle⟩
      exact ⟨(k, r), HashMap.mem_items.mpr hr, if_pos hle⟩
  rw [if_congr hmem rfl rfl]
  cases hr : s.codeToHost.lookup k with
  | none => simp
  | some r =>
    simp only [Option.some.injEq, exists_eq_left', Option.filter_some, decide_eq_true_eq]
    by_cases hle : r.expiresAt ≤ now
    · rw [if_pos hle, if_neg (by omega)]
    · rw [if_neg hle, if_pos (by omega)]

/-! ## `register_host` -/

theorem nextAvailableCode_free {s : ControllerState} {seeds : Nat → UInt64} {code : String}
    (h : s.nextAvailableCode seeds = some code) : s.codeToHost.lookup code = none := by
  have probe : ∀ fuel seed,
      probeCode (fun c => (s.codeToHost.lookup c).isSome) fuel seed = some code →
      s.codeToHost.lookup code = none := by
    intro fuel
    induction fuel with
    | zero => intro seed hp; cases hp
    | succ fuel ih =>
      intro seed hp
      unfold probeCode at hp
      split at hp
      · exact ih _ hp
      · next hfree =>
        cases hp
        simpa using hfree
  unfold nextAvailableCode at h
  dsimp only at h
  split at h
  · next i hi =>
    cases h
    simpa using List.find?_some hi
  · exact probe _ _ h

/-- What `refresh_controller_routes` makes of a route. -/
def reroute (hostClientId workerId : String) (route : ControllerRoute) : ControllerRoute :=
  if route.hostClientId = hostClientId then { route with workerId := workerId } else route

@[simp] theorem reroute_hostClientId (h w : String) (route : ControllerRoute) :
    (reroute h w route).hostClientId = route.hostClientId := by
  unfold reroute; split <;> rfl

theorem refreshControllerRoutes_lookup (s : ControllerState) (h w c : String) :
    (s.refreshControllerRoutes h w).controllerToHost.lookup c =
      (s.controllerToHost.lookup c).map (reroute h w) :=
  HashMap.lookup_mapVal _ _ _

theorem linked_insert {s : ControllerState} (hl : Linked s) {h k : String} {r : HostRegistration}
    (hr : r.hostClientId = h) (hk : ∀ r', s.codeToHost.lookup k = some r' → r'.hostClientId = h)
    (hh : ∀ k', s.hostToCode.lookup h = some k' → k' = k)
    (routes : HashMap String ControllerRoute) :
    Linked ⟨s.codeToHost.insert k r, s.hostToCode.insert h k, routes⟩ where
  code k' r' hk' := by
    simp only [HashMap.lookup_insert_eq_ite] at hk' ⊢
    split at hk'
    · next he => cases hk'; rw [if_pos hr, he]
    · next hne =>
      rw [if_neg, hl.code k' r' hk']
      rintro rfl
      exact hne (hh k' (hl.code k' r' hk'))
  host h' k' hk' := by
    simp only [HashMap.lookup_insert_eq_ite] at hk' ⊢
    split at hk'
    · next he => cases hk'; exact ⟨r, by rw [if_pos rfl], hr.trans he.symm⟩
    · next hne =>
      obtain ⟨r', hr', he⟩ := hl.host h' k' hk'
      refine ⟨r', ?_, he⟩
      rw [if_neg, hr']
      rintro rfl
      exact hne (he.symm.trans (hk r' hr'))

/-- The registrations and routes after `register_host`: under the returned code the host with its
worker and a new deadline, the other live registrations as before, every route of the host led to
the worker. -/
structure Registered (s : ControllerState) (h w : String) (now later : Nat) (code : String)
    (s' : ControllerState) : Prop where
  linked : Linked s'
  codes : ∀ k, s'.codeToHost.lookup k = if k = code then some ⟨h, w, later + joinCodeTtl⟩
    else (s.codeToHost.lookup k).filter fun r => now < r.expiresAt
  routes : ∀ c, s'.controllerToHost.lookup c = (s.controllerToHost.lookup c).map (reroute h w)

theorem issueCode_registered {s s₁ s' : ControllerState} {h w code : String} {now later : Nat}
    {seeds : Nat → UInt64} (hl : Linked s) (hs : s₁ = s.pruneExpired now)
    (hfree : s₁.hostToCode.lookup h = none)
    (hi : s₁.issueCode h w later seeds = some (code, s')) : Registered s h w now later code s' := by
  unfold issueCode at hi
  split at hi
  · cases hi
  · next c hc =>
    simp only [Option.some.injEq, Prod.mk.injEq] at hi
    obtain ⟨rfl, rfl⟩ := hi
    have hnone := nextAvailableCode_free hc
    have hl₁ : Linked s₁ := hs ▸ pruneExpired_linked hl now
    refine ⟨linked_insert hl₁ rfl (by simp [hnone]) (by simp [hfree]) _, fun k => ?_, fun c => ?_⟩
    · show (s₁.codeToHost.insert _ _).lookup k = _
      rw [HashMap.lookup_insert_eq_ite, hs, pruneExpired_codeToHost hl]
    · rw [refreshControllerRoutes_lookup, ← pruneExpired_controllerToHost hl now, hs]

theorem registerHost_registered {s s' : ControllerState} {h w code : String} {now later : Nat}
    {seeds : Nat → UInt64} (hl : Linked s)
    (hr : s.registerHost h w now later seeds = some (code, s')) :
    Registered s h w now later code s' := by
  have hl₁ := pruneExpired_linked hl now
  unfold registerHost at hr
  dsimp only at hr
  split at hr
  · next hh => exact issueCode_registered hl rfl hh hr
  · next k hk =>
    obtain ⟨r, hr₁, he⟩ := hl₁.host h k hk
    rw [hr₁] at hr
    simp only [Option.some.injEq, Prod.mk.injEq] at hr
    obtain ⟨rfl, rfl⟩ := hr
    refine ⟨?_, fun k' => ?_, fun c => ?_⟩
    · constructor
      · intro k' r' hk'
        show (s.pruneExpired now).hostToCode.lookup _ = _
        replace hk' : ((s.pruneExpired now).codeToHost.insert k _).lookup k' = some r' := hk'
        rw [HashMap.lookup_insert_eq_ite] at hk'
        split at hk'
        · next hkk => cases hk'; rw [hkk]; show _ = some k; rw [← hk, ← he]
        · exact hl₁.code k' r' hk'
      · intro h' k' hk'
        obtain ⟨r', hr', he'⟩ := hl₁.host h' k' hk'
        show ∃ r', ((s.pruneExpired now).codeToHost.insert k _).lookup k' = some r' ∧ _
        rw [HashMap.lookup_insert_eq_ite]
        split
        · next hkk =>
          refine ⟨_, rfl, ?_⟩
          rw [hkk, hr₁] at hr'
          cases hr'
          exact he'
        · exact ⟨r', hr', he'⟩
    · show ((s.pruneExpired now).codeToHost.insert k _).lookup k' = _
      rw [HashMap.lookup_insert_eq_ite, pruneExpired_codeToHost hl, ← he]
    · rw [refreshControllerRoutes_lookup]
      show Option.map _ ((s.pruneExpired now).controllerToHost.lookup c) = _
      rw [pruneExpired_controllerToHost hl]

/-! ## `join` -/

theorem join_ok {cm : CaseMap} {s s' : ControllerState} {c code : String} {now : Nat}
    {t : ControllerJoinTarget} (hl : Linked s) (hj : s.join cm c code now = (.ok t, s')) :
    Linked s' ∧ (∃ k r, s.codeToHost.lookup k = some r ∧ now < r.expiresAt ∧
      t = ⟨r.hostClientId, r.workerId⟩) ∧
    (∀ k, s'.codeToHost.lookup k = (s.codeToHost.lookup k).filter fun r => now < r.expiresAt) ∧
    ∀ c', s'.controllerToHost.lookup c' =
      if c' = c then some ⟨t.hostClientId, t.workerId⟩ else s.controllerToHost.lookup c' := by
  have hl₁ := pruneExpired_linked hl now
  unfold join at hj
  dsimp only at hj
  split at hj
  · cases hj
  · split at hj
    · cases hj
    · next r hr =>
      simp only [Prod.mk.injEq, Except.ok.injEq] at hj
      obtain ⟨rfl, rfl⟩ := hj
      refine ⟨⟨hl₁.code, hl₁.host⟩, ?_, pruneExpired_codeToHost hl now, fun c' => ?_⟩
      · rw [pruneExpired_codeToHost hl, Option.filter_eq_some_iff] at hr
        exact ⟨_, r, hr.1, by simpa using hr.2, rfl⟩
      · show ((s.pruneExpired now).controllerToHost.insert c _).lookup c' = _
        rw [HashMap.lookup_insert_eq_ite, pruneExpired_controllerToHost hl]

theorem join_error {cm : CaseMap} {s s' : ControllerState} {c code e : String} {now : Nat}
    (hl : Linked s) (hj : s.join cm c code now = (.error e, s')) :
    Linked s' ∧ s'.controllerToHost = s.controllerToHost ∧
    ∀ k r, s'.codeToHost.lookup k = some r → s.codeToHost.lookup k = some r := by
  unfold join at hj
  dsimp only at hj
  split at hj
  · cases hj
    exact ⟨hl, rfl, fun _ _ h => h⟩
  · split at hj
    · cases hj
      refine ⟨pruneExpired_linked hl now, pruneExpired_controllerToHost hl now, fun k r h => ?_⟩
      rw [pruneExpired_codeToHost hl, Option.filter_eq_some_iff] at h
      exact h.1
    · cases hj

/-! ## `cleanup_peer` -/

theorem removeHostCode_spec {s : ControllerState} (hl : Linked s) (x : String) :
    Linked (s.removeHostCode x) ∧
    (∀ k, (s.removeHostCode x).codeToHost.lookup k =
      (s.codeToHost.lookup k).filter fun r => r.hostClientId ≠ x) ∧
    (∀ h, (s.removeHostCode x).hostToCode.lookup h =
      if h = x then none else s.hostToCode.lookup h) ∧
    (s.removeHostCode x).controllerToHost = s.controllerToHost := by
  unfold removeHostCode
  cases hx : s.hostToCode.lookup x with
  | none =>
    refine ⟨hl, fun k => ?_, fun h => ?_, rfl⟩
    · cases hk : s.codeToHost.lookup k with
      | none => rfl
      | some r =>
        have hne : r.hostClientId ≠ x := by
          rintro rfl
          rw [hl.code k r hk] at hx
          cases hx
        rw [Option.filter_some, if_pos (by simpa using hne)]
    · show s.hostToCode.lookup h = _
      split
      · next he => rw [he]; exact hx
      · rfl
  | some code =>
    obtain ⟨r₀, hr₀, he₀⟩ := hl.host x code hx
    have hcodes : ∀ k, (s.codeToHost.erase code).lookup k =
        (s.codeToHost.lookup k).filter fun r => r.hostClientId ≠ x := by
      intro k
      rw [HashMap.lookup_erase_eq_ite]
      split
      · next hk => rw [hk, hr₀, Option.filter_some, if_neg (by simpa using he₀)]
      · next hk =>
        cases hr : s.codeToHost.lookup k with
        | none => rfl
        | some r =>
          have hne : r.hostClientId ≠ x := by
            rintro he
            have := hl.code k r hr
            rw [he, hx] at this
            cases this
            exact hk rfl
          rw [Option.filter_some, if_pos (by simpa using hne)]
    refine ⟨⟨fun k r hk => ?_, fun h k hk => ?_⟩, hcodes, ?_, rfl⟩
    · replace hk : (s.codeToHost.erase code).lookup k = some r := hk
      rw [hcodes, Option.filter_eq_some_iff] at hk
      show (s.hostToCode.erase x).lookup _ = _
      rw [HashMap.lookup_erase_eq_ite, if_neg (by simpa using hk.2), hl.code k r hk.1]
    · replace hk : (s.hostToCode.erase x).lookup h = some k := hk
      rw [HashMap.lookup_erase_eq_ite] at hk
      split at hk
      · cases hk
      · next hne =>
        obtain ⟨r, hr, he⟩ := hl.host h k hk
        refine ⟨r, ?_, he⟩
        show (s.codeToHost.erase code).lookup k = _
        rw [hcodes, hr, Option.filter_some, if_pos (by simpa [he] using hne)]
    · exact fun h => HashMap.lookup_erase_eq_ite _ _ _

theorem mem_controllersOf {s : ControllerState} {x c : String} :
    c ∈ s.controllersOf x ↔ ∃ r, s.controllerToHost.lookup c = some r ∧ r.hostClientId = x := by
  unfold controllersOf
  rw [List.mem_filterMap]
  constructor
  · rintro ⟨⟨c', r⟩, hm, he⟩
    dsimp only at he
    split at he
    · next hx => cases he; exact ⟨r, HashMap.mem_items.mp hm, hx⟩
    · cases he
  · rintro ⟨r, hr, hx⟩
    exact ⟨(c, r), HashMap.mem_items.mpr hr, if_pos hx⟩

theorem controllersOf_nodup (s : ControllerState) (x : String) : (s.controllersOf x).Nodup := by
  have hsub : ((s.controllersOf x).Sublist (s.controllerToHost.items.map Prod.fst)) := by
    unfold controllersOf
    generalize s.controllerToHost.items = es
    induction es with
    | nil => exact List.Sublist.slnil
    | cons e es ih =>
      rw [List.filterMap_cons, List.map_cons]
      by_cases he : e.2.hostClientId = x
      · rw [if_pos he]; exact ih.cons_cons _
      · rw [if_neg he]; exact ih.cons _
  exact (HashMap.items_keys_nodup _).sublist hsub

/-- `cleanup_peer` of a client without a route: its code goes, and the routes to it. -/
theorem cleanupPeer_unrouted {s : ControllerState} (hl : Linked s) {x : String}
    (hx : s.controllerToHost.lookup x = none) :
    Linked (s.cleanupPeer x).2 ∧
    (∀ k, (s.cleanupPeer x).2.codeToHost.lookup k =
      (s.codeToHost.lookup k).filter fun r => r.hostClientId ≠ x) ∧
    (∀ h, (s.cleanupPeer x).2.hostToCode.lookup h =
      if h = x then none else s.hostToCode.lookup h) ∧
    ∀ c, (s.cleanupPeer x).2.controllerToHost.lookup c =
      (s.controllerToHost.lookup c).filter fun r => r.hostClientId ≠ x := by
  obtain ⟨h1, h2, h3, h4⟩ := removeHostCode_spec hl x
  unfold cleanupPeer
  rw [hx]
  refine ⟨⟨h1.code, h1.host⟩, h2, h3, fun c => ?_⟩
  show (HashMap.eraseAll _ _).lookup c = _
  rw [HashMap.lookup_eraseAll, h4, if_congr mem_controllersOf rfl rfl, h4]
  cases s.controllerToHost.lookup c with
  | none => simp
  | some r =>
    simp only [Option.some.injEq, exists_eq_left', Option.filter_some]
    by_cases hr : r.hostClientId = x <;> simp [hr]

theorem cleanupPeer_routed {s : ControllerState} {x : String} {route : ControllerRoute}
    (hx : s.controllerToHost.lookup x = some route) :
    s.cleanupPeer x = (⟨some route.hostClientId, [], [(route.workerId, x)]⟩,
      { s with controllerToHost := s.controllerToHost.erase x }) := by
  unfold cleanupPeer
  rw [hx]

theorem cleanupPeer_linked {s : ControllerState} (hl : Linked s) (x : String) :
    Linked (s.cleanupPeer x).2 := by
  cases hx : s.controllerToHost.lookup x with
  | none => exact (cleanupPeer_unrouted hl hx).1
  | some route => rw [cleanupPeer_routed hx]; exact ⟨hl.code, hl.host⟩

/-! ### What a cleanup leaves -/

section Left

variable {s : ControllerState} {x k c : String} {registration : HostRegistration}
  {route : ControllerRoute}

theorem cleanupPeer_codes_old (hl : Linked s)
    (hk : (s.cleanupPeer x).2.codeToHost.lookup k = some registration) :
    s.codeToHost.lookup k = some registration := by
  cases hx : s.controllerToHost.lookup x with
  | none =>
    rw [(cleanupPeer_unrouted hl hx).2.1, Option.filter_eq_some_iff] at hk
    exact hk.1
  | some own =>
    rw [cleanupPeer_routed hx] at hk
    exact hk

theorem cleanupPeer_codes_kept (hl : Linked s) (hne : registration.hostClientId ≠ x)
    (hk : s.codeToHost.lookup k = some registration) :
    (s.cleanupPeer x).2.codeToHost.lookup k = some registration := by
  cases hx : s.controllerToHost.lookup x with
  | none =>
    rw [(cleanupPeer_unrouted hl hx).2.1, Option.filter_eq_some_iff]
    exact ⟨hk, by simpa using hne⟩
  | some own =>
    rw [cleanupPeer_routed hx]
    exact hk

/-- The peer itself has no route left. -/
theorem cleanupPeer_routes_old (hl : Linked s)
    (hr : (s.cleanupPeer x).2.controllerToHost.lookup c = some route) :
    c ≠ x ∧ s.controllerToHost.lookup c = some route := by
  cases hx : s.controllerToHost.lookup x with
  | none =>
    rw [(cleanupPeer_unrouted hl hx).2.2.2, Option.filter_eq_some_iff] at hr
    refine ⟨?_, hr.1⟩
    rintro rfl
    rw [hx] at hr
    cases hr.1
  | some own =>
    rw [cleanupPeer_routed hx] at hr
    replace hr : (s.controllerToHost.erase x).lookup c = some route := hr
    rw [HashMap.lookup_erase_eq_ite] at hr
    split at hr
    · cases hr
    · next hne => exact ⟨hne, hr⟩

theorem cleanupPeer_routes_kept (hl : Linked s) (hc : c ≠ x) (hne : route.hostClientId ≠ x)
    (hr : s.controllerToHost.lookup c = some route) :
    (s.cleanupPeer x).2.controllerToHost.lookup c = some route := by
  cases hx : s.controllerToHost.lookup x with
  | none =>
    rw [(cleanupPeer_unrouted hl hx).2.2.2, Option.filter_eq_some_iff]
    exact ⟨hr, by simpa using hne⟩
  | some own =>
    rw [cleanupPeer_routed hx]
    show (s.controllerToHost.erase x).lookup c = some route
    rw [HashMap.lookup_erase_eq_ite, if_neg hc, hr]

end Left

end ControllerState

end CloudGame.Signal
