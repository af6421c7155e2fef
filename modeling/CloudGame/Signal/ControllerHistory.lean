import CloudGame.Lib.Run
import CloudGame.Lib.Since
import CloudGame.Signal.Controllers

/-!
# The controller directory over whole runs

A run performs `registerHost`, `join` and `cleanupPeer` in any order, with a clock that never goes
back, and may iterate the maps in any order (`rehash`).  `Directory.log` keeps what happened,
newest first.

`Tracks` is the invariant: the code maps are linked, a registration and a route carry the worker
of the host's last registration, a route belongs to the last join of its controller, and a join
that nothing has ended has its route.

    worker_for_input(c, h) = w  →  c's last join led to h, and w is h's last worker
                                                                       (controllers_inputAuthority)
    c's last join led to h, nothing cleaned up since  →  worker_for_input(c, h) is h's last worker
-/

namespace CloudGame.Signal

open CloudGame.Lib

inductive DirectoryEvent where
  | registered (hostClientId workerId : String)
  | joined (controllerClientId hostClientId : String)
  | cleaned (clientId : String)
deriving DecidableEq

inductive DirectoryOp where
  | registerHost (hostClientId workerId : String) (now later : Nat) (seeds : Nat → UInt64)
  | join (controllerClientId code : String) (now : Nat)
  | cleanupPeer (clientId : String)
  | rehash (state : ControllerState)

structure Directory where
  state : ControllerState
  clock : Nat
  log : List DirectoryEvent

namespace Directory

def init : Directory := ⟨ControllerState.empty, 0, []⟩

def step (cm : CaseMap) (d : Directory) : DirectoryOp → Option Directory
  | .registerHost h w now later seeds =>
    if d.clock ≤ now ∧ now ≤ later then
      (d.state.registerHost h w now later seeds).map fun out =>
        ⟨out.2, later, .registered h w :: d.log⟩
    else none
  | .join c code now =>
    if d.clock ≤ now then
      match d.state.join cm c code now with
      | (.ok target, state) => some ⟨state, now, .joined c target.hostClientId :: d.log⟩
      | (.error _, state) => some ⟨state, now, d.log⟩
    else none
  | .cleanupPeer x => some ⟨(d.state.cleanupPeer x).2, d.clock, .cleaned x :: d.log⟩
  | .rehash state => if ControllerState.Rehashed d.state state then some { d with state := state }
    else none

end Directory

/-- What a step can do. -/
inductive DirectoryStep (cm : CaseMap) (d : Directory) : DirectoryOp → Directory → Prop
  | registered {h w code : String} {now later : Nat} {seeds : Nat → UInt64} {s : ControllerState}
    (hnow : d.clock ≤ now) (hlater : now ≤ later)
    (hr : d.state.registerHost h w now later seeds = some (code, s)) :
    DirectoryStep cm d (.registerHost h w now later seeds) ⟨s, later, .registered h w :: d.log⟩
  | joined {c code : String} {now : Nat} {target : ControllerJoinTarget} {s : ControllerState}
    (hnow : d.clock ≤ now) (hj : d.state.join cm c code now = (.ok target, s)) :
    DirectoryStep cm d (.join c code now) ⟨s, now, .joined c target.hostClientId :: d.log⟩
  | rejected {c code error : String} {now : Nat} {s : ControllerState}
    (hnow : d.clock ≤ now) (hj : d.state.join cm c code now = (.error error, s)) :
    DirectoryStep cm d (.join c code now) ⟨s, now, d.log⟩
  | cleaned (x : String) : DirectoryStep cm d (.cleanupPeer x)
    ⟨(d.state.cleanupPeer x).2, d.clock, .cleaned x :: d.log⟩
  | rehashed {s : ControllerState} (hr : ControllerState.Rehashed d.state s) :
    DirectoryStep cm d (.rehash s) { d with state := s }

theorem directory_step_cases {cm : CaseMap} {d d' : Directory} {op : DirectoryOp}
    (hs : d.step cm op = some d') : DirectoryStep cm d op d' := by
  cases op with
  | registerHost h w now later seeds =>
    simp only [Directory.step] at hs
    split at hs
    · next hle =>
      obtain ⟨out, hr, rfl⟩ := Option.map_eq_some_iff.mp hs
      exact .registered hle.1 hle.2 hr
    · cases hs
  | join c code now =>
    simp only [Directory.step] at hs
    split at hs
    · next hle =>
      split at hs
      · next hj => cases hs; exact .joined hle hj
      · next hj => cases hs; exact .rejected hle hj
    · cases hs
  | cleanupPeer x =>
    cases hs
    exact .cleaned x
  | rehash s =>
    simp only [Directory.step] at hs
    split at hs
    · next hr => cases hs; exact .rehashed hr
    · cases hs

/-! ## Reading the log -/

/-- The worker named by the most recent `register_host` of `h`. -/
def lastWorker (h : String) : List DirectoryEvent → Option String
  | [] => none
  | .registered h' w :: log => if h' = h then some w else lastWorker h log
  | .joined _ _ :: log => lastWorker h log
  | .cleaned _ :: log => lastWorker h log

/-- `e` is neither a successful join of `c` nor a cleanup of `x`. -/
def DirectoryEvent.Keeps (c x : String) (e : DirectoryEvent) : Prop :=
  (∀ h, e ≠ .joined c h) ∧ e ≠ .cleaned x

/-- A join of `c` led to `h`, with no later join of `c` and no later `cleanup_peer(c)`. -/
def LastJoined (c h : String) (log : List DirectoryEvent) : Prop :=
  Since (· = .joined c h) (DirectoryEvent.Keeps c c) log

/-- As `LastJoined`, and with no later `cleanup_peer(h)` either. -/
def StillJoined (c h : String) (log : List DirectoryEvent) : Prop :=
  Since (· = .joined c h) (fun e => e.Keeps c c ∧ e.Keeps c h) log

/-! ## The invariant -/

structure Tracks (s : ControllerState) (log : List DirectoryEvent) : Prop where
  linked : s.Linked
  codes : ∀ k r, s.codeToHost.lookup k = some r → lastWorker r.hostClientId log = some r.workerId
  routes : ∀ c r, s.controllerToHost.lookup c = some r →
    LastJoined c r.hostClientId log ∧ lastWorker r.hostClientId log = some r.workerId
  kept : ∀ c h, StillJoined c h log → ∃ r, s.controllerToHost.lookup c = some r ∧ r.hostClientId = h

theorem tracks_init : Tracks ControllerState.empty [] where
  linked := ControllerState.linked_empty
  codes := by intro k r h; simp [ControllerState.empty] at h
  routes := by intro c r h; simp [ControllerState.empty] at h
  kept := by intro c h hs; exact absurd hs (not_since_nil _ _)

theorem Tracks.rehashed {s s' : ControllerState} {log : List DirectoryEvent} (ht : Tracks s log)
    (h : ControllerState.Rehashed s s') : Tracks s' log where
  linked := ht.linked.rehashed h
  codes := by simpa only [h.1.lookup] using ht.codes
  routes := by simpa only [h.2.2.lookup] using ht.routes
  kept := by simpa only [h.2.2.lookup] using ht.kept

theorem Tracks.registered {s s' : ControllerState} {log : List DirectoryEvent} (ht : Tracks s log)
    {h w code : String} {now later : Nat}
    (hr : ControllerState.Registered s h w now later code s') :
    Tracks s' (.registered h w :: log) where
  linked := hr.linked
  codes k r hk := by
    rw [hr.codes] at hk
    split at hk
    · cases hk
      simp [lastWorker]
    · next hne =>
      rw [Option.filter_eq_some_iff] at hk
      have hw := ht.codes k r hk.1
      by_cases he : h = r.hostClientId
      · -- the host's other code: `Linked` leaves it none
        exfalso
        have h1 := hr.linked.code code _ (by rw [hr.codes, if_pos rfl])
        have h2 := hr.linked.code k r
          (by rw [hr.codes, if_neg hne, Option.filter_eq_some_iff]; exact hk)
        rw [← he] at h2
        exact hne (Option.some.inj (h2.symm.trans h1))
      · simp only [lastWorker, if_neg he, hw]
  routes c r hc := by
    rw [hr.routes, Option.map_eq_some_iff] at hc
    obtain ⟨r₀, hc, rfl⟩ := hc
    obtain ⟨hj, hw⟩ := ht.routes c r₀ hc
    rw [ControllerState.reroute_hostClientId]
    refine ⟨since_cons.mpr (Or.inr ⟨⟨by simp, by simp⟩, hj⟩), ?_⟩
    unfold lastWorker ControllerState.reroute
    by_cases he : r₀.hostClientId = h
    · rw [if_pos he.symm, if_pos he]
    · rw [if_neg (Ne.symm he), if_neg he, hw]
  kept c x hs := by
    rcases since_cons.mp hs with he | ⟨-, hs⟩
    · cases he
    · obtain ⟨r, hc, he⟩ := ht.kept c x hs
      exact ⟨_, by rw [hr.routes, hc]; rfl, by simpa using he⟩

theorem Tracks.joined {cm : CaseMap} {s s' : ControllerState} {log : List DirectoryEvent}
    (ht : Tracks s log) {c code : String} {now : Nat} {t : ControllerJoinTarget}
    (hj : s.join cm c code now = (.ok t, s')) : Tracks s' (.joined c t.hostClientId :: log) := by
  obtain ⟨hl, ⟨k₀, r₀, hk₀, -, rfl⟩, hcodes, hroutes⟩ := ControllerState.join_ok ht.linked hj
  refine ⟨hl, fun k r hk => ?_, fun c' r hc => ?_, fun c' x hs => ?_⟩
  · rw [hcodes, Option.filter_eq_some_iff] at hk
    exact ht.codes k r hk.1
  · rw [hroutes] at hc
    split at hc
    · next he =>
      cases hc
      exact ⟨since_cons.mpr (Or.inl (by rw [he])), ht.codes k₀ r₀ hk₀⟩
    · next hne =>
      obtain ⟨hj', hw⟩ := ht.routes c' r hc
      refine ⟨since_cons.mpr (Or.inr ⟨⟨?_, by simp⟩, hj'⟩), hw⟩
      rintro h he
      cases he
      exact hne rfl
  · rw [hroutes]
    rcases since_cons.mp hs with he | ⟨hk, hs⟩
    · cases he
      exact ⟨_, if_pos rfl, rfl⟩
    · rw [if_neg]
      · exact ht.kept c' x hs
      · rintro rfl
        exact hk.1.1 _ rfl

theorem Tracks.rejected {cm : CaseMap} {s s' : ControllerState} {log : List DirectoryEvent}
    (ht : Tracks s log) {c code e : String} {now : Nat}
    (hj : s.join cm c code now = (.error e, s')) : Tracks s' log := by
  obtain ⟨hl, hroutes, hcodes⟩ := ControllerState.join_error ht.linked hj
  refine ⟨hl, fun k r hk => ht.codes k r (hcodes k r hk), ?_, ?_⟩
  · rw [hroutes]; exact ht.routes
  · rw [hroutes]; exact ht.kept

theorem Tracks.cleaned {s : ControllerState} {log : List DirectoryEvent} (ht : Tracks s log)
    (x : String) : Tracks (s.cleanupPeer x).2 (.cleaned x :: log) := by
  refine ⟨ControllerState.cleanupPeer_linked ht.linked x,
    fun k r hk => ht.codes k r (ControllerState.cleanupPeer_codes_old ht.linked hk),
    fun c r hc => ?_, fun c h hs => ?_⟩
  · obtain ⟨hne, hc⟩ := ControllerState.cleanupPeer_routes_old ht.linked hc
    obtain ⟨hj, hw⟩ := ht.routes c r hc
    refine ⟨since_cons.mpr (Or.inr ⟨⟨by simp, ?_⟩, hj⟩), hw⟩
    rintro he
    cases he
    exact hne rfl
  · rcases since_cons.mp hs with he | ⟨hk, hs⟩
    · cases he
    · obtain ⟨r, hr, rfl⟩ := ht.kept c h hs
      refine ⟨r, ControllerState.cleanupPeer_routes_kept ht.linked ?_ ?_ hr, rfl⟩
      · rintro rfl; exact hk.1.2 rfl
      · intro he; exact hk.2.2 (by rw [he])

theorem tracks_step (cm : CaseMap) (d : Directory) (op : DirectoryOp) (d' : Directory)
    (ht : Tracks d.state d.log) (hs : d.step cm op = some d') : Tracks d'.state d'.log := by
  cases directory_step_cases hs with
  | registered _ _ hr =>
    exact ht.registered (ControllerState.registerHost_registered ht.linked hr)
  | joined _ hj => exact ht.joined hj
  | rejected _ hj => exact ht.rejected hj
  | cleaned x => exact ht.cleaned x
  | rehashed hr => exact ht.rehashed hr

theorem tracks_run {cm : CaseMap} {ops : List DirectoryOp} {d : Directory}
    (h : Run (Directory.step cm) Directory.init ops d) : Tracks d.state d.log :=
  h.invariant (I := fun d => Tracks d.state d.log) tracks_init
    fun d op d' ht _ hs => tracks_step cm d op d' ht hs

/-! ## Input authority -/

/-- **The worker a controller's input goes to.**  In every run, `worker_for_input(c, h)` is defined
only while `c`'s last join led to `h`, and names `h`'s last worker; and it is defined as long as
neither `c` nor `h` was cleaned up since that join, whatever became of `h`'s code. -/
theorem controllers_inputAuthority (cm : CaseMap) {ops : List DirectoryOp} {d : Directory}
    (hrun : Run (Directory.step cm) Directory.init ops d) (c h : String) :
    (∀ w, d.state.workerForInput c h = some w →
      LastJoined c h d.log ∧ lastWorker h d.log = some w) ∧
    (StillJoined c h d.log →
      ∃ w, lastWorker h d.log = some w ∧ d.state.workerForInput c h = some w) := by
  have ht := tracks_run hrun
  constructor
  · intro w hw
    unfold ControllerState.workerForInput at hw
    split at hw
    · cases hw
    · next r hr =>
      split at hw
      · next he =>
        cases hw
        rw [← he]
        exact ht.routes c r hr
      · cases hw
  · intro hs
    obtain ⟨r, hr, he⟩ := ht.kept c h hs
    refine ⟨r.workerId, ?_, ?_⟩
    · rw [← he]; exact (ht.routes c r hr).2
    · simp [ControllerState.workerForInput, hr, he]

/-- A host registers, a controller joins, the code expires, the host registers again on another
worker and gets another code. -/
def reissueRun : List DirectoryOp :=
  [.registerHost "host" "worker-1" 0 0 fun _ => 0, .join "phone" " aaaaaa " 1,
    .registerHost "other" "worker-1" joinCodeTtl joinCodeTtl fun _ => 7,
    .registerHost "host" "worker-2" joinCodeTtl joinCodeTtl fun _ => 3]

theorem controllers_inputAuthority_reissue :
    ∃ d, exec (Directory.step .ascii) Directory.init reissueRun = some d ∧
      d.state.hostToCode.lookup "host" = some "AAAAAD" ∧
      d.state.workerForInput "phone" "host" = some "worker-2" ∧
      lastWorker "host" d.log = some "worker-2" := by
  have hr : (exec (Directory.step .ascii) Directory.init reissueRun).isSome = true := by
    decide +kernel
  obtain ⟨d, hd⟩ := Option.isSome_iff_exists.mp hr
  have hcode : (exec (Directory.step .ascii) Directory.init reissueRun).bind
      (fun d => d.state.hostToCode.lookup "host") = some "AAAAAD" := by decide +kernel
  have hw : (exec (Directory.step .ascii) Directory.init reissueRun).bind
      (fun d => d.state.workerForInput "phone" "host") = some "worker-2" := by decide +kernel
  rw [hd] at hcode hw
  exact ⟨d, hd, hcode, hw,
    ((controllers_inputAuthority .ascii (exec_run hd) "phone" "host").1 _ hw).2⟩

/-! ## Cleanup of a peer -/

/-- What the cleanup of `x` owes, with `out` returned and `s` become `s'`: no map mentions `x`, the
returned lists name every controller routed to `x` once, the route of `x` itself is reported, and
the entries that do not mention `x` stay. -/
structure CleanupComplete (s : ControllerState) (x : String) (out : ControllerCleanup)
    (s' : ControllerState) : Prop where
  noRoute : s'.controllerToHost.lookup x = none
  noCode : s'.hostToCode.lookup x = none
  noRegistration : ∀ k r, s'.codeToHost.lookup k = some r → r.hostClientId ≠ x
  noRouted : ∀ c r, s'.controllerToHost.lookup c = some r → r.hostClientId ≠ x
  notified : out.notifyControllers.Nodup ∧ ∀ c, c ∈ out.notifyControllers ↔
    ∃ r, s.controllerToHost.lookup c = some r ∧ r.hostClientId = x
  terminated : out.workerTerminations.Nodup ∧ ∀ w c, (w, c) ∈ out.workerTerminations ↔
    ∃ r, s.controllerToHost.lookup c = some r ∧ r.workerId = w ∧ (r.hostClientId = x ∨ c = x)
  host : out.notifyHost = (s.controllerToHost.lookup x).map ControllerRoute.hostClientId
  frameCodes : ∀ k r, r.hostClientId ≠ x →
    (s'.codeToHost.lookup k = some r ↔ s.codeToHost.lookup k = some r)
  frameHosts : ∀ h, h ≠ x → s'.hostToCode.lookup h = s.hostToCode.lookup h
  frameRoutes : ∀ c r, c ≠ x → r.hostClientId ≠ x →
    (s'.controllerToHost.lookup c = some r ↔ s.controllerToHost.lookup c = some r)

/-- `x` did not both join as a controller and act as a host: if it has a route, it has no code and
nobody is routed to it. -/
def OneRole (s : ControllerState) (x : String) : Prop :=
  ∀ route, s.controllerToHost.lookup x = some route →
    s.hostToCode.lookup x = none ∧ ∀ c r, s.controllerToHost.lookup c = some r → r.hostClientId ≠ x

theorem mem_terminationsOf {s : ControllerState} {ids : List String} {w c : String} :
    (w, c) ∈ ids.filterMap (fun controllerId =>
      (s.controllerToHost.lookup controllerId).map fun route => (route.workerId, controllerId)) ↔
    c ∈ ids ∧ ∃ r, s.controllerToHost.lookup c = some r ∧ r.workerId = w := by
  rw [List.mem_filterMap]
  constructor
  · rintro ⟨c', hc, he⟩
    obtain ⟨r, hr, he⟩ := Option.map_eq_some_iff.mp he
    simp only [Prod.mk.injEq] at he
    obtain ⟨rfl, rfl⟩ := he
    exact ⟨hc, r, hr, rfl⟩
  · rintro ⟨hc, r, hr, rfl⟩
    exact ⟨c, hc, by rw [hr]; rfl⟩

theorem terminationsOf_nodup (s : ControllerState) {ids : List String} (h : ids.Nodup) :
    (ids.filterMap fun controllerId => (s.controllerToHost.lookup controllerId).map
      fun route => (route.workerId, controllerId)).Nodup := by
  refine h.filterMap fun a b p ha hb => ?_
  obtain ⟨r, -, rfl⟩ := Option.map_eq_some_iff.mp ha
  obtain ⟨r', -, he⟩ := Option.map_eq_some_iff.mp hb
  exact (congrArg Prod.snd he).symm

theorem cleanupComplete_unrouted {s : ControllerState} (hl : s.Linked) {x : String}
    (hx : s.controllerToHost.lookup x = none) :
    CleanupComplete s x (s.cleanupPeer x).1 (s.cleanupPeer x).2 := by
  obtain ⟨-, hcodes, hhosts, hroutes⟩ := ControllerState.cleanupPeer_unrouted hl hx
  have hout : (s.cleanupPeer x).1 = ⟨none, (s.removeHostCode x).controllersOf x,
      ((s.removeHostCode x).controllersOf x).filterMap fun controllerId =>
        ((s.removeHostCode x).controllerToHost.lookup controllerId).map
          fun route => (route.workerId, controllerId)⟩ := by
    unfold ControllerState.cleanupPeer; rw [hx]
  have hmap := (ControllerState.removeHostCode_spec hl x).2.2.2
  have hmem : ∀ c, c ∈ (s.removeHostCode x).controllersOf x ↔
      ∃ r, s.controllerToHost.lookup c = some r ∧ r.hostClientId = x := by
    intro c; rw [ControllerState.mem_controllersOf, hmap]
  rw [hout]
  refine
    { noRoute := by rw [hroutes, hx]; rfl
      noCode := by rw [hhosts, if_pos rfl]
      noRegistration := fun k r hk => ?_
      noRouted := fun c r hc => ?_
      notified := ⟨ControllerState.controllersOf_nodup _ _, hmem⟩
      terminated :=
        ⟨terminationsOf_nodup _ (ControllerState.controllersOf_nodup _ _), fun w c => ?_⟩
      host := by rw [hx]; rfl
      frameCodes := fun k r hr => ?_
      frameHosts := fun h hh => by rw [hhosts, if_neg hh]
      frameRoutes := fun c r _ hr => ?_ }
  · rw [hcodes, Option.filter_eq_some_iff] at hk
    simpa using hk.2
  · rw [hroutes, Option.filter_eq_some_iff] at hc
    simpa using hc.2
  · rw [mem_terminationsOf, hmem, hmap]
    constructor
    · rintro ⟨⟨r, hr, he⟩, r', hr', rfl⟩
      rw [hr] at hr'
      cases hr'
      exact ⟨r, hr, rfl, Or.inl he⟩
    · rintro ⟨r, hr, rfl, he | rfl⟩
      · exact ⟨⟨r, hr, he⟩, r, hr, rfl⟩
      · rw [hx] at hr; cases hr
  · rw [hcodes, Option.filter_eq_some_iff]
    simp [hr]
  · rw [hroutes, Option.filter_eq_some_iff]
    simp [hr]

theorem cleanupComplete_routed {s : ControllerState} (hl : s.Linked) {x : String}
    {route : ControllerRoute} (hx : s.controllerToHost.lookup x = some route) :
    CleanupComplete s x (s.cleanupPeer x).1 (s.cleanupPeer x).2 ↔
      s.hostToCode.lookup x = none ∧
      ∀ c r, s.controllerToHost.lookup c = some r → r.hostClientId ≠ x := by
  rw [ControllerState.cleanupPeer_routed hx]
  have hlook : ∀ c, (s.controllerToHost.erase x).lookup c =
      if c = x then none else s.controllerToHost.lookup c :=
    fun c => HashMap.lookup_erase_eq_ite _ _ _
  constructor
  · intro h
    refine ⟨h.noCode, fun c r hc he => ?_⟩
    -- the early return names no controller, so one routed to `x` is missed
    have hmem := (h.notified.2 c).mpr ⟨r, hc, he⟩
    cases hmem
  · rintro ⟨hcode, hrouted⟩
    refine
      { noRoute := by simp [hlook]
        noCode := hcode
        noRegistration := fun k r hk he => ?_
        noRouted := fun c r hc => ?_
        notified := ⟨List.nodup_nil, fun c => ⟨fun hc => absurd hc List.not_mem_nil, ?_⟩⟩
        terminated := ⟨List.nodup_singleton _, fun w c => ?_⟩
        host := by rw [hx]; rfl
        frameCodes := fun k r _ => Iff.rfl
        frameHosts := fun h _ => rfl
        frameRoutes := fun c r hc _ => ?_ }
    · have := hl.code k r hk
      rw [he, hcode] at this
      cases this
    · replace hc : (s.controllerToHost.erase x).lookup c = some r := hc
      rw [hlook] at hc
      split at hc
      · cases hc
      · exact hrouted c r hc
    · rintro ⟨r, hr, he⟩
      exact absurd he (hrouted c r hr)
    · rw [List.mem_singleton, Prod.mk.injEq]
      constructor
      · rintro ⟨rfl, rfl⟩
        exact ⟨route, hx, rfl, Or.inr rfl⟩
      · rintro ⟨r, hr, rfl, he | rfl⟩
        · exact absurd he (hrouted c r hr)
        · rw [hx] at hr
          cases hr
          exact ⟨rfl, rfl⟩
    · show (s.controllerToHost.erase x).lookup c = some r ↔ _
      rw [hlook, if_neg hc]

/-- **When the cleanup is complete.**  In every reachable state `cleanup_peer(x)` leaves no trace
of `x` and reports everyone it concerns exactly when `x` played one role: a client that joined as
a controller and is a host too is cleaned up as a controller only. -/
theorem cleanupPeer_complete_iff (cm : CaseMap) {ops : List DirectoryOp} {d : Directory}
    (hrun : Run (Directory.step cm) Directory.init ops d) (x : String) :
    CleanupComplete d.state x (d.state.cleanupPeer x).1 (d.state.cleanupPeer x).2 ↔
      OneRole d.state x := by
  have hl := (tracks_run hrun).linked
  cases hx : d.state.controllerToHost.lookup x with
  | none =>
    refine ⟨fun _ route hr => ?_, fun _ => cleanupComplete_unrouted hl hx⟩
    rw [hx] at hr
    cases hr
  | some route =>
    rw [cleanupComplete_routed hl hx]
    constructor
    · intro h route' _
      exact h
    · intro h
      exact h route hx

/-- `x` registers as a host and then joins the code of another host. -/
def twoRolesRun : List DirectoryOp :=
  [.registerHost "x" "worker-1" 0 0 fun _ => 0, .registerHost "host" "worker-1" 1 1 fun _ => 3,
    .join "x" "AAAAAD" 2]

theorem cleanupPeer_complete_host : ∃ d, exec (Directory.step .ascii) Directory.init
      [.registerHost "host" "worker-1" 0 0 fun _ => 0, .join "phone" "AAAAAA" 1] = some d ∧
    CleanupComplete d.state "host" (d.state.cleanupPeer "host").1
      (d.state.cleanupPeer "host").2 := by
  have hr : (exec (Directory.step .ascii) Directory.init
      [.registerHost "host" "worker-1" 0 0 fun _ => 0,
        .join "phone" "AAAAAA" 1]).isSome = true := by decide +kernel
  obtain ⟨d, hd⟩ := Option.isSome_iff_exists.mp hr
  have hroute : (exec (Directory.step .ascii) Directory.init
      [.registerHost "host" "worker-1" 0 0 fun _ => 0, .join "phone" "AAAAAA" 1]).bind
      (fun d => d.state.controllerToHost.lookup "host") = none := by decide +kernel
  rw [hd] at hroute
  refine ⟨d, hd, (cleanupPeer_complete_iff .ascii (exec_run hd) "host").mpr fun route h => ?_⟩
  rw [Option.bind_some, h] at hroute
  cases hroute

theorem cleanupPeer_twoRoles : ∃ d,
    exec (Directory.step .ascii) Directory.init twoRolesRun = some d ∧
    ¬ CleanupComplete d.state "x" (d.state.cleanupPeer "x").1 (d.state.cleanupPeer "x").2 := by
  have hr : (exec (Directory.step .ascii) Directory.init twoRolesRun).isSome = true := by
    decide +kernel
  obtain ⟨d, hd⟩ := Option.isSome_iff_exists.mp hr
  have hcode : (exec (Directory.step .ascii) Directory.init twoRolesRun).bind
      (fun d => (d.state.cleanupPeer "x").2.hostToCode.lookup "x") = some "AAAAAA" := by
    decide +kernel
  rw [hd] at hcode
  refine ⟨d, hd, fun h => ?_⟩
  have := h.noCode
  rw [Option.bind_some] at hcode
  rw [hcode] at this
  cases this

end CloudGame.Signal
