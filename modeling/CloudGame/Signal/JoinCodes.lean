import CloudGame.Signal.ControllerHistory

/-!
# Join codes over whole runs

What a host may rely on once `register_host` has returned it a code: as long as it registers again
before the deadline and is not cleaned up, it keeps the code, and the code leads to it and to the
worker it named last.  At the deadline the code stops leading to it, whatever others do in between.

    registered in time, not cleaned up, t before the deadline  →  the code is honoured at t
    t at or after the deadline of h's last registration        →  no join at t leads to h
                                                                             (joinCodes_honoured)

The first rests on an invariant that holds up to the deadline only (`Lease.held`), since any
operation on the directory may prune an expired code.  The second is an invariant of every
registration of the host (`ExpiresAt`).
-/

namespace CloudGame.Signal

open CloudGame.Lib

/-! ## Deadlines -/

/-- The deadline of `h`'s code after the operation; `deadline` is the one before. -/
def DirectoryOp.renewed (h : String) (deadline : Nat) : DirectoryOp → Nat
  | .registerHost h' _ _ later _ => if h' = h then later + joinCodeTtl else deadline
  | _ => deadline

/-- `h` registers before its deadline, if it does, and is not cleaned up. -/
def DirectoryOp.InTime (h : String) (deadline : Nat) : DirectoryOp → Prop
  | .registerHost h' _ now _ _ => h' = h → now < deadline
  | .cleanupPeer x => x ≠ h
  | _ => True

def renewedAfter (h : String) (deadline : Nat) (ops : List DirectoryOp) : Nat :=
  ops.foldl (DirectoryOp.renewed h) deadline

/-- Every operation is in time for the deadline that stands then. -/
def AllInTime (h : String) : Nat → List DirectoryOp → Prop
  | _, [] => True
  | deadline, op :: ops => op.InTime h deadline ∧ AllInTime h (op.renewed h deadline) ops

theorem renewedAfter_append (h : String) (deadline : Nat) (ops : List DirectoryOp)
    (op : DirectoryOp) :
    renewedAfter h deadline (ops ++ [op]) = op.renewed h (renewedAfter h deadline ops) := by
  simp [renewedAfter]

theorem allInTime_append (h : String) (op : DirectoryOp) (ops : List DirectoryOp) :
    ∀ deadline, AllInTime h deadline (ops ++ [op]) ↔
      AllInTime h deadline ops ∧ op.InTime h (renewedAfter h deadline ops) := by
  induction ops with
  | nil => intro deadline; simp [AllInTime, renewedAfter]
  | cons op' ops ih =>
    intro deadline
    show _ ∧ AllInTime h _ (ops ++ [op]) ↔ (_ ∧ AllInTime h _ ops) ∧ _
    rw [ih, and_assoc]
    exact Iff.rfl

/-! ## Codes -/

theorem length_encodeJoinCodeGo (n : Nat) :
    ∀ (value : UInt64) (out : List Char),
      (encodeJoinCodeGo n value out).length = n + out.length := by
  induction n with
  | zero => intro value out; simp [encodeJoinCodeGo]
  | succ n ih =>
    intro value out
    rw [encodeJoinCodeGo, ih, List.length_cons]
    omega

theorem encodeJoinCode_ne_empty (value : UInt64) : encodeJoinCode value ≠ "" := by
  intro h
  have hlen := length_encodeJoinCodeGo joinCodeLength value []
  have hnil : encodeJoinCodeGo joinCodeLength value [] = [] := by
    have := congrArg String.toList h
    simpa [encodeJoinCode] using this
  rw [hnil] at hlen
  cases hlen

namespace ControllerState

theorem nextAvailableCode_ne_empty {s : ControllerState} {seeds : Nat → UInt64} {code : String}
    (h : s.nextAvailableCode seeds = some code) : code ≠ "" := by
  have probe : ∀ taken fuel seed, probeCode taken fuel seed = some code → code ≠ "" := by
    intro taken fuel
    induction fuel with
    | zero => intro seed hp; cases hp
    | succ fuel ih =>
      intro seed hp
      unfold probeCode at hp
      split at hp
      · exact ih _ hp
      · cases hp; exact encodeJoinCode_ne_empty seed
  unfold nextAvailableCode at h
  dsimp only at h
  split at h
  · cases h; exact encodeJoinCode_ne_empty _
  · exact probe _ _ _ h

/-- The code that is returned is the host's own, or free and not empty. -/
theorem registerHost_code {s s' : ControllerState} {h w code : String} {now later : Nat}
    {seeds : Nat → UInt64} (hl : Linked s)
    (hr : s.registerHost h w now later seeds = some (code, s')) :
    (∃ r, s.codeToHost.lookup code = some r ∧ r.hostClientId = h) ∨
      (code ≠ "" ∧ (s.pruneExpired now).codeToHost.lookup code = none) := by
  have hl₁ := pruneExpired_linked hl now
  have hissue : ∀ s₁ : ControllerState, s₁.codeToHost = (s.pruneExpired now).codeToHost →
      s₁.issueCode h w later seeds = some (code, s') →
      code ≠ "" ∧ (s.pruneExpired now).codeToHost.lookup code = none := by
    intro s₁ hs₁ hi
    unfold issueCode at hi
    split at hi
    · cases hi
    · next c hc =>
      simp only [Option.some.injEq, Prod.mk.injEq] at hi
      obtain ⟨rfl, -⟩ := hi
      exact ⟨nextAvailableCode_ne_empty hc, hs₁ ▸ nextAvailableCode_free hc⟩
  unfold registerHost at hr
  dsimp only at hr
  split at hr
  · exact Or.inr (hissue _ rfl hr)
  · next k hk =>
    obtain ⟨r, hr₁, he⟩ := hl₁.host h k hk
    rw [hr₁] at hr
    simp only [Option.some.injEq, Prod.mk.injEq] at hr
    obtain ⟨rfl, -⟩ := hr
    rw [pruneExpired_codeToHost hl, Option.filter_eq_some_iff] at hr₁
    exact Or.inl ⟨r, hr₁.1, he⟩

/-- A host with a live code is given it again. -/
theorem registerHost_live {s : ControllerState} (hl : Linked s) {k : String} {r : HostRegistration}
    {now : Nat} (hk : s.codeToHost.lookup k = some r) (hlive : now < r.expiresAt) (w : String)
    (later : Nat) (seeds : Nat → UInt64) :
    ∃ s', s.registerHost r.hostClientId w now later seeds = some (k, s') := by
  have hlook : (s.pruneExpired now).codeToHost.lookup k = some r := by
    rw [pruneExpired_codeToHost hl, hk, Option.filter_some, if_pos (by simpa using hlive)]
  have hhost := (pruneExpired_linked hl now).code k r hlook
  unfold registerHost
  simp only [hhost, hlook, Option.some.injEq, Prod.mk.injEq, true_and, exists_eq']

/-- A join leads to the host whose live code it names. -/
theorem join_live {cm : CaseMap} {s : ControllerState} (hl : Linked s) {k : String}
    {r : HostRegistration} {now : Nat} (hk : s.codeToHost.lookup k = some r)
    (hlive : now < r.expiresAt) (hne : k ≠ "") (c : String) {text : String}
    (ht : cm.toUppercase (trim text) = k) :
    (s.join cm c text now).1 = .ok ⟨r.hostClientId, r.workerId⟩ := by
  have hlook : (s.pruneExpired now).codeToHost.lookup k = some r := by
    rw [pruneExpired_codeToHost hl, hk, Option.filter_some, if_pos (by simpa using hlive)]
  unfold join
  dsimp only
  rw [ht, if_neg hne, hlook]

/-- A join, whatever comes of it, leaves a code that has not expired. -/
theorem join_keeps {cm : CaseMap} {s : ControllerState} (hl : Linked s) {k : String}
    {r : HostRegistration} {now : Nat} (hk : s.codeToHost.lookup k = some r)
    (hlive : now < r.expiresAt) (c text : String) :
    (s.join cm c text now).2.codeToHost.lookup k = some r := by
  have hlook : (s.pruneExpired now).codeToHost.lookup k = some r := by
    rw [pruneExpired_codeToHost hl, hk, Option.filter_some, if_pos (by simpa using hlive)]
  unfold join
  dsimp only
  split
  · exact hk
  · split <;> exact hlook

/-- Where a join leads there is a registration that has not expired. -/
theorem join_registration {cm : CaseMap} {s : ControllerState} (hl : Linked s) {c text : String}
    {now : Nat} {t : ControllerJoinTarget} (hj : (s.join cm c text now).1 = .ok t) :
    ∃ k r, s.codeToHost.lookup k = some r ∧ now < r.expiresAt ∧
      r.hostClientId = t.hostClientId := by
  cases hjoin : s.join cm c text now with
  | mk result s' =>
    rw [hjoin] at hj
    cases hj
    obtain ⟨-, ⟨k, r, hk, hlive, rfl⟩, -, -⟩ := join_ok hl hjoin
    exact ⟨k, r, hk, hlive, rfl⟩

end ControllerState

/-! ## One step -/

/-- A registration was there before the step, or the step made it. -/
theorem registration_step {cm : CaseMap} {d d' : Directory} {op : DirectoryOp}
    (hl : d.state.Linked) (hs : d.step cm op = some d') {k : String} {r : HostRegistration}
    (hk : d'.state.codeToHost.lookup k = some r) :
    d.state.codeToHost.lookup k = some r ∨ ∃ h w now later seeds,
      op = .registerHost h w now later seeds ∧ r = ⟨h, w, later + joinCodeTtl⟩ ∧
        (k ≠ "" ∨ ∃ r', d.state.codeToHost.lookup k = some r') := by
  cases directory_step_cases hs with
  | registered _ _ hr =>
    rw [(ControllerState.registerHost_registered hl hr).codes] at hk
    split at hk
    · next he =>
      cases hk
      subst he
      refine Or.inr ⟨_, _, _, _, _, rfl, rfl, ?_⟩
      rcases ControllerState.registerHost_code hl hr with ⟨r', hr', -⟩ | ⟨hne, -⟩
      · exact Or.inr ⟨r', hr'⟩
      · exact Or.inl hne
    · exact Or.inl (Option.filter_eq_some_iff.mp hk).1
  | joined _ hj =>
    rw [(ControllerState.join_ok hl hj).2.2.1, Option.filter_eq_some_iff] at hk
    exact Or.inl hk.1
  | rejected _ hj => exact Or.inl ((ControllerState.join_error hl hj).2.2 k r hk)
  | cleaned x => exact Or.inl (ControllerState.cleanupPeer_codes_old hl hk)
  | rehashed hr =>
    left
    rwa [hr.1.lookup] at hk

/-- The code `k` is registered for `h` with this deadline. -/
def Registers (s : ControllerState) (h k : String) (deadline : Nat) : Prop :=
  ∃ r, s.codeToHost.lookup k = some r ∧ r.hostClientId = h ∧ r.expiresAt = deadline

/-- Up to the deadline that stands after the step, a host that was in time has its code. -/
theorem registers_step {cm : CaseMap} {d d' : Directory} {op : DirectoryOp} {h k : String}
    {deadline : Nat} (hl : d.state.Linked) (hs : d.step cm op = some d')
    (hin : op.InTime h deadline) (hi : d.clock < deadline → Registers d.state h k deadline)
    (hclock : d'.clock < op.renewed h deadline) :
    Registers d'.state h k (op.renewed h deadline) := by
  -- a join that is in time, whether it succeeds or not
  have hjoin : ∀ c code now, d.clock ≤ now → now < deadline →
      Registers (d.state.join cm c code now).2 h k deadline := by
    intro c code now hle hnow
    obtain ⟨r, hk, hhost, hexp⟩ := hi (Nat.lt_of_le_of_lt hle hnow)
    exact ⟨r, ControllerState.join_keeps hl hk (hexp ▸ hnow) c code, hhost, hexp⟩
  cases directory_step_cases hs with
  | @registered h' w code now later seeds s' hnow' hlater hr =>
    have hcodes := (ControllerState.registerHost_registered hl hr).codes k
    by_cases he : h' = h
    · subst he
      have hnow : now < deadline := hin rfl
      obtain ⟨r, hk, hhost, hexp⟩ := hi (Nat.lt_of_le_of_lt hnow' hnow)
      obtain ⟨s₁, hlive⟩ :=
        ControllerState.registerHost_live hl hk (hexp ▸ hnow) w later seeds
      rw [hhost, hr] at hlive
      cases hlive
      exact ⟨_, hcodes.trans (if_pos rfl), rfl, (if_pos rfl).symm⟩
    · have hsame :
          (DirectoryOp.registerHost h' w now later seeds).renewed h deadline = deadline :=
        if_neg he
      rw [hsame] at hclock ⊢
      have hnow : now < deadline := Nat.lt_of_le_of_lt hlater hclock
      obtain ⟨r, hk, hhost, hexp⟩ := hi (Nat.lt_of_le_of_lt hnow' hnow)
      have hkeep :
          (d.state.codeToHost.lookup k).filter (fun r => now < r.expiresAt) = some r := by
        rw [hk, Option.filter_some, if_pos (by simpa [hexp] using hnow)]
      -- the code of `h'` is another one: its own, or one that is free
      have hne : k ≠ code := by
        rintro rfl
        rcases ControllerState.registerHost_code hl hr with ⟨r', hr', hhost'⟩ | ⟨-, hfree⟩
        · rw [hk] at hr'
          cases hr'
          exact he (hhost'.symm.trans hhost)
        · rw [ControllerState.pruneExpired_codeToHost hl, hkeep] at hfree
          cases hfree
      exact ⟨r, by rw [hcodes, if_neg hne, hkeep], hhost, hexp⟩
  | @joined c code now _ _ hle hj =>
    have hkeeps := hjoin c code now hle hclock
    rw [hj] at hkeeps
    exact hkeeps
  | @rejected c code _ now _ hle hj =>
    have hkeeps := hjoin c code now hle hclock
    rw [hj] at hkeeps
    exact hkeeps
  | cleaned x =>
    obtain ⟨r, hk, hhost, hexp⟩ := hi hclock
    have hne : r.hostClientId ≠ x := fun he => hin (he.symm.trans hhost)
    exact ⟨r, ControllerState.cleanupPeer_codes_kept hl hne hk, hhost, hexp⟩
  | rehashed hr =>
    obtain ⟨r, hk, hhost, hexp⟩ := hi hclock
    exact ⟨r, by rw [hr.1.lookup]; exact hk, hhost, hexp⟩

/-- Every registration of `h` has this deadline. -/
def ExpiresAt (s : ControllerState) (h : String) (deadline : Nat) : Prop :=
  ∀ k r, s.codeToHost.lookup k = some r → r.hostClientId = h → r.expiresAt = deadline

/-- The host has one code only, so the registration just made is its only one. -/
theorem ControllerState.Registered.expiresAt {s s' : ControllerState} {h w code : String}
    {now later : Nat} (hreg : ControllerState.Registered s h w now later code s') :
    ExpiresAt s' h (later + joinCodeTtl) := by
  intro k r hk hhost
  have hnew : s'.codeToHost.lookup code = some ⟨h, w, later + joinCodeTtl⟩ :=
    (hreg.codes code).trans (if_pos rfl)
  have hcode := hreg.linked.code k r hk
  rw [hhost, hreg.linked.code code _ hnew, Option.some.injEq] at hcode
  rw [hcode, hk] at hnew
  cases hnew
  rfl

theorem expiresAt_step {cm : CaseMap} {d d' : Directory} {op : DirectoryOp} {h : String}
    {deadline : Nat} (hl : d.state.Linked) (hs : d.step cm op = some d')
    (hi : ExpiresAt d.state h deadline) : ExpiresAt d'.state h (op.renewed h deadline) := by
  by_cases hop : ∃ w now later seeds, op = .registerHost h w now later seeds
  · obtain ⟨w, now, later, seeds, rfl⟩ := hop
    cases directory_step_cases hs with
    | registered _ _ hr =>
      rw [DirectoryOp.renewed, if_pos rfl]
      exact (ControllerState.registerHost_registered hl hr).expiresAt
  · have hsame : op.renewed h deadline = deadline := by
      cases op with
      | registerHost h' w now later seeds =>
        exact if_neg fun he => hop ⟨w, now, later, seeds, by rw [he]⟩
      | _ => rfl
    intro k r hk hhost
    rw [hsame]
    rcases registration_step hl hs hk with hold | ⟨h', w, now, later, seeds, rfl, rfl, -⟩
    · exact hi k r hold hhost
    · exact absurd ⟨w, now, later, seeds, by rw [← hhost]⟩ hop

/-! ## Whole runs -/

theorem codes_ne_empty_run {cm : CaseMap} {ops : List DirectoryOp} {d : Directory}
    (h : Run (Directory.step cm) Directory.init ops d) :
    ∀ k r, d.state.codeToHost.lookup k = some r → k ≠ "" := by
  refine h.relative (I := fun d => ∀ k r, d.state.codeToHost.lookup k = some r → k ≠ "")
    (fun k r hk => by simp [Directory.init, ControllerState.empty] at hk) ?_
  intro ops d op d' hrun hi _ hs k r hk
  rcases registration_step (tracks_run hrun).linked hs hk with hold | ⟨_, _, _, _, _, _, _, hnew⟩
  · exact hi k r hold
  · rcases hnew with hne | ⟨r', hr'⟩
    · exact hne
    · exact hi k r' hr'

/-- `d` keeps `h`'s code `k`: every registration of `h` has this deadline, and if `h` was in time,
`k` is registered for it until then. -/
structure Lease (d : Directory) (h k : String) (inTime : Prop) (deadline : Nat) : Prop where
  tracks : Tracks d.state d.log
  expires : ExpiresAt d.state h deadline
  held : inTime → d.clock < deadline → Registers d.state h k deadline

theorem lease_issued {s s' : ControllerState} {log : List DirectoryEvent} {h w k : String}
    {now later : Nat} {seeds : Nat → UInt64} (ht : Tracks s log)
    (hr : s.registerHost h w now later seeds = some (k, s')) :
    Lease ⟨s', later, .registered h w :: log⟩ h k True (later + joinCodeTtl) := by
  have hreg := ControllerState.registerHost_registered ht.linked hr
  have hnew : s'.codeToHost.lookup k = some ⟨h, w, later + joinCodeTtl⟩ :=
    (hreg.codes k).trans (if_pos rfl)
  exact ⟨ht.registered hreg, hreg.expiresAt, fun _ _ => ⟨_, hnew, rfl, rfl⟩⟩

theorem lease_run {cm : CaseMap} {d d' : Directory} {h k : String} {deadline : Nat}
    {ops : List DirectoryOp} (h0 : Lease d h k True deadline)
    (hrun : Run (Directory.step cm) d ops d') :
    Lease d' h k (AllInTime h deadline ops) (renewedAfter h deadline ops) := by
  refine hrun.history
    (I := fun ops d => Lease d h k (AllInTime h deadline ops) (renewedAfter h deadline ops)) h0 ?_
  intro ops d op d' hi _ hs
  have hl := hi.tracks.linked
  rw [renewedAfter_append]
  refine ⟨tracks_step cm d op d' hi.tracks hs, expiresAt_step hl hs hi.expires, fun hin => ?_⟩
  rw [allInTime_append] at hin
  exact registers_step hl hs hin.2 (hi.held hin.1)

/-- At time `t` the code `k` is honoured: `h` would be given it again, and who joins with it is led
to `h` and to the worker of `h`'s last registration. -/
def Honours (cm : CaseMap) (d : Directory) (h k : String) (t : Nat) : Prop :=
  (∀ w later seeds, ∃ s, d.state.registerHost h w t later seeds = some (k, s)) ∧
    ∀ c text, cm.toUppercase (trim text) = k →
      ∃ w, lastWorker h d.log = some w ∧ (d.state.join cm c text t).1 = .ok ⟨h, w⟩

/-- **What a join code is worth.**  In every run the two code maps are inverse to each other.  When
`register_host(h)` returned `k` and `h` registered in time ever since and was not cleaned up, `k` is
honoured until the deadline, `joinCodeTtl` after the second clock reading of `h`'s last call; from
then on no join leads to `h`, until `h` registers again. -/
theorem joinCodes_honoured (cm : CaseMap) {ops : List DirectoryOp} {d : Directory}
    (hrun : Run (Directory.step cm) Directory.init ops d) :
    (∀ k h, (∃ r, d.state.codeToHost.lookup k = some r ∧ r.hostClientId = h) ↔
      d.state.hostToCode.lookup h = some k) ∧
    ∀ h w k now later seeds d₁, d.step cm (.registerHost h w now later seeds) = some d₁ →
      d.state.registerHost h w now later seeds = some (k, d₁.state) →
      ∀ more d', Run (Directory.step cm) d₁ more d' → ∀ t, d'.clock ≤ t →
        (AllInTime h (later + joinCodeTtl) more → t < renewedAfter h (later + joinCodeTtl) more →
          Honours cm d' h k t) ∧
        (renewedAfter h (later + joinCodeTtl) more ≤ t →
          ∀ c text w', (d'.state.join cm c text t).1 ≠ .ok ⟨h, w'⟩) := by
  have ht := tracks_run hrun
  refine ⟨fun k h => ⟨?_, ht.linked.host h k⟩, ?_⟩
  · rintro ⟨r, hk, rfl⟩
    exact ht.linked.code k r hk
  intro h w k now later seeds d₁ hstep hcall more d' hmore t hclock
  have hd₁ : d₁ = ⟨d₁.state, later, .registered h w :: d.log⟩ := by
    simp only [Directory.step, hcall, Option.map_some] at hstep
    split at hstep
    · exact (Option.some.inj hstep).symm
    · cases hstep
  have hlease : Lease d' h k (AllInTime h (later + joinCodeTtl) more)
      (renewedAfter h (later + joinCodeTtl) more) :=
    lease_run (by rw [hd₁]; exact lease_issued ht hcall) hmore
  have hl := hlease.tracks.linked
  refine ⟨fun hin hlt => ?_, fun hle c text w' hj => ?_⟩
  · obtain ⟨r, hk, rfl, hexp⟩ := hlease.held hin (Nat.lt_of_le_of_lt hclock hlt)
    have hlive : t < r.expiresAt := by rw [hexp]; exact hlt
    have hne : k ≠ "" :=
      codes_ne_empty_run ((hrun.snoc _ trivial hstep).trans hmore) k r hk
    refine ⟨ControllerState.registerHost_live hl hk hlive, fun c text htext => ?_⟩
    exact ⟨r.workerId, hlease.tracks.codes k r hk,
      ControllerState.join_live hl hk hlive hne c htext⟩
  · obtain ⟨k', r, hk, hlive, hhost⟩ := ControllerState.join_registration hl hj
    have := hlease.expires k' r hk hhost
    omega

/-- The host registers again in time, with another worker. -/
def renewedRun : List DirectoryOp :=
  [.join "phone" "AAAAAA" 1, .registerHost "host" "worker-2" 5 5 fun _ => 3]

/-- At the first deadline its code still leads to it, at the second no longer. -/
theorem joinCodes_honoured_renewed :
    ∃ d d', Directory.init.step .ascii (.registerHost "host" "worker-1" 0 0 fun _ => 0) = some d ∧
      exec (Directory.step .ascii) d renewedRun = some d' ∧
      Honours .ascii d' "host" "AAAAAA" joinCodeTtl ∧
      ∀ c text w', (d'.state.join .ascii c text (5 + joinCodeTtl)).1 ≠ .ok ⟨"host", w'⟩ := by
  have hr : ((Directory.init.step .ascii (.registerHost "host" "worker-1" 0 0 fun _ => 0)).bind
      fun d => exec (Directory.step .ascii) d renewedRun).isSome = true := by decide +kernel
  obtain ⟨d', hd'⟩ := Option.isSome_iff_exists.mp hr
  obtain ⟨d, hd, hd'⟩ := Option.bind_eq_some_iff.mp hd'
  have hcode : ((Directory.init.state.registerHost "host" "worker-1" 0 0 fun _ => 0).map
      Prod.fst) = some "AAAAAA" := by decide +kernel
  obtain ⟨⟨code, s⟩, hcall, rfl⟩ := Option.map_eq_some_iff.mp hcode
  have hs : d.state = s := by
    simp only [Directory.step, hcall, Option.map_some] at hd
    cases hd
    rfl
  have hclock : ((Directory.init.step .ascii (.registerHost "host" "worker-1" 0 0 fun _ => 0)).bind
      fun d => exec (Directory.step .ascii) d renewedRun).map Directory.clock = some 5 := by
    decide +kernel
  rw [hd, Option.bind_some, hd', Option.map_some, Option.some.injEq] at hclock
  have hstart : Run (Directory.step .ascii) Directory.init [] Directory.init := .nil
  have hat := (joinCodes_honoured .ascii hstart).2 "host" "worker-1" "AAAAAA" 0 0 _ d hd
    (hs ▸ hcall) renewedRun d' (exec_run hd')
  rw [hclock] at hat
  refine ⟨d, d', hd, hd', (hat joinCodeTtl (by decide)).1 ?_ (by decide), ?_⟩
  · exact ⟨trivial, fun _ => by decide, trivial⟩
  · exact (hat (5 + joinCodeTtl) (by decide)).2 (by decide)

end CloudGame.Signal
