import Mathlib.Data.List.Basic

/-!
# Runs of a labelled step function

A system is a step function `step : σ → α → Option σ`: the action `a` is enabled in `s` when
`step s a` is not `none`.  `RunWhen ok step s₀ as s` says that the actions `as`, oldest first,
lead from `s₀` to `s` and that every step taken met the condition `ok` in the state before it.
`Run` is the case without a condition.

* `RunWhen.invariant`, `RunWhen.history`: the induction over a run, for a property of the state
  and for a property of the actions so far together with the state; `RunWhen.relative` is the
  first with the run so far at hand.
* `RunWhen.run`, `RunWhen.mono`, `RunWhen.strengthen`: a run under a condition is a run, and is one
  under any weaker condition and under any that its steps are known to meet.
* `execWhen_run`, `exec_run`, `execWhen_any`: an executed list of actions is a run, so concrete
  runs are computed.
* `withGhost step next`: the system with a ghost state beside it; `withGhost_run` and
  `exists_ghost`: it runs as the system does.  `logged step events` is the case of a log of what the
  actions do.
-/

namespace CloudGame.Lib

variable {σ α : Type}

inductive RunWhen (ok : σ → α → Prop) (step : σ → α → Option σ) (s₀ : σ) : List α → σ → Prop
  | nil : RunWhen ok step s₀ [] s₀
  | snoc {as : List α} {s s' : σ} (a : α) (h : RunWhen ok step s₀ as s) (hok : ok s a)
      (hs : step s a = some s') : RunWhen ok step s₀ (as ++ [a]) s'

/-- Runs whose steps meet no condition but being enabled. -/
abbrev Run (step : σ → α → Option σ) (s₀ : σ) : List α → σ → Prop :=
  RunWhen (fun _ _ => True) step s₀

namespace RunWhen

variable {ok : σ → α → Prop} {step : σ → α → Option σ} {s₀ : σ}

theorem mono {ok' : σ → α → Prop} (himp : ∀ s a, ok s a → ok' s a) {as : List α} {s : σ}
    (h : RunWhen ok step s₀ as s) : RunWhen ok' step s₀ as s := by
  induction h with
  | nil => exact nil
  | snoc a _ hok hs ih => exact snoc a ih (himp _ _ hok) hs

/-- A condition that the steps of such runs meet may be put in place of another. -/
theorem strengthen {ok' : σ → α → Prop}
    (himp : ∀ as s a s', RunWhen ok step s₀ as s → ok s a → step s a = some s' → ok' s a)
    {as : List α} {s : σ} (h : RunWhen ok step s₀ as s) : RunWhen ok' step s₀ as s := by
  induction h with
  | nil => exact nil
  | snoc a h hok hs ih => exact snoc a ih (himp _ _ _ _ h hok hs) hs

theorem run {as : List α} {s : σ} (h : RunWhen ok step s₀ as s) : Run step s₀ as s :=
  h.mono fun _ _ _ => trivial

/-- **Invariant rule.**  What holds at the start and is kept by every step that meets the
condition holds wherever such a run leads. -/
theorem invariant {I : σ → Prop} (h0 : I s₀)
    (hstep : ∀ s a s', I s → ok s a → step s a = some s' → I s') {as : List α} {s : σ}
    (h : RunWhen ok step s₀ as s) : I s := by
  induction h with
  | nil => exact h0
  | snoc a _ hok hs ih => exact hstep _ a _ ih hok hs

/-- The invariant rule relative to what is known of every state a run reaches. -/
theorem relative {I : σ → Prop} (h0 : I s₀)
    (hstep : ∀ as s a s', Run step s₀ as s → I s → ok s a → step s a = some s' → I s')
    {as : List α} {s : σ} (h : RunWhen ok step s₀ as s) : I s := by
  induction h with
  | nil => exact h0
  | snoc a h hok hs ih => exact hstep _ _ a _ h.run ih hok hs

/-- The invariant rule for properties of the whole history. -/
theorem history {I : List α → σ → Prop} (h0 : I [] s₀)
    (hstep : ∀ as s a s', I as s → ok s a → step s a = some s' → I (as ++ [a]) s')
    {as : List α} {s : σ} (h : RunWhen ok step s₀ as s) : I as s := by
  induction h with
  | nil => exact h0
  | snoc a _ hok hs ih => exact hstep _ _ a _ ih hok hs

theorem nil_inv {s : σ} (h : RunWhen ok step s₀ [] s) : s = s₀ := by
  generalize hbs : ([] : List α) = bs at h
  cases h with
  | nil => rfl
  | snoc a _ _ _ => exact absurd hbs.symm (List.concat_ne_nil a _)

theorem snoc_inv {as : List α} {a : α} {s' : σ} (h : RunWhen ok step s₀ (as ++ [a]) s') :
    ∃ s, RunWhen ok step s₀ as s ∧ step s a = some s' := by
  generalize hbs : as ++ [a] = bs at h
  cases h with
  | nil => exact absurd hbs (List.concat_ne_nil a _)
  | snoc a' h _ hs =>
    obtain ⟨rfl, he⟩ := List.append_inj' hbs rfl
    obtain rfl : a = a' := List.singleton_inj.mp he
    exact ⟨_, h, hs⟩

/-- The actions determine where a run leads. -/
theorem deterministic {as : List α} {s s' : σ} (h : RunWhen ok step s₀ as s)
    (h' : RunWhen ok step s₀ as s') : s = s' := by
  induction h generalizing s' with
  | nil => exact h'.nil_inv.symm
  | snoc a _ _ hs ih =>
    obtain ⟨s₁, h₁, hs₁⟩ := h'.snoc_inv
    rw [← ih h₁, hs] at hs₁
    exact Option.some.inj hs₁

theorem trans {as bs : List α} {s s' : σ} (h : RunWhen ok step s₀ as s)
    (h' : RunWhen ok step s bs s') : RunWhen ok step s₀ (as ++ bs) s' := by
  induction h' with
  | nil => simpa using h
  | snoc a _ hok hs ih => rw [← List.append_assoc]; exact snoc a ih hok hs

theorem cons {a : α} {as : List α} {s s' : σ} (hok : ok s₀ a) (hs : step s₀ a = some s)
    (h : RunWhen ok step s as s') : RunWhen ok step s₀ (a :: as) s' := by
  have h1 : RunWhen ok step s₀ [a] s := snoc a nil hok hs
  exact h1.trans h

end RunWhen

/-! ## Executing a list of actions -/

/-- The state after the actions `as`, or `none` if one of them is not enabled or breaks `ok`. -/
def execWhen (ok : σ → α → Prop) [∀ s a, Decidable (ok s a)] (step : σ → α → Option σ) (s : σ) :
    List α → Option σ
  | [] => some s
  | a :: as =>
    if ok s a then (step s a).bind fun s' => execWhen ok step s' as else none

def exec (step : σ → α → Option σ) (s : σ) : List α → Option σ :=
  execWhen (fun _ _ => True) step s

theorem execWhen_run {ok : σ → α → Prop} [∀ s a, Decidable (ok s a)] {step : σ → α → Option σ}
    {as : List α} : ∀ {s s' : σ}, execWhen ok step s as = some s' → RunWhen ok step s as s' := by
  induction as with
  | nil =>
    intro s s' h
    simp only [execWhen, Option.some.injEq] at h
    subst h
    exact .nil
  | cons a as ih =>
    intro s s' h
    simp only [execWhen] at h
    split at h
    · next hok =>
      obtain ⟨s₁, hs, h'⟩ := Option.bind_eq_some_iff.mp h
      exact .cons hok hs (ih h')
    · cases h

/-- A fact about the state an executed list of actions leads to, from its evaluation. -/
theorem execWhen_any {ok : σ → α → Prop} [∀ s a, Decidable (ok s a)] {step : σ → α → Option σ}
    {as : List α} {s : σ} {P : σ → Prop} [DecidablePred P]
    (h : (execWhen ok step s as).any (fun s' => decide (P s')) = true) :
    ∃ s', RunWhen ok step s as s' ∧ P s' := by
  cases he : execWhen ok step s as with
  | none => rw [he] at h; cases h
  | some s' =>
    rw [he] at h
    exact ⟨s', execWhen_run he, of_decide_eq_true h⟩

theorem exec_run {step : σ → α → Option σ} {as : List α} {s s' : σ}
    (h : exec step s as = some s') : Run step s as s' := execWhen_run h

/-! ## Ghost state -/

section Ghost

variable {γ : Type} {step : σ → α → Option σ} {next : σ → α → γ → γ}

/-- One step, with a ghost state that moves along and that no step reads. -/
def withGhost (step : σ → α → Option σ) (next : σ → α → γ → γ) (s : σ × γ) (a : α) :
    Option (σ × γ) :=
  (step s.1 a).map fun s' => (s', next s.1 a s.2)

theorem withGhost_eq_some {s s' : σ × γ} {a : α} (h : withGhost step next s a = some s') :
    step s.1 a = some s'.1 ∧ s'.2 = next s.1 a s.2 := by
  obtain ⟨t, ht, rfl⟩ := Option.map_eq_some_iff.mp h
  exact ⟨ht, rfl⟩

theorem withGhost_run {ok : σ → α → Prop} {s₀ : σ} {g : γ} {s : σ × γ} {as : List α}
    (h : RunWhen (fun s a => ok s.1 a) (withGhost step next) (s₀, g) as s) :
    RunWhen ok step s₀ as s.1 := by
  induction h with
  | nil => exact .nil
  | snoc a _ hok hs ih => exact .snoc a ih hok (withGhost_eq_some hs).1

/-- Every run has its ghost state. -/
theorem exists_ghost {ok : σ → α → Prop} {s₀ s : σ} {as : List α} (next : σ → α → γ → γ) (g : γ)
    (h : RunWhen ok step s₀ as s) :
    ∃ g', RunWhen (fun s a => ok s.1 a) (withGhost step next) (s₀, g) as (s, g') := by
  induction h with
  | nil => exact ⟨g, .nil⟩
  | snoc a _ hok hs ih =>
    obtain ⟨g', hrun⟩ := ih
    exact ⟨_, hrun.snoc a hok (by rw [withGhost, hs]; rfl)⟩

end Ghost

/-- One step, with what the action does in `s` put on a log, newest first. -/
def logged {ε : Type} (step : σ → α → Option σ) (events : σ → α → List ε) :
    σ × List ε → α → Option (σ × List ε) :=
  withGhost step fun s a log => events s a ++ log

theorem logged_some {ε : Type} {step : σ → α → Option σ} {events : σ → α → List ε} {s s' : σ}
    {es log : List ε} {a : α} (hs : step s a = some s') (he : events s a = es) :
    logged step events (s, log) a = some (s', es ++ log) := by
  rw [logged, withGhost, hs, ← he]
  rfl

end CloudGame.Lib
