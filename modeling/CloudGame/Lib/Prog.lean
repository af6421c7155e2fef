import Mathlib.Logic.Function.Basic

/-!
# Programs of atomic operations

`Prog ι ρ α` is a program that performs atomic operations `i : ι` on a shared state, each
answered by a reply `ρ i`, and returns an `α`.  A task of a concurrent system is the program it
has still to run; one step of the system lets one task perform its next operation, so the
interleavings of the tasks are the lists of such steps.

Three readings of a program carry the proofs about such systems:

* `All P p`: every operation `p` may perform satisfies `P`; `Along P p`: with what `p` does next.
* `Wp G Q p g`: with a ghost state that starts as `g` and moves with the replies as `G` says,
  every operation `p` performs is allowed and `Q` holds at the end.
* `Will adm hit p`: whatever the replies (of those that `adm` admits), `p` performs an operation
  that satisfies `hit` before it returns; `Owes` says so of one of several tasks.

Each has its rule for `bind` and, where a proof weakens one, its monotonicity.
-/

namespace CloudGame.Lib

inductive Prog (ι : Type) (ρ : ι → Type) (α : Type) : Type
  | ret (a : α) : Prog ι ρ α
  | op (i : ι) (k : ρ i → Prog ι ρ α) : Prog ι ρ α

namespace Prog

variable {ι : Type} {ρ : ι → Type} {α β γ : Type}

def bind : Prog ι ρ α → (α → Prog ι ρ β) → Prog ι ρ β
  | ret a, f => f a
  | op i k, f => op i fun r => (k r).bind f

instance : Monad (Prog ι ρ) where
  pure := ret
  bind := bind

/-- One atomic operation; its reply is the result. -/
def call (i : ι) : Prog ι ρ (ρ i) := op i ret

def isDone : Prog ι ρ α → Bool
  | ret _ => true
  | op _ _ => false

@[simp] theorem pure_bind_eq (a : α) (f : α → Prog ι ρ β) : ((pure a : Prog ι ρ α) >>= f) = f a :=
  rfl

@[simp] theorem op_bind (i : ι) (k : ρ i → Prog ι ρ α) (f : α → Prog ι ρ β) :
    (op i k >>= f) = op i fun r => k r >>= f := rfl

@[simp] theorem call_bind (i : ι) (f : ρ i → Prog ι ρ β) : (call i >>= f) = op i f := rfl

theorem eq_ret_of_isDone {p : Prog ι ρ Unit} (h : p.isDone = true) : p = ret () := by
  cases p with
  | ret a => rfl
  | op i k => cases h

/-- The next operation. -/
def head : Prog ι ρ α → Option ι
  | ret _ => none
  | op i _ => some i

theorem eq_op_of_head {p : Prog ι ρ α} {i : ι} (h : p.head = some i) : ∃ k, p = op i k := by
  cases p with
  | ret a => cases h
  | op i' k => cases h; exact ⟨k, rfl⟩

/-- One step: perform the next operation on the shared state `s` (`perform` says how, `none` when
the operation cannot be performed now) and continue with its reply. -/
def advance {σ : Type} (perform : σ → (i : ι) → Option (ρ i × σ)) (s : σ) :
    Prog ι ρ α → Option (σ × Prog ι ρ α)
  | ret _ => none
  | op i k => (perform s i).map fun out => (out.2, k out.1)

theorem advance_eq_some {σ : Type} {perform : σ → (i : ι) → Option (ρ i × σ)} {s s' : σ}
    {p p' : Prog ι ρ α} (h : p.advance perform s = some (s', p')) :
    ∃ i k r, p = op i k ∧ perform s i = some (r, s') ∧ p' = k r := by
  cases p with
  | ret a => simp [advance] at h
  | op i k =>
    simp only [advance, Option.map_eq_some_iff] at h
    obtain ⟨⟨r, t⟩, hp, he⟩ := h
    simp only [Prod.mk.injEq] at he
    obtain ⟨rfl, rfl⟩ := he
    exact ⟨i, k, r, rfl, hp, rfl⟩

/-- The whole program without interruption: its result and the state it leaves. -/
def exec {σ : Type} (perform : σ → (i : ι) → Option (ρ i × σ)) : Prog ι ρ α → σ → Option (α × σ)
  | ret a, s => some (a, s)
  | op i k, s => (perform s i).bind fun out => exec perform (k out.1) out.2

/-- `if let Some(x) = o { f x }`. -/
def whenSome {δ : Type} (o : Option δ) (f : δ → Prog ι ρ Unit) : Prog ι ρ Unit :=
  match o with
  | some x => f x
  | none => ret ()

/-- A `for` loop over a list. -/
def each {δ : Type} : List δ → (δ → Prog ι ρ Unit) → Prog ι ρ Unit
  | [], _ => ret ()
  | x :: xs, f => f x >>= fun _ => each xs f

/-! ## Every operation -/

def All (P : ι → Prop) : Prog ι ρ α → Prop
  | ret _ => True
  | op i k => P i ∧ ∀ r, All P (k r)

theorem all_true (p : Prog ι ρ α) : p.All fun _ => True := by
  induction p with
  | ret a => trivial
  | op i k ih => exact ⟨trivial, ih⟩

theorem All.bind {P : ι → Prop} {p : Prog ι ρ α} {f : α → Prog ι ρ β} (hp : p.All P)
    (hf : ∀ a, (f a).All P) : (p >>= f).All P := by
  induction p with
  | ret a => exact hf a
  | op i k ih => exact ⟨hp.1, fun r => ih r (hp.2 r)⟩

theorem All.whenSome {δ : Type} {P : ι → Prop} {f : δ → Prog ι ρ Unit} {o : Option δ}
    (hf : ∀ x, (f x).All P) : (whenSome o f).All P := by
  cases o with
  | none => trivial
  | some x => exact hf x

theorem All.each {δ : Type} {P : ι → Prop} {f : δ → Prog ι ρ Unit} {xs : List δ}
    (hf : ∀ x ∈ xs, (f x).All P) : (each xs f).All P := by
  induction xs with
  | nil => trivial
  | cons x xs ih =>
    refine (hf x (List.mem_cons_self ..)).bind fun _ => ?_
    exact ih fun y hy => hf y (List.mem_cons_of_mem _ hy)

theorem All.mono {P Q : ι → Prop} (himp : ∀ i, P i → Q i) {p : Prog ι ρ α} (hp : p.All P) :
    p.All Q := by
  induction p with
  | ret a => trivial
  | op i k ih => exact ⟨himp i hp.1, fun r => ih r (hp.2 r)⟩

theorem All.and {P Q : ι → Prop} {p : Prog ι ρ α} (hp : p.All P) (hq : p.All Q) :
    p.All fun i => P i ∧ Q i := by
  induction p with
  | ret a => trivial
  | op i k ih => exact ⟨⟨hp.1, hq.1⟩, fun r => ih r (hp.2 r) (hq.2 r)⟩

/-! ## Every operation with what follows it -/

def Along (P : (i : ι) → (ρ i → Prog ι ρ α) → Prop) : Prog ι ρ α → Prop
  | ret _ => True
  | op i k => P i k ∧ ∀ r, Along P (k r)

theorem All.along {Q : ι → Prop} {P : (i : ι) → (ρ i → Prog ι ρ α) → Prop}
    (himp : ∀ i k, Q i → P i k) {p : Prog ι ρ α} (hp : p.All Q) : p.Along P := by
  induction p with
  | ret a => trivial
  | op i k ih => exact ⟨himp i k hp.1, fun r => ih r (hp.2 r)⟩

theorem Along.mono {P Q : (i : ι) → (ρ i → Prog ι ρ α) → Prop} (himp : ∀ i k, P i k → Q i k)
    {p : Prog ι ρ α} (hp : p.Along P) : p.Along Q := by
  induction p with
  | ret a => trivial
  | op i k ih => exact ⟨himp i k hp.1, fun r => ih r (hp.2 r)⟩

/-! ## Ghost state: weakest preconditions -/

/-- A ghost state moves with the replies: what is allowed in it, what replies it admits, and what
it becomes. -/
structure Ghost (ι : Type) (ρ : ι → Type) (γ : Type) where
  ok : γ → ι → Prop
  adm : γ → (i : ι) → ρ i → Prop
  next : γ → (i : ι) → ρ i → γ

def Wp (G : Ghost ι ρ γ) (Q : γ → α → Prop) : Prog ι ρ α → γ → Prop
  | ret a, g => Q g a
  | op i k, g => G.ok g i ∧ ∀ r, G.adm g i r → Wp G Q (k r) (G.next g i r)

variable {G : Ghost ι ρ γ}

theorem wp_bind (Q : γ → β → Prop) (p : Prog ι ρ α) (f : α → Prog ι ρ β) (g : γ) :
    (p >>= f).Wp G Q g ↔ p.Wp G (fun g' a => (f a).Wp G Q g') g := by
  induction p generalizing g with
  | ret a => exact Iff.rfl
  | op i k ih =>
    exact and_congr_right fun _ => forall_congr' fun r => imp_congr_right fun _ => ih r _

theorem Wp.bind {Q : γ → β → Prop} {p : Prog ι ρ α} {f : α → Prog ι ρ β} {g : γ}
    (hp : p.Wp G (fun g' a => (f a).Wp G Q g') g) : (p >>= f).Wp G Q g :=
  (wp_bind Q p f g).mpr hp

theorem Wp.mono {Q Q' : γ → α → Prop} (himp : ∀ g a, Q g a → Q' g a) {p : Prog ι ρ α} {g : γ}
    (hp : p.Wp G Q g) : p.Wp G Q' g := by
  induction p generalizing g with
  | ret a => exact himp g a hp
  | op i k ih => exact ⟨hp.1, fun r hr => ih r (hp.2 r hr)⟩

theorem Wp.whenSome {δ : Type} {Q : γ → Unit → Prop} {f : δ → Prog ι ρ Unit} {o : Option δ}
    {g : γ} (hnone : o = none → Q g ()) (hsome : ∀ x, o = some x → (f x).Wp G Q g) :
    (Prog.whenSome o f).Wp G Q g := by
  cases o with
  | none => exact hnone rfl
  | some x => exact hsome x rfl

/-- A loop keeps what every round of it keeps. -/
theorem Wp.each {δ : Type} {I : γ → Prop} {f : δ → Prog ι ρ Unit} {xs : List δ}
    (hf : ∀ x ∈ xs, ∀ g, I g → (f x).Wp G (fun g' _ => I g') g) {g : γ} (hg : I g) :
    (Prog.each xs f).Wp G (fun g' _ => I g') g := by
  induction xs generalizing g with
  | nil => exact hg
  | cons x xs ih =>
    refine Wp.bind ((hf x (List.mem_cons_self ..) g hg).mono fun g' _ hg' => ?_)
    exact ih (fun y hy => hf y (List.mem_cons_of_mem _ hy)) hg'

/-- A program whose operations are allowed and leave the ghost state as it is. -/
theorem All.wp_same {P : ι → Prop} {Q : γ → α → Prop} {g : γ} (hok : ∀ i, P i → G.ok g i)
    (hsame : ∀ i r, P i → G.next g i r = g) {p : Prog ι ρ α} (hp : p.All P) (hq : ∀ a, Q g a) :
    p.Wp G Q g := by
  induction p with
  | ret a => exact hq a
  | op i k ih =>
    refine ⟨hok i hp.1, fun r _ => ?_⟩
    rw [hsame i r hp.1]
    exact ih r (hp.2 r)

/-- A program whose operations are allowed in every ghost state. -/
theorem All.wp {P : ι → Prop} (hok : ∀ g i, P i → G.ok g i) {p : Prog ι ρ α} (hp : p.All P)
    (g : γ) : p.Wp G (fun _ _ => True) g := by
  induction p generalizing g with
  | ret a => trivial
  | op i k ih => exact ⟨hok g i hp.1, fun r _ => ih r (hp.2 r) _⟩

/-! ## What a program certainly does -/

def Will (adm : (i : ι) → ρ i → Prop) (hit : ι → Prop) : Prog ι ρ α → Prop
  | ret _ => False
  | op i k => hit i ∨ ∀ r, adm i r → Will adm hit (k r)

variable {adm : (i : ι) → ρ i → Prop} {hit : ι → Prop}

@[simp] theorem will_ret (a : α) : ¬ (ret a : Prog ι ρ α).Will adm hit := id

theorem Will.bind {p : Prog ι ρ α} {f : α → Prog ι ρ β} (hp : p.Will adm hit) :
    (p >>= f).Will adm hit := by
  induction p with
  | ret a => exact absurd hp (will_ret a)
  | op i k ih => exact hp.imp id fun h r hr => ih r (h r hr)

theorem Will.bind_right {p : Prog ι ρ α} {f : α → Prog ι ρ β} (hf : ∀ a, (f a).Will adm hit) :
    (p >>= f).Will adm hit := by
  induction p with
  | ret a => exact hf a
  | op i k ih => exact Or.inr fun r _ => ih r

/-- A loop certainly does what one of its rounds certainly does. -/
theorem Will.each {δ : Type} {f : δ → Prog ι ρ Unit} {xs : List δ} {x : δ} (hx : x ∈ xs)
    (hf : (f x).Will adm hit) : (each xs f).Will adm hit := by
  induction xs with
  | nil => cases hx
  | cons y xs ih =>
    rcases List.mem_cons.mp hx with rfl | hx
    · exact hf.bind
    · exact Will.bind_right fun _ => ih hx

/-- A program that performs no operation of the kind does not certainly perform one. -/
theorem All.not_will {P : ι → Prop} (hmiss : ∀ i, P i → ¬ hit i) (hadm : ∀ i, ∃ r, adm i r)
    {p : Prog ι ρ α} (hp : p.All P) : ¬ p.Will adm hit := by
  induction p with
  | ret a => exact will_ret a
  | op i k ih =>
    rintro (hhit | hrest)
    · exact hmiss i hp.1 hhit
    · obtain ⟨r, hr⟩ := hadm i
      exact ih r (hp.2 r) (hrest r hr)

/-! ## What one of several tasks certainly does -/

def Owes {τ : Type} (tasks : τ → Prog ι ρ α) (adm : (i : ι) → ρ i → Prop) (hit : ι → Prop) : Prop :=
  ∃ t, (tasks t).Will adm hit

section Owes

variable {τ : Type} [DecidableEq τ] {tasks : τ → Prog ι ρ α} {t : τ} {p : Prog ι ρ α} {a : α}
  {i : ι} {k : ρ i → Prog ι ρ α} {r : ρ i}

theorem owes_update (h : p.Will adm hit) : Owes (Function.update tasks t p) adm hit :=
  ⟨t, by rwa [Function.update_self]⟩

/-- A task that starts a program had none to finish. -/
theorem Owes.start (h : Owes tasks adm hit) (hidle : tasks t = ret a) :
    Owes (Function.update tasks t p) adm hit := by
  obtain ⟨t', hwill⟩ := h
  refine ⟨t', ?_⟩
  rw [Function.update_of_ne]
  · exact hwill
  · rintro rfl
    rw [hidle] at hwill
    exact hwill

/-- What is owed is still owed after an operation, unless that was it. -/
theorem Owes.perform (h : Owes tasks adm hit) (hprog : tasks t = op i k) (hadm : adm i r)
    (hmiss : ¬ hit i) : Owes (Function.update tasks t (k r)) adm hit := by
  obtain ⟨t', hwill⟩ := h
  by_cases he : t' = t
  · subst he
    rw [hprog] at hwill
    exact owes_update ((hwill.resolve_left hmiss) r hadm)
  · exact ⟨t', by rwa [Function.update_of_ne he]⟩

end Owes

end Prog

end CloudGame.Lib
