import Mathlib.Data.Finset.Card
import Mathlib.Logic.Function.Basic

/-!
# Counting the places that have a property

`Tally f p n` says that exactly `n` of the values of `f` satisfy `p`.  Its rules say what becomes of
the number when one value is replaced.
-/

namespace CloudGame.Lib

variable {ι α : Type} [DecidableEq ι]

def Tally (f : ι → α) (p : α → Prop) (n : Nat) : Prop :=
  ∃ F : Finset ι, F.card = n ∧ ∀ i, i ∈ F ↔ p (f i)

section Rules

variable {f : ι → α} {p : α → Prop} {n : Nat} {i : ι} {a : α}

omit [DecidableEq ι] in
theorem tally_none (h : ∀ i, ¬ p (f i)) : Tally f p 0 :=
  ⟨∅, rfl, fun i => iff_of_false (Finset.notMem_empty i) (h i)⟩

omit [DecidableEq ι] in
theorem Tally.pos (h : Tally f p n) (hi : p (f i)) : 0 < n := by
  obtain ⟨F, rfl, hmem⟩ := h
  exact Finset.card_pos.mpr ⟨i, (hmem i).mpr hi⟩

omit [DecidableEq ι] in
theorem Tally.eq_zero (h : Tally f p n) (hnone : ∀ i, ¬ p (f i)) : n = 0 := by
  obtain ⟨F, rfl, hmem⟩ := h
  refine Finset.card_eq_zero.mpr (Finset.eq_empty_of_forall_notMem fun i hi => ?_)
  exact hnone i ((hmem i).mp hi)

theorem Tally.keeps (h : Tally f p n) (hsame : p (f i) ↔ p a) :
    Tally (Function.update f i a) p n := by
  obtain ⟨F, hcard, hmem⟩ := h
  refine ⟨F, hcard, fun j => ?_⟩
  by_cases hj : j = i
  · subst hj
    rw [Function.update_self, hmem, hsame]
  · rw [Function.update_of_ne hj, hmem]

theorem Tally.enters (h : Tally f p n) (hnot : ¬ p (f i)) (ha : p a) :
    Tally (Function.update f i a) p (n + 1) := by
  obtain ⟨F, rfl, hmem⟩ := h
  refine ⟨insert i F, Finset.card_insert_of_notMem fun hi => hnot ((hmem i).mp hi), fun j => ?_⟩
  by_cases hj : j = i
  · subst hj
    rw [Function.update_self]
    exact iff_of_true (Finset.mem_insert_self j F) ha
  · rw [Function.update_of_ne hj, Finset.mem_insert, or_iff_right hj, hmem]

theorem Tally.leaves (h : Tally f p (n + 1)) (hi : p (f i)) (ha : ¬ p a) :
    Tally (Function.update f i a) p n := by
  obtain ⟨F, hcard, hmem⟩ := h
  have hcard' : (F.erase i).card = n := by
    rw [Finset.card_erase_of_mem ((hmem i).mpr hi), hcard, Nat.add_sub_cancel]
  refine ⟨F.erase i, hcard', fun j => ?_⟩
  by_cases hj : j = i
  · subst hj
    rw [Function.update_self]
    exact iff_of_false (Finset.notMem_erase j F) ha
  · rw [Function.update_of_ne hj, Finset.mem_erase, and_iff_right hj, hmem]

end Rules

end CloudGame.Lib
