import Mathlib.Algebra.Group.Nat.Defs
import Mathlib.Data.List.Nodup
import Mathlib.Data.List.Perm.Subperm
import Mathlib.Data.Nat.Find

/-!
# Numbers as names, and the search for a free one

A number is written as a name of `n` letters by its `n` lowest digits (`fixedDigits`), each digit by
a letter of its own.  Main results: two numbers have the same name exactly if they agree modulo
`b ^ n` (`map_fixedDigits_eq_iff`), numerals of any length are those of one number only
(`toDigits_inj`), and of `n` distinct names fewer than `n` of which are taken, one
is the first that is free (`exists_first_notMem`).
-/

namespace CloudGame.Lib

variable {α : Type}

/-! ## Digits -/

/-- The `n` lowest digits of `v` in base `b`, the highest first. -/
def fixedDigits (b : Nat) : Nat → Nat → List Nat
  | 0, _ => []
  | n + 1, v => fixedDigits b n (v / b) ++ [v % b]

theorem length_fixedDigits (b n : Nat) : ∀ v, (fixedDigits b n v).length = n := by
  induction n with
  | zero => intro v; rfl
  | succ n ih => intro v; rw [fixedDigits, List.length_append, ih]; rfl

theorem lt_of_mem_fixedDigits {b : Nat} (hb : 0 < b) (n : Nat) :
    ∀ v, ∀ d ∈ fixedDigits b n v, d < b := by
  induction n with
  | zero => intro v d hd; cases hd
  | succ n ih =>
    intro v d hd
    rcases List.mem_append.mp hd with hd | hd
    · exact ih _ d hd
    · rw [List.mem_singleton.mp hd]
      exact Nat.mod_lt v hb

/-- The digits say the number modulo `b ^ n`, and nothing more. -/
theorem fixedDigits_eq_iff {b : Nat} (hb : 0 < b) (n : Nat) :
    ∀ v w, fixedDigits b n v = fixedDigits b n w ↔ v % b ^ n = w % b ^ n := by
  induction n with
  | zero => intro v w; simp [fixedDigits, Nat.mod_one]
  | succ n ih =>
    intro v w
    have hv := Nat.mod_lt v hb
    have hw := Nat.mod_lt w hb
    have hsplit : v % b ^ (n + 1) = w % b ^ (n + 1) ↔
        v / b % b ^ n = w / b % b ^ n ∧ v % b = w % b := by
      rw [Nat.pow_succ', Nat.mod_mul, Nat.mod_mul]
      constructor
      · intro h
        have hlow : v % b = w % b := by
          have := congrArg (· % b) h
          simpa [Nat.add_mul_mod_self_left, Nat.mod_mod] using this
        rw [hlow] at h
        exact ⟨Nat.eq_of_mul_eq_mul_left hb (Nat.add_left_cancel h), hlow⟩
      · rintro ⟨hhigh, hlow⟩
        rw [hhigh, hlow]
    rw [hsplit, ← ih, fixedDigits, fixedDigits]
    constructor
    · intro h
      obtain ⟨hhigh, hlow⟩ := List.append_inj' h rfl
      exact ⟨hhigh, List.singleton_inj.mp hlow⟩
    · rintro ⟨hhigh, hlow⟩
      rw [hhigh, hlow]

/-- **A name is the number modulo `b ^ n`**, when distinct digits have distinct letters. -/
theorem map_fixedDigits_eq_iff {b : Nat} (hb : 0 < b) {letter : Nat → α}
    (hletter : ∀ d < b, ∀ e < b, letter d = letter e → d = e) (n v w : Nat) :
    (fixedDigits b n v).map letter = (fixedDigits b n w).map letter ↔
      v % b ^ n = w % b ^ n := by
  rw [← fixedDigits_eq_iff hb]
  constructor
  · intro h
    refine List.ext_getElem (by rw [length_fixedDigits, length_fixedDigits]) ?_
    intro i hi hi'
    have hat : ((fixedDigits b n v).map letter)[i]? = ((fixedDigits b n w).map letter)[i]? := by
      rw [h]
    rw [List.getElem?_map, List.getElem?_map, List.getElem?_eq_getElem hi,
      List.getElem?_eq_getElem hi'] at hat
    exact hletter _ (lt_of_mem_fixedDigits hb n v _ (List.getElem_mem hi)) _
      (lt_of_mem_fixedDigits hb n w _ (List.getElem_mem hi')) (Option.some.inj hat)
  · exact fun h => congrArg _ h

/-! ## Numerals -/

/-- Every letter of a numeral is that of a digit. -/
theorem mem_toDigits {b : Nat} (hb : 1 < b) {c : Char} :
    ∀ {n : Nat}, c ∈ Nat.toDigits b n → ∃ d < b, c = Nat.digitChar d := by
  intro n
  induction n using Nat.strongRecOn with
  | ind n ih =>
    intro hc
    rw [Nat.toDigits_eq_if hb] at hc
    split at hc
    · next hn => exact ⟨n, hn, List.mem_singleton.mp hc⟩
    · next hn =>
      rcases List.mem_append.mp hc with hc | hc
      · exact ih (n / b) (Nat.div_lt_self (by omega) hb) hc
      · exact ⟨n % b, Nat.mod_lt n (by omega), List.mem_singleton.mp hc⟩

theorem digitChar_inj : ∀ d < 16, ∀ e < 16, Nat.digitChar d = Nat.digitChar e → d = e := by
  decide

/-- **A numeral says its number**, in a base with letters of their own for the digits. -/
theorem toDigits_inj {b : Nat} (hb : 1 < b) (hletters : b ≤ 16) :
    ∀ {n m : Nat}, Nat.toDigits b n = Nat.toDigits b m → n = m := by
  intro n
  induction n using Nat.strongRecOn with
  | ind n ih =>
    intro m h
    have hlonger : ∀ {k : Nat} {c d : Char}, Nat.toDigits b k ++ [c] ≠ [d] := by
      intro k c d heq
      exact Nat.toDigits_ne_nil (List.append_inj' (show _ ++ [c] = [] ++ [d] from heq) rfl).1
    rw [Nat.toDigits_eq_if hb (n := n), Nat.toDigits_eq_if hb (n := m)] at h
    have hn := Nat.mod_lt n (show b > 0 by omega)
    have hm := Nat.mod_lt m (show b > 0 by omega)
    split at h
    · next hnb =>
      split at h
      · next hmb =>
        exact digitChar_inj n (by omega) m (by omega) (List.singleton_inj.mp h)
      · exact absurd h.symm hlonger
    · next hnb =>
      split at h
      · exact absurd h hlonger
      · obtain ⟨hhigh, hlow⟩ := List.append_inj' h rfl
        have hdiv := ih (n / b) (Nat.div_lt_self (by omega) hb) hhigh
        have hmod := digitChar_inj _ (by omega) _ (by omega) (List.singleton_inj.mp hlow)
        calc n = b * (n / b) + n % b := (Nat.div_add_mod n b).symm
          _ = b * (m / b) + m % b := by rw [hdiv, hmod]
          _ = m := Nat.div_add_mod m b

/-! ## The search -/

/-- **Of `n` distinct names fewer than `n` of which are taken, one is the first that is free.** -/
theorem exists_first_notMem {f : Nat → α} {n : Nat} {taken : List α}
    (hinj : ∀ i < n, ∀ j < n, f i = f j → i = j) (hfew : taken.length < n) :
    ∃ i < n, f i ∉ taken ∧ ∀ j < i, f j ∈ taken := by
  classical
  have hfree : ∃ i, i < n ∧ f i ∉ taken := by
    by_contra hnone
    have hsub : (List.range n).map f ⊆ taken := by
      intro a ha
      obtain ⟨i, hi, rfl⟩ := List.mem_map.mp ha
      by_contra hfi
      exact hnone ⟨i, List.mem_range.mp hi, hfi⟩
    have hnodup : ((List.range n).map f).Nodup := by
      refine List.Nodup.map_on ?_ List.nodup_range
      intro i hi j hj
      exact hinj i (List.mem_range.mp hi) j (List.mem_range.mp hj)
    have hlen := (List.subperm_of_subset hnodup hsub).length_le
    rw [List.length_map, List.length_range] at hlen
    omega
  obtain ⟨hlt, hnot⟩ := Nat.find_spec hfree
  refine ⟨Nat.find hfree, hlt, hnot, ?_⟩
  intro j hj
  by_contra hfj
  exact Nat.find_min hfree hj ⟨by omega, hfj⟩

end CloudGame.Lib
