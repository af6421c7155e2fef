import Mathlib.Algebra.Group.Nat.Defs
import Mathlib.Data.List.TakeWhile

/-!
# Text operations of JavaScript

`startsWith`, `split`, `replace` of a text by the empty text, and `Number.parseInt` in base ten, by
their documented behaviour.  Numbers are doubles: `roundToDouble` is the one that is nearest to a
natural number, or nothing when that is infinite.

* `parseInt_toString`: decimal digits are read back.
-/

namespace CloudGame.Lib.Js

def startsWith (s pre : String) : Bool := pre.toList.isPrefixOf s.toList

/-- `split` at every `sep`. -/
def split (s : String) (sep : Char) : List String := (s.toList.splitOn sep).map String.ofList

/-- The characters without the first occurrence of `pattern`. -/
def removeFirst (pattern : List Char) : List Char → List Char
  | [] => []
  | c :: cs =>
    if pattern.isPrefixOf (c :: cs) then (c :: cs).drop pattern.length
    else c :: removeFirst pattern cs

/-- `s.replace(pattern, "")`. -/
def remove (s pattern : String) : String := String.ofList (removeFirst pattern.toList s.toList)

/-- White space and line terminators. -/
def isSpace (c : Char) : Bool :=
  let n := c.toNat
  (0x9 ≤ n && n ≤ 0xD) || n == 0x20 || n == 0xA0 || n == 0x1680 || (0x2000 ≤ n && n ≤ 0x200A) ||
    n == 0x2028 || n == 0x2029 || n == 0x202F || n == 0x205F || n == 0x3000 || n == 0xFEFF

/-- The nearest double, ties to even. -/
def roundToDouble (n : Nat) : Option Nat :=
  if n < 2 ^ 53 then some n
  else
    let unit := 2 ^ (n.log2 - 52)
    let q := n / unit
    let r := n % unit
    let q := if 2 * r < unit ∨ (2 * r = unit ∧ q % 2 = 0) then q else q + 1
    if q * unit < 2 ^ 1024 then some (q * unit) else none

/-- The digits that text begins with, as a number. -/
def parseDigits (cs : List Char) : Option Nat :=
  let digits := cs.takeWhile Char.isDigit
  if digits = [] then none else roundToDouble (Nat.ofDigitChars 10 digits 0)

/-- `Number.parseInt(s, 10)` when that is finite. -/
def parseInt (s : String) : Option Int :=
  match s.toList.dropWhile isSpace with
  | '-' :: cs => (parseDigits cs).map fun n => -(n : Int)
  | '+' :: cs => (parseDigits cs).map Int.ofNat
  | cs => (parseDigits cs).map Int.ofNat

theorem roundToDouble_eq {n : Nat} (h : n < 2 ^ 53) : roundToDouble n = some n := if_pos h

/-- Text that begins with `pre` is `pre` and the rest. -/
theorem removeFirst_append {pre : List Char} (hne : pre ≠ []) (cs : List Char) :
    removeFirst pre (pre ++ cs) = cs := by
  cases pre with
  | nil => exact absurd rfl hne
  | cons p pre =>
    have hpre : (p :: pre).isPrefixOf (p :: pre ++ cs) = true :=
      List.isPrefixOf_iff_prefix.mpr (List.prefix_append _ _)
    rw [List.cons_append] at hpre ⊢
    rw [removeFirst, if_pos hpre]
    exact List.drop_left

theorem remove_append {pre : String} (hne : pre ≠ "") (s : String) : remove (pre ++ s) pre = s := by
  have hne' : pre.toList ≠ [] := fun h => hne (String.toList_eq_nil_iff.mp h)
  rw [remove, String.toList_append, removeFirst_append hne', String.ofList_toList]

theorem startsWith_append (pre s : String) : startsWith (pre ++ s) pre = true := by
  rw [startsWith, String.toList_append]
  exact List.isPrefixOf_iff_prefix.mpr (List.prefix_append _ _)

/-- A digit is neither white space nor a sign. -/
theorem isDigit_plain {c : Char} (h : c.isDigit = true) :
    isSpace c = false ∧ c ≠ '-' ∧ c ≠ '+' := by
  have hbound : 48 ≤ c.toNat ∧ c.toNat ≤ 57 := Char.isDigit_iff_toNat.mp h
  refine ⟨?_, ?_, ?_⟩
  · simp only [isSpace, Bool.or_eq_false_iff, Bool.and_eq_false_iff, decide_eq_false_iff_not,
      beq_eq_false_iff_ne]
    omega
  · rintro rfl
    exact absurd hbound (by decide)
  · rintro rfl
    exact absurd hbound (by decide)

theorem parseDigits_digits {cs : List Char} (hne : cs ≠ []) (h : ∀ c ∈ cs, c.isDigit = true) :
    parseDigits cs = roundToDouble (Nat.ofDigitChars 10 cs 0) := by
  have htake : cs.takeWhile Char.isDigit = cs := List.takeWhile_eq_self_iff.mpr h
  unfold parseDigits
  rw [htake]
  exact if_neg hne

theorem parseInt_digits {s : String} (hne : s.toList ≠ []) (h : ∀ c ∈ s.toList, c.isDigit = true) :
    parseInt s = (roundToDouble (Nat.ofDigitChars 10 s.toList 0)).map Int.ofNat := by
  have hdigits := parseDigits_digits hne h
  unfold parseInt
  cases hs : s.toList with
  | nil => exact absurd hs hne
  | cons c cs =>
    obtain ⟨hspace, hminus, hplus⟩ := isDigit_plain (h c (by rw [hs]; exact List.mem_cons_self))
    rw [hs] at hdigits
    rw [List.dropWhile_cons_of_neg (by simp [hspace]), ← hdigits]
    split
    · next heq =>
      cases heq
      exact absurd rfl hminus
    · next heq =>
      cases heq
      exact absurd rfl hplus
    · rfl

/-- **Decimal digits are read back.** -/
theorem parseInt_toString {n : Nat} (h : n < 2 ^ 53) : parseInt (toString n) = some (n : Int) := by
  have hlist : (toString n).toList = Nat.toDigits 10 n := by
    rw [Nat.toString_eq_ofList_toDigits, String.toList_ofList]
  have hdigit : ∀ c ∈ (toString n).toList, c.isDigit = true := fun c hc =>
    Nat.isDigit_of_mem_toDigits (by decide) (by decide) (hlist ▸ hc)
  have hne : (toString n).toList ≠ [] := hlist ▸ Nat.toDigits_ne_nil
  rw [parseInt_digits hne hdigit, hlist, Nat.ofDigitChars_ten_toDigits, roundToDouble_eq h]
  rfl

end CloudGame.Lib.Js
