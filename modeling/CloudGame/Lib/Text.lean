import Mathlib.Algebra.Group.Nat.Defs
import Mathlib.Data.List.DropRight

/-!
# Text operations of the Rust standard library

`trim`, `splitWhitespace` and `parseUsize` on strings, by their documented behaviour: white space
is the Unicode property `White_Space`, and a `usize` has 64 bits.  Case mapping follows tables of
the Unicode database; `CaseMap` takes the two functions as parameters, since nothing here depends
on what they map a character to.
-/

namespace CloudGame.Lib

variable {α : Type}

/-- The characters with the property `White_Space`. -/
def isWhitespace (c : Char) : Bool :=
  let n := c.toNat
  (0x9 ≤ n && n ≤ 0xD) || n == 0x20 || n == 0x85 || n == 0xA0 || n == 0x1680 ||
    (0x2000 ≤ n && n ≤ 0x200A) || n == 0x2028 || n == 0x2029 || n == 0x202F || n == 0x205F ||
    n == 0x3000

def trim (s : String) : String :=
  String.ofList ((s.toList.dropWhile isWhitespace).reverse.dropWhile isWhitespace).reverse

/-- Text without white space is its own trimmed form. -/
theorem trim_eq_self {s : String} (h : ∀ c ∈ s.toList, isWhitespace c = false) : trim s = s := by
  have hkeep : ∀ cs : List Char, (∀ c ∈ cs, isWhitespace c = false) →
      cs.dropWhile isWhitespace = cs := by
    intro cs hcs
    cases cs with
    | nil => rfl
    | cons c cs => rw [List.dropWhile_cons_of_neg (by simp [hcs c List.mem_cons_self])]
  unfold trim
  rw [hkeep _ h, hkeep _ fun c hc => h c (List.mem_reverse.mp hc), List.reverse_reverse,
    String.ofList_toList]

theorem trim_trim (s : String) : trim (trim s) = trim s := by
  let cs := s.toList.dropWhile isWhitespace
  have htrim : trim s = String.ofList (cs.rdropWhile isWhitespace) := rfl
  have hhead : (cs.rdropWhile isWhitespace).dropWhile isWhitespace =
      cs.rdropWhile isWhitespace := by
    refine List.dropWhile_eq_self_iff.mpr fun hlen => ?_
    -- the first character is that of the text without leading white space
    have hpre := List.rdropWhile_prefix isWhitespace (l := cs)
    have hcs : 0 < cs.length := Nat.lt_of_lt_of_le hlen hpre.length_le
    have hget := hpre.getElem hlen
    have hfirst := List.dropWhile_get_zero_not isWhitespace s.toList hcs
    simp only [List.get_eq_getElem] at hfirst ⊢
    rw [hget]
    exact hfirst
  calc trim (trim s)
      = String.ofList (((cs.rdropWhile isWhitespace).dropWhile isWhitespace).rdropWhile
          isWhitespace) := by rw [htrim, trim, String.toList_ofList]; rfl
    _ = trim s := by rw [hhead, List.rdropWhile_idempotent, htrim]

/-- Text that neither begins nor ends with white space is its own trimmed form. -/
theorem trim_eq_self_of_ends {s : String} {c d : Char} (hc : s.toList.head? = some c)
    (hd : s.toList.getLast? = some d) (hcblank : isWhitespace c = false)
    (hdblank : isWhitespace d = false) : trim s = s := by
  have hhead : s.toList.dropWhile isWhitespace = s.toList := by
    cases hs : s.toList with
    | nil => rfl
    | cons c' cs =>
      rw [hs] at hc
      cases hc
      rw [List.dropWhile_cons_of_neg (by simp [hcblank])]
  have hlast : s.toList.reverse.dropWhile isWhitespace = s.toList.reverse := by
    rw [← List.head?_reverse] at hd
    cases hs : s.toList.reverse with
    | nil => rfl
    | cons d' ds =>
      rw [hs] at hd
      cases hd
      rw [List.dropWhile_cons_of_neg (by simp [hdblank])]
  rw [trim, hhead, hlast, List.reverse_reverse, String.ofList_toList]

/-- What text begins with is kept up to the last character that is no white space. -/
theorem trim_cons_cons {s : String} {c d : Char} {cs : List Char} (hs : s.toList = c :: d :: cs)
    (hc : isWhitespace c = false) (hd : isWhitespace d = false) :
    ∃ ds, (trim s).toList = c :: d :: ds := by
  have hhead : s.toList.dropWhile isWhitespace = c :: d :: cs := by
    rw [hs, List.dropWhile_cons_of_neg (by simp [hc])]
  have hkeep : [d, c].dropWhile isWhitespace = [d, c] :=
    List.dropWhile_cons_of_neg (by simp [hd])
  refine ⟨(cs.reverse.dropWhile isWhitespace).reverse, ?_⟩
  rw [trim, hhead, String.toList_ofList, List.reverse_cons, List.reverse_cons, List.append_assoc,
    List.singleton_append, List.dropWhile_append]
  split
  · next hempty =>
    rw [List.isEmpty_iff.mp hempty, hkeep]
    rfl
  · rw [List.reverse_append]
    rfl

/-! ## Words -/

/-- `word` stands in `cs` between two separators, or up to an end, and holds none. -/
def IsWord (sep : α → Bool) (cs word : List α) : Prop :=
  (∀ c ∈ word, sep c = false) ∧
    ∃ pre post, cs = pre ++ (word ++ post) ∧ (∀ c, pre.getLast? = some c → sep c = true) ∧
      ∀ c, post.head? = some c → sep c = true

theorem eq_nil_of_getLast?_sep {sep : α → Bool} {cs : List α} (h : ∀ c ∈ cs, sep c = false)
    (hlast : ∀ c, cs.getLast? = some c → sep c = true) : cs = [] := by
  refine List.getLast?_eq_none_iff.mp (Option.eq_none_iff_forall_ne_some.mpr fun c hc => ?_)
  have hsep := hlast c hc
  rw [h c (List.mem_of_getLast? hc)] at hsep
  cases hsep

theorem eq_nil_of_head?_sep {sep : α → Bool} {cs : List α} (h : ∀ c ∈ cs, sep c = false)
    (hhead : ∀ c, cs.head? = some c → sep c = true) : cs = [] := by
  refine List.head?_eq_none_iff.mp (Option.eq_none_iff_forall_ne_some.mpr fun c hc => ?_)
  have hsep := hhead c hc
  rw [h c (List.mem_of_head? hc)] at hsep
  cases hsep

/-- Text without a separator is one word. -/
theorem isWord_iff_eq {sep : α → Bool} {cs word : List α} (h : ∀ c ∈ cs, sep c = false) :
    IsWord sep cs word ↔ word = cs := by
  constructor
  · rintro ⟨-, pre, post, rfl, hpre, hpost⟩
    obtain rfl := eq_nil_of_getLast?_sep (fun c hc => h c (by simp [hc])) hpre
    obtain rfl := eq_nil_of_head?_sep (fun c hc => h c (by simp [hc])) hpost
    rw [List.nil_append, List.append_nil]
  · rintro rfl
    exact ⟨h, [], [], by simp, by simp, by simp⟩

/-- The words of a text with a separator: what stands before the first one, and the words after. -/
theorem isWord_append_cons {sep : α → Bool} {xs as word : List α} {c : α}
    (hxs : ∀ x ∈ xs, sep x = false) (hc : sep c = true) :
    IsWord sep (xs ++ c :: as) word ↔ word = xs ∨ IsWord sep as word := by
  constructor
  · rintro ⟨hword, pre, post, heq, hpre, hpost⟩
    rcases List.append_eq_append_iff.mp heq with ⟨rest, hrest, has⟩ | ⟨rest, rfl, has⟩
    · -- the first separator is not past `pre`
      cases rest with
      | nil =>
        left
        rw [List.append_nil] at hrest
        have hnil : xs = [] := eq_nil_of_getLast?_sep hxs (hrest ▸ hpre)
        cases word with
        | nil => exact hnil.symm
        | cons d word =>
          obtain ⟨rfl, -⟩ := List.cons_eq_cons.mp has
          rw [hword c List.mem_cons_self] at hc
          cases hc
      | cons d rest =>
        right
        obtain ⟨rfl, rfl⟩ := List.cons_eq_cons.mp has
        refine ⟨hword, rest, post, rfl, fun d hd => hpre d ?_, hpost⟩
        rw [hrest, List.getLast?_append, List.getLast?_cons, hd]
        rfl
    · -- `pre` ends before it, so nothing stands before the word
      left
      obtain rfl := eq_nil_of_getLast?_sep
        (fun d hd => hxs d (List.mem_append_left _ hd)) hpre
      rw [List.nil_append] at hxs ⊢
      rcases List.append_eq_append_iff.mp has with ⟨more, rfl, hmore⟩ | ⟨more, rfl, hmore⟩
      · cases more with
        | nil => rw [List.append_nil]
        | cons d more =>
          have hsep := hpost d (by rw [hmore]; rfl)
          rw [hxs d (by simp)] at hsep
          cases hsep
      · cases more with
        | nil => rw [List.append_nil]
        | cons d more =>
          obtain ⟨rfl, -⟩ := List.cons_eq_cons.mp hmore
          rw [hword c (by simp)] at hc
          cases hc
  · rintro (rfl | ⟨hword, pre, post, rfl, hpre, hpost⟩)
    · exact ⟨hxs, [], c :: as, rfl, by simp, by simpa using hc⟩
    · refine ⟨hword, xs ++ c :: pre, post, by simp, fun d hd => ?_, hpost⟩
      cases hlast : pre.getLast? with
      | none =>
        rw [List.getLast?_append, List.getLast?_cons, hlast] at hd
        cases hd
        exact hc
      | some e =>
        rw [List.getLast?_append, List.getLast?_cons, hlast] at hd
        cases hd
        exact hpre e hlast

/-- **Splitting at separators gives exactly the words.** -/
theorem mem_splitOnP_iff {sep : α → Bool} {word : List α} :
    ∀ {cs : List α}, word ∈ cs.splitOnP sep ↔ IsWord sep cs word := by
  intro cs
  induction hn : cs.length using Nat.strongRecOn generalizing cs with
  | ind n ih =>
    by_cases hsep : ∀ c ∈ cs, sep c = false
    · rw [List.splitOnP_eq_singleton hsep, List.mem_singleton, isWord_iff_eq hsep]
    · -- the first separator is where the tail begins that has one at its head
      have hspan := List.takeWhile_append_dropWhile (p := fun c => !sep c) (l := cs)
      have hxs : ∀ x ∈ cs.takeWhile fun c => !sep c, sep x = false := fun x hx => by
        simpa using List.mem_takeWhile_imp hx
      cases hdrop : cs.dropWhile fun c => !sep c with
      | nil =>
        rw [hdrop, List.append_nil] at hspan
        exact absurd (hspan ▸ hxs) hsep
      | cons c as =>
        have hc : sep c = true := by
          have := List.head_dropWhile_not (fun c => !sep c) (l := cs) (by rw [hdrop]; simp)
          simpa [hdrop] using this
        have hlt : as.length < n := by
          rw [← hn, ← hspan, hdrop, List.length_append, List.length_cons]
          omega
        rw [← hspan, hdrop, List.splitOnP_append_cons_of_forall_mem hxs c hc, List.mem_cons,
          ih _ hlt rfl, isWord_append_cons hxs hc]

/-- The maximal runs of characters that are not white space. -/
def splitWhitespace (s : String) : List String :=
  (s.toList.splitOnP isWhitespace).filterMap fun w =>
    if w = [] then none else some (String.ofList w)

/-- `str::parse::<usize>`: an optional `+`, then decimal digits, less than `2^64`. -/
def parseUsize (s : String) : Option Nat :=
  let digits := match s.toList with
    | '+' :: rest => rest
    | cs => cs
  if digits ≠ [] ∧ digits.all (fun c => '0' ≤ c && c ≤ '9') then
    let n := digits.foldl (fun n c => 10 * n + (c.toNat - '0'.toNat)) 0
    if n < 2 ^ 64 then some n else none
  else none

/-- `str::to_lowercase` and `str::to_uppercase`. -/
structure CaseMap where
  toLowercase : String → String
  toUppercase : String → String

/-- The case map of ASCII letters, which agrees with the Unicode one on ASCII text. -/
def CaseMap.ascii : CaseMap where
  toLowercase s := String.ofList (s.toList.map Char.toLower)
  toUppercase s := String.ofList (s.toList.map Char.toUpper)

end CloudGame.Lib
