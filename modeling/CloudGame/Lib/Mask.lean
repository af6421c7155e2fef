import Mathlib.Data.List.Infix
import Mathlib.Data.List.TakeWhile

/-!
# Masking the values of a field

In text over any alphabet a value follows a separator and the name of its field, and reaches up to
the next stop.  `mask` copies the text through `f` and puts `shown` in place of every name with its
value.

* `mask_value_irrelevant`: what is shown does not depend on the value of a field.
* `Masked`: two texts that differ in values alone; `masked_mask` says that `mask` changes no more.
* `AllMasked`: every value is the placeholder; `mask_eq_self` leaves such text as it is, and
  `allMasked_mask` says that `mask` makes it so.
-/

namespace CloudGame.Lib

/-- The name holds neither separators nor stops. -/
structure FieldFormat (α : Type) where
  isSep : α → Bool
  isStop : α → Bool
  name : List α
  plain : ∀ a ∈ name, isSep a = false ∧ isStop a = false

namespace FieldFormat

variable {α β : Type} [DecidableEq α] (F : FieldFormat α)

/-- What follows a value. -/
def afterValue (xs : List α) : List α := xs.dropWhile fun a => !F.isStop a

omit [DecidableEq α] in
theorem length_afterValue_le (xs : List α) : (F.afterValue xs).length ≤ xs.length :=
  (List.dropWhile_suffix _).length_le

def mask (f : α → β) (shown : List β) : List α → List β
  | [] => []
  | x :: xs =>
    if F.isSep x ∧ F.name.isPrefixOf xs then
      f x :: (shown ++ mask f shown (F.afterValue (xs.drop F.name.length)))
    else f x :: mask f shown xs
termination_by xs => xs.length
decreasing_by
  · have hle := F.length_afterValue_le (xs.drop F.name.length)
    rw [List.length_drop] at hle
    rw [List.length_cons]
    omega
  · exact Nat.lt_succ_self _

section Equations

variable {F} {f : α → β} {shown : List β} {x : α} {xs : List α}

@[simp] theorem mask_nil : F.mask f shown [] = [] := by rw [mask]

theorem mask_value (hsep : F.isSep x = true) :
    F.mask f shown (x :: (F.name ++ xs)) = f x :: (shown ++ F.mask f shown (F.afterValue xs)) := by
  have hmatch : F.isSep x = true ∧ F.name.isPrefixOf (F.name ++ xs) = true :=
    ⟨hsep, List.isPrefixOf_iff_prefix.mpr (List.prefix_append _ _)⟩
  rw [mask, if_pos hmatch, List.drop_left]

theorem mask_copy (hnot : F.isSep x = true → ¬ F.name <+: xs) :
    F.mask f shown (x :: xs) = f x :: F.mask f shown xs := by
  rw [mask, if_neg]
  rintro ⟨hsep, hstarts⟩
  exact hnot hsep (List.isPrefixOf_iff_prefix.mp hstarts)

/-- Masking keeps the first element. -/
theorem mask_cons : ∃ ys, F.mask f shown (x :: xs) = f x :: ys := by
  rw [mask]
  split
  · exact ⟨_, rfl⟩
  · exact ⟨_, rfl⟩

end Equations

/-- The recursion of `mask`: behind a field go on after its value, otherwise behind the element. -/
@[elab_as_elim]
theorem fieldInduction {motive : List α → Prop} (nil : motive [])
    (field : ∀ x xs, F.isSep x = true → motive (F.afterValue xs) → motive (x :: (F.name ++ xs)))
    (copy : ∀ x xs, (F.isSep x = true → ¬ F.name <+: xs) → motive xs → motive (x :: xs))
    (xs : List α) : motive xs := by
  induction hlen : xs.length using Nat.strong_induction_on generalizing xs with
  | _ n ih =>
    subst hlen
    cases xs with
    | nil => exact nil
    | cons x xs =>
      by_cases hx : F.isSep x = true ∧ F.name <+: xs
      · obtain ⟨hsep, ys, rfl⟩ := hx
        have hle := F.length_afterValue_le ys
        exact field x ys hsep (ih _ (by simp; omega) _ rfl)
      · exact copy x xs (fun hsep hstarts => hx ⟨hsep, hstarts⟩) (ih _ (by simp) xs rfl)

/-! ## The value does not matter -/

/-- The text is at its end or at a stop. -/
def AtStop (xs : List α) : Prop := ∀ x ∈ xs.head?, F.isStop x = true

section Values

variable {F} {value rest : List α}

omit [DecidableEq α] in
theorem afterValue_append (hvalue : ∀ a ∈ value, F.isStop a = false) :
    F.afterValue (value ++ rest) = F.afterValue rest :=
  List.dropWhile_append_of_pos fun a ha => by rw [hvalue a ha]; rfl

omit [DecidableEq α] in
theorem afterValue_of_atStop (h : F.AtStop rest) : F.afterValue rest = rest := by
  cases rest with
  | nil => rfl
  | cons x xs =>
    have hx : F.isStop x = true := h x rfl
    exact List.dropWhile_cons_of_neg (by simp [hx])

omit [DecidableEq α] in
theorem atStop_afterValue (xs : List α) : F.AtStop (F.afterValue xs) := by
  intro x hx
  have hnot := List.head?_dropWhile_not (fun a => !F.isStop a) xs
  unfold afterValue at hx
  rw [Option.mem_def.mp hx] at hnot
  simpa using hnot

omit [DecidableEq α] in
/-- A name that would reach a separator does not match. -/
theorem name_prefix_append_sep {s : α} {xs tail : List α} (hsep : F.isSep s = true) :
    F.name <+: xs ++ s :: tail ↔ F.name <+: xs := by
  refine ⟨fun h => ?_, fun h => h.trans (List.prefix_append _ _)⟩
  by_cases hle : F.name.length ≤ xs.length
  · exact (List.isPrefix_append_of_length hle).mp h
  · exfalso
    have hlong : xs ++ [s] <+: F.name := by
      refine List.prefix_of_prefix_length_le ?_ h (by simp; omega)
      exact ⟨tail, by simp⟩
    have hmem : s ∈ F.name := hlong.subset (by simp)
    rw [(F.plain s hmem).1] at hsep
    cases hsep

end Values

omit [DecidableEq α] in
/-- What follows the value that `xs` begins with, when a field comes next. -/
theorem afterValue_append_field {s : α} {xs value rest : List α}
    (hvalue : ∀ a ∈ value, F.isStop a = false) (hrest : F.AtStop rest) :
    F.afterValue (xs ++ s :: (F.name ++ (value ++ rest))) =
      if (F.afterValue xs) = [] ∧ F.isStop s = false then rest
      else F.afterValue xs ++ s :: (F.name ++ (value ++ rest)) := by
  have hname : ∀ a ∈ F.name, F.isStop a = false := fun a ha => (F.plain a ha).2
  rw [afterValue, List.dropWhile_append]
  show (if (F.afterValue xs).isEmpty then _ else _) = _
  by_cases hempty : F.afterValue xs = []
  · rw [hempty, List.isEmpty_nil, if_pos rfl]
    cases hs : F.isStop s with
    | true =>
      rw [if_neg (by simp)]
      exact List.dropWhile_cons_of_neg (by simp [hs])
    | false =>
      rw [if_pos ⟨rfl, rfl⟩, List.dropWhile_cons_of_pos (by simp [hs])]
      show F.afterValue _ = rest
      rw [afterValue_append hname, afterValue_append hvalue, afterValue_of_atStop hrest]
  · rw [if_neg (by simpa using hempty), if_neg fun h => hempty h.1]
    rfl

/-- **Two runs.**  Whatever stands before the field, the value of it does not show. -/
theorem mask_value_irrelevant {f : α → β} {shown : List β} {s : α} {value₁ value₂ rest : List α}
    (hsep : F.isSep s = true) (hvalue₁ : ∀ a ∈ value₁, F.isStop a = false)
    (hvalue₂ : ∀ a ∈ value₂, F.isStop a = false) (hrest : F.AtStop rest) (before : List α) :
    F.mask f shown (before ++ s :: (F.name ++ (value₁ ++ rest))) =
      F.mask f shown (before ++ s :: (F.name ++ (value₂ ++ rest))) := by
  induction before using F.fieldInduction with
  | nil =>
    rw [List.nil_append, List.nil_append, mask_value hsep, mask_value hsep,
      afterValue_append hvalue₁, afterValue_append hvalue₂]
  | field x ys hxsep ih =>
    -- the text before the field has a field of its own, whose value may reach into this one
    simp only [List.cons_append, List.append_assoc]
    rw [mask_value hxsep, mask_value hxsep, F.afterValue_append_field hvalue₁ hrest,
      F.afterValue_append_field hvalue₂ hrest]
    split
    · rfl
    · rw [ih]
  | copy x xs hnot ih =>
    have hnot' : ∀ tail, F.isSep x = true → ¬ F.name <+: xs ++ s :: tail :=
      fun tail hxsep hstarts => hnot hxsep ((name_prefix_append_sep hsep).mp hstarts)
    rw [List.cons_append, List.cons_append, mask_copy (hnot' _), mask_copy (hnot' _), ih]

/-! ## Nothing but values changes -/

/-- The second text is the first with the placeholder in place of some values. -/
inductive Masked (hidden : List α) : List α → List α → Prop
  | nil : Masked hidden [] []
  | copy (x : α) {xs ys : List α} (h : Masked hidden xs ys) : Masked hidden (x :: xs) (x :: ys)
  | value (s : α) (value : List α) {rest ys : List α} (hsep : F.isSep s = true)
    (hvalue : ∀ a ∈ value, F.isStop a = false) (hrest : F.AtStop rest)
    (h : Masked hidden rest ys) :
    Masked hidden (s :: (F.name ++ (value ++ rest))) (s :: (F.name ++ (hidden ++ ys)))

/-- Every value is the placeholder. -/
def AllMasked (hidden xs : List α) : Prop :=
  ∀ before s after, xs = before ++ s :: (F.name ++ after) → F.isSep s = true →
    ∃ rest, after = hidden ++ rest ∧ F.AtStop rest

section Placeholder

variable {F} {hidden : List α}

theorem masked_mask (xs : List α) : F.Masked hidden xs (F.mask id (F.name ++ hidden) xs) := by
  induction xs using F.fieldInduction with
  | nil =>
    rw [mask_nil]
    exact .nil
  | field x ys hsep ih =>
    have hsplit : ys = ys.takeWhile (fun a => !F.isStop a) ++ F.afterValue ys :=
      List.takeWhile_append_dropWhile.symm
    have hvalue : ∀ a ∈ ys.takeWhile (fun a => !F.isStop a), F.isStop a = false :=
      fun a ha => by simpa using List.mem_takeWhile_imp ha
    have hmasked := Masked.value x _ hsep hvalue (atStop_afterValue ys) ih
    rw [← hsplit] at hmasked
    rw [mask_value hsep, List.append_assoc]
    exact hmasked
  | copy x xs hnot ih =>
    rw [mask_copy hnot]
    exact .copy x ih

omit [DecidableEq α] in
/-- Masking brings in nothing but the placeholder. -/
theorem Masked.mem {xs ys : List α} (h : F.Masked hidden xs ys) {a : α} (ha : a ∈ ys) :
    a ∈ xs ∨ a ∈ hidden := by
  induction h with
  | nil => exact .inl ha
  | copy x h ih =>
    rcases List.mem_cons.mp ha with rfl | ha
    · exact .inl (List.mem_cons_self ..)
    · exact (ih ha).imp_left (List.mem_cons_of_mem _)
  | value s value hsep hvalue hrest h ih =>
    simp only [List.mem_cons, List.mem_append] at ha ⊢
    rcases ha with rfl | ha | ha | ha
    · exact .inl (.inl rfl)
    · exact .inl (.inr (.inl ha))
    · exact .inr ha
    · exact (ih ha).imp_left fun hmem => .inr (.inr (.inr hmem))

omit [DecidableEq α] in
theorem AllMasked.tail {x : α} {xs : List α} (h : F.AllMasked hidden (x :: xs)) :
    F.AllMasked hidden xs :=
  fun before s after he hsep => h (x :: before) s after (congrArg (x :: ·) he) hsep

omit [DecidableEq α] in
theorem AllMasked.drop {ys xs : List α} (h : F.AllMasked hidden (ys ++ xs)) :
    F.AllMasked hidden xs := by
  induction ys with
  | nil => exact h
  | cons y ys ih => exact ih h.tail

omit [DecidableEq α] in
/-- Behind a field whose value is masked. -/
theorem AllMasked.afterValue (hhidden : ∀ a ∈ hidden, F.isStop a = false) {s : α} {after : List α}
    (h : F.AllMasked hidden (s :: (F.name ++ after))) (hsep : F.isSep s = true) :
    after = hidden ++ F.afterValue after ∧ F.AllMasked hidden (F.afterValue after) := by
  obtain ⟨rest, rfl, hrest⟩ := h [] s after rfl hsep
  rw [afterValue_append hhidden, afterValue_of_atStop hrest]
  have hall := h.tail
  rw [← List.append_assoc] at hall
  exact ⟨rfl, hall.drop⟩

/-- Text whose values are all masked stays as it is. -/
theorem mask_eq_self (hhidden : ∀ a ∈ hidden, F.isStop a = false) {xs : List α}
    (h : F.AllMasked hidden xs) : F.mask id (F.name ++ hidden) xs = xs := by
  induction xs using F.fieldInduction with
  | nil => exact mask_nil
  | field x ys hsep ih =>
    obtain ⟨hys, hall⟩ := h.afterValue hhidden hsep
    rw [mask_value hsep, ih hall, List.append_assoc, ← hys]
    rfl
  | copy x xs hnot ih =>
    rw [mask_copy hnot, ih h.tail]
    rfl

/-- A name that stands in the masked text stands in the text. -/
theorem prefix_of_prefix_mask {shown : List α} : ∀ {name xs : List α},
    (∀ a ∈ name, F.isSep a = false) → name <+: F.mask id shown xs → name <+: xs
  | [], xs, _, _ => List.nil_prefix
  | a :: name, [], _, h => by rwa [mask_nil] at h
  | a :: name, x :: xs, hplain, h => by
    obtain ⟨ys, hys⟩ : ∃ ys, F.mask id shown (x :: xs) = id x :: ys := mask_cons
    obtain rfl : a = x := by
      rw [hys] at h
      exact (List.cons_prefix_cons.mp h).1
    have hcopy : F.isSep a = true → ¬ F.name <+: xs := by
      rw [hplain a (List.mem_cons_self ..)]
      exact nofun
    rw [mask_copy hcopy] at h
    have hrest := prefix_of_prefix_mask (fun b hb => hplain b (List.mem_cons_of_mem _ hb))
      (List.cons_prefix_cons.mp h).2
    exact List.cons_prefix_cons.mpr ⟨rfl, hrest⟩

omit [DecidableEq α] in
/-- A separator is found behind text that holds none. -/
theorem append_eq_append_sep {plain ys before after : List α} {s : α}
    (hplain : ∀ a ∈ plain, F.isSep a = false) (hsep : F.isSep s = true)
    (h : plain ++ ys = before ++ s :: after) : ∃ before', ys = before' ++ s :: after := by
  rcases List.append_eq_append_iff.mp h with ⟨before', -, hys⟩ | ⟨mid, hplain', hmid⟩
  · exact ⟨before', hys⟩
  · cases mid with
    | nil => exact ⟨[], hmid.symm⟩
    | cons m mid =>
      obtain rfl : s = m := (List.cons.inj hmid).1
      rw [hplain s (by rw [hplain']; simp)] at hsep
      cases hsep

theorem AtStop.mask {shown xs : List α} (h : F.AtStop xs) : F.AtStop (F.mask id shown xs) := by
  cases xs with
  | nil =>
    rw [mask_nil]
    exact nofun
  | cons x xs =>
    obtain ⟨ys, hys⟩ : ∃ ys, F.mask id shown (x :: xs) = id x :: ys := mask_cons
    rw [hys]
    rintro a ⟨⟩
    exact h x rfl

/-- **Masked.**  After `mask` every value is the placeholder. -/
theorem allMasked_mask (hhidden : ∀ a ∈ hidden, F.isSep a = false) (xs : List α) :
    F.AllMasked hidden (F.mask id (F.name ++ hidden) xs) := by
  have hname : ∀ a ∈ F.name, F.isSep a = false := fun a ha => (F.plain a ha).1
  induction xs using F.fieldInduction with
  | nil =>
    intro before s after he hsep
    rw [mask_nil] at he
    cases before <;> cases he
  | field x ys hxsep ih =>
    intro before s after he hsep
    rw [mask_value hxsep] at he
    cases before with
    | nil =>
      obtain ⟨-, hafter⟩ := List.cons.inj he
      rw [List.append_assoc] at hafter
      exact ⟨_, (List.append_cancel_left hafter).symm, (atStop_afterValue ys).mask⟩
    | cons b before =>
      obtain ⟨-, hrest⟩ := List.cons.inj he
      have hplain : ∀ a ∈ F.name ++ hidden, F.isSep a = false := fun a ha =>
        (List.mem_append.mp ha).elim (hname a) (hhidden a)
      obtain ⟨before', he'⟩ := append_eq_append_sep hplain hsep hrest
      exact ih before' s after he' hsep
  | copy x xs hnot ih =>
    intro before s after he hsep
    rw [mask_copy hnot] at he
    cases before with
    | nil =>
      obtain ⟨rfl, hafter⟩ := List.cons.inj he
      have hstarts : F.name <+: F.mask id (F.name ++ hidden) xs := ⟨after, hafter.symm⟩
      exact absurd (prefix_of_prefix_mask hname hstarts) (hnot hsep)
    | cons b before =>
      obtain ⟨-, hrest⟩ := List.cons.inj he
      exact ih before s after hrest hsep

end Placeholder

/-! ## Another alphabet -/

section Map

variable {γ : Type} [DecidableEq γ] {F} {G : FieldFormat γ} {g : γ → α}

omit [DecidableEq α] [DecidableEq γ] in
theorem afterValue_map {xs : List γ} (hstop : ∀ x ∈ xs, F.isStop (g x) = G.isStop x) :
    F.afterValue (xs.map g) = (G.afterValue xs).map g := by
  induction xs with
  | nil => rfl
  | cons x xs ih =>
    have hx := hstop x (List.mem_cons_self ..)
    have hxs := ih fun y hy => hstop y (List.mem_cons_of_mem _ hy)
    unfold afterValue at hxs ⊢
    rw [List.map_cons, List.dropWhile_cons, List.dropWhile_cons, hx, hxs]
    split <;> rfl

/-- Masking commutes with a map that keeps what is a separator, a stop, or the name. -/
theorem mask_map {f : α → β} {f' : γ → β} {shown : List β} {xs : List γ}
    (hf : ∀ x ∈ xs, f (g x) = f' x)
    (hsep : ∀ x ∈ xs, F.isSep (g x) = G.isSep x) (hstop : ∀ x ∈ xs, F.isStop (g x) = G.isStop x)
    (hname : ∀ ys, ys <:+ xs → (F.name <+: ys.map g ↔ G.name <+: ys))
    (hlength : ∀ ys, ys <:+ xs → G.name <+: ys → F.name.length = G.name.length) :
    F.mask f shown (xs.map g) = G.mask f' shown xs := by
  induction xs using G.fieldInduction with
  | nil => rw [List.map_nil, mask_nil, mask_nil]
  | field x ys hxsep ih =>
    have hsuffix : G.afterValue ys <:+ x :: (G.name ++ ys) :=
      ((List.dropWhile_suffix _).trans (List.suffix_append ..)).trans (List.suffix_cons ..)
    have hmem : ∀ y ∈ G.afterValue ys, y ∈ x :: (G.name ++ ys) := fun y hy => hsuffix.subset hy
    have hrest := ih (fun y hy => hf y (hmem y hy)) (fun y hy => hsep y (hmem y hy))
      (fun y hy => hstop y (hmem y hy)) (fun zs hzs => hname zs (hzs.trans hsuffix))
      fun zs hzs => hlength zs (hzs.trans hsuffix)
    have hsame : F.name.length = G.name.length :=
      hlength _ (List.suffix_cons ..) (List.prefix_append ..)
    obtain ⟨zs, hzs⟩ := (hname _ (List.suffix_cons ..)).mpr (List.prefix_append G.name ys)
    have hys : zs = ys.map g := by
      have hdrop := congrArg (List.drop F.name.length) hzs
      rwa [List.drop_left, hsame, ← List.map_drop, List.drop_left] at hdrop
    have hvalue := afterValue_map (F := F) fun y hy =>
      hstop y (List.mem_cons_of_mem _ (List.mem_append_right _ hy))
    rw [List.map_cons, ← hzs, mask_value ((hsep x List.mem_cons_self).trans hxsep),
      mask_value hxsep, hys, hf x List.mem_cons_self, hvalue, hrest]
  | copy x xs hnot ih =>
    have hmem : ∀ y ∈ xs, y ∈ x :: xs := fun _ hy => List.mem_cons_of_mem _ hy
    have hrest := ih (fun y hy => hf y (hmem y hy)) (fun y hy => hsep y (hmem y hy))
      (fun y hy => hstop y (hmem y hy))
      (fun zs hzs => hname zs (hzs.trans (List.suffix_cons ..)))
      fun zs hzs => hlength zs (hzs.trans (List.suffix_cons ..))
    have hnotF : F.isSep (g x) = true → ¬ F.name <+: xs.map g := fun hs hp =>
      hnot ((hsep x List.mem_cons_self).symm.trans hs) ((hname _ (List.suffix_cons ..)).mp hp)
    rw [List.map_cons, mask_copy hnotF, mask_copy hnot, hf x List.mem_cons_self, hrest]

end Map

end FieldFormat

end CloudGame.Lib
