import Mathlib.Data.List.Nodup
import Mathlib.Data.List.Perm.Subperm
import Mathlib.Logic.Function.Basic

/-!
# Repairing an assignment of values to slots

Each slot claims a value, or none.  A first pass over the slots keeps the claims to allowed values
that no earlier slot has, a second one gives every slot that is left the first fallback value not
in use.  Main results: what the first pass keeps is, for every allowed value, the first claim to it
(`keepAll_next`); with as many slots as allowed values the second never runs out
(`exists_fallback`), so that the repaired assignment is a permutation of them (`repair_perm`); and
it is the claims themselves where they are one already (`repair_of_perm`).
-/

namespace CloudGame.Lib

variable {S B : Type}

/-! ## Finding in a list that grows at its end -/

section Find

variable {p : S → Bool} {seen : List S} {slot : S}

theorem find?_snoc_of_exists (h : ∃ s ∈ seen, p s) :
    (seen ++ [slot]).find? p = seen.find? p := by
  obtain ⟨t, ht⟩ := Option.isSome_iff_exists.mp (List.find?_isSome.mpr h)
  rw [List.find?_append, ht]
  rfl

theorem find?_snoc_of_not (h : ¬p slot) : (seen ++ [slot]).find? p = seen.find? p := by
  rw [List.find?_append, List.find?_singleton, if_neg h, Option.or_none]

theorem find?_snoc_first (h : ¬∃ s ∈ seen, p s) (hslot : p slot) :
    (seen ++ [slot]).find? p = some slot := by
  have hnone : seen.find? p = none := List.find?_eq_none.mpr fun s hs hp => h ⟨s, hs, hp⟩
  rw [List.find?_append, hnone, List.find?_singleton, if_pos hslot, Option.none_or]

end Find

/-- An assignment under way, and the values it uses. -/
structure Filling (S B : Type) where
  next : S → Option B
  used : List B

namespace Filling

def empty : Filling S B := ⟨fun _ => none, []⟩

variable [DecidableEq S] [DecidableEq B]

def set (f : Filling S B) (slot : S) (b : B) : Filling S B :=
  ⟨Function.update f.next slot (some b), b :: f.used⟩

/-- The first pass at one slot. -/
def keep (bits : List B) (claims : S → Option B) (f : Filling S B) (slot : S) : Filling S B :=
  match claims slot with
  | some b => if b ∈ bits ∧ b ∉ f.used then f.set slot b else f
  | none => f

/-- The second pass at one slot; `spare` is what a slot would get if no fallback were left. -/
def fill (fallback : List B) (spare : S → B) (f : Filling S B) (slot : S) : Filling S B :=
  match f.next slot with
  | some _ => f
  | none =>
    match fallback.find? fun b => b ∉ f.used with
    | some b => f.set slot b
    | none => { f with next := Function.update f.next slot (some (spare slot)) }

/-- Both passes over all slots. -/
def repair (bits fallback : List B) (spare : S → B) (slots : List S) (claims : S → Option B) :
    S → Option B :=
  (slots.foldl (fill fallback spare) (slots.foldl (keep bits claims) empty)).next

omit [DecidableEq B] in
theorem next_set (f : Filling S B) (slot s : S) (b : B) :
    (f.set slot b).next s = if s = slot then some b else f.next s :=
  Function.update_apply f.next slot (some b) s

/-! ## The first pass -/

section Keep

variable {bits : List B} {claims : S → Option B} {seen : List S} {f : Filling S B}

/-- What the first pass has done once it is through with the slots `seen`. -/
structure Kept (bits : List B) (claims : S → Option B) (seen : List S) (f : Filling S B) :
    Prop where
  next_iff : ∀ s b, f.next s = some b ↔ b ∈ bits ∧ seen.find? (claims · = some b) = some s
  used_iff : ∀ b, b ∈ f.used ↔ b ∈ bits ∧ ∃ s ∈ seen, claims s = some b

omit [DecidableEq S] in
/-- A slot that claims nothing new leaves the pass where it is. -/
theorem Kept.skip (hk : Kept bits claims seen f) {slot : S}
    (hold : ∀ b ∈ bits, claims slot = some b → b ∈ f.used) :
    Kept bits claims (seen ++ [slot]) f := by
  have hclaimed : ∀ b ∈ bits, claims slot = some b → ∃ s ∈ seen, claims s = some b :=
    fun b hb hs => ((hk.used_iff b).mp (hold b hb hs)).2
  constructor
  · intro s b
    rw [hk.next_iff]
    refine and_congr_right fun hb => ?_
    rcases Decidable.em (claims slot = some b) with hslot | hslot
    · rw [find?_snoc_of_exists (by simpa using hclaimed b hb hslot)]
    · rw [find?_snoc_of_not (by simpa using hslot)]
  · intro b
    rw [hk.used_iff]
    refine and_congr_right fun hb => ?_
    constructor
    · rintro ⟨s, hs, hc⟩
      exact ⟨s, List.mem_append_left _ hs, hc⟩
    · rintro ⟨s, hs, hc⟩
      rcases List.mem_append.mp hs with hs | hs
      · exact ⟨s, hs, hc⟩
      · exact hclaimed b hb (List.mem_singleton.mp hs ▸ hc)

/-- A slot that claims an allowed value not in use gets it. -/
theorem Kept.take (hk : Kept bits claims seen f) {slot : S} {b : B}
    (hclaim : claims slot = some b) (hb : b ∈ bits) (hnew : b ∉ f.used) :
    Kept bits claims (seen ++ [slot]) (f.set slot b) := by
  have hfirst : ¬∃ s ∈ seen, claims s = some b := fun h => hnew ((hk.used_iff b).mpr ⟨hb, h⟩)
  constructor
  · intro s b'
    rw [next_set]
    rcases eq_or_ne b' b with rfl | hne
    · rw [find?_snoc_first (by simpa using hfirst) (by simpa using hclaim)]
      split
      · next hs => simp [hs, hb]
      · next hs =>
        have hnot : f.next s ≠ some b' := by
          intro hnext
          have hfind := ((hk.next_iff s b').mp hnext).2
          exact hfirst ⟨s, List.mem_of_find?_eq_some hfind, by simpa using List.find?_some hfind⟩
        simp [hnot, Ne.symm hs]
    · have hslot : claims slot ≠ some b' := by
        rw [hclaim]
        exact fun h => hne (Option.some.inj h).symm
      rw [find?_snoc_of_not (by simpa using hslot), ← hk.next_iff]
      split
      · next hs =>
        have hnot : f.next s ≠ some b' := by
          intro hnext
          have hfind := ((hk.next_iff s b').mp hnext).2
          exact hslot (hs ▸ by simpa using List.find?_some hfind)
        simp [hnot, Ne.symm hne]
      · exact Iff.rfl
  · intro b'
    show b' ∈ b :: f.used ↔ _
    rw [List.mem_cons, hk.used_iff]
    constructor
    · rintro (rfl | ⟨hb', s, hs, hc⟩)
      · exact ⟨hb, slot, List.mem_append_right _ (List.mem_singleton_self slot), hclaim⟩
      · exact ⟨hb', s, List.mem_append_left _ hs, hc⟩
    · rintro ⟨hb', s, hs, hc⟩
      rcases List.mem_append.mp hs with hs | hs
      · exact .inr ⟨hb', s, hs, hc⟩
      · rw [List.mem_singleton.mp hs, hclaim] at hc
        exact .inl (Option.some.inj hc).symm

theorem Kept.step (hk : Kept bits claims seen f) (slot : S) :
    Kept bits claims (seen ++ [slot]) (keep bits claims f slot) := by
  unfold keep
  split
  · next b hclaim =>
    split
    · next hnew => exact hk.take hclaim hnew.1 hnew.2
    · next hold =>
      refine hk.skip ?_
      intro b' hb' hclaim'
      obtain rfl : b = b' := Option.some.inj (hclaim.symm.trans hclaim')
      exact not_not.mp fun hn => hold ⟨hb', hn⟩
  · next hclaim =>
    refine hk.skip ?_
    intro b' _ hclaim'
    rw [hclaim] at hclaim'
    cases hclaim'

theorem Kept.run (slots : List S) :
    ∀ {seen : List S} {f : Filling S B}, Kept bits claims seen f →
      Kept bits claims (seen ++ slots) (slots.foldl (keep bits claims) f) := by
  induction slots with
  | nil => intro seen f hk; simpa using hk
  | cons slot slots ih =>
    intro seen f hk
    have hrest := ih (hk.step slot)
    rwa [List.append_assoc] at hrest

omit [DecidableEq S] in
theorem kept_empty (bits : List B) (claims : S → Option B) : Kept bits claims [] empty := by
  constructor <;> simp [empty]

/-- **The first pass keeps, for every allowed value, the first claim to it.** -/
theorem keepAll_next (slots : List S) (s : S) (b : B) :
    (slots.foldl (keep bits claims) empty).next s = some b ↔
      b ∈ bits ∧ slots.find? (claims · = some b) = some s :=
  (Kept.run slots (kept_empty bits claims)).next_iff s b

end Keep

/-! ## The second pass -/

section Fill

variable {bits fallback : List B} {slots : List S} {f : Filling S B}

/-- Every slot has a value of its own, an allowed one, and `used` is the list of these. -/
structure Valid (bits : List B) (slots : List S) (f : Filling S B) : Prop where
  inj : ∀ {s t b}, f.next s = some b → f.next t = some b → s = t
  used_iff : ∀ b, b ∈ f.used ↔ ∃ s, f.next s = some b
  bit_mem : ∀ {s b}, f.next s = some b → b ∈ bits
  slot_mem : ∀ {s b}, f.next s = some b → s ∈ slots

omit [DecidableEq S] in
theorem Kept.valid {claims : S → Option B} (hk : Kept bits claims slots f) :
    Valid bits slots f where
  inj := by
    intro s t b hs ht
    have hs := ((hk.next_iff s b).mp hs).2
    have ht := ((hk.next_iff t b).mp ht).2
    exact Option.some.inj (hs.symm.trans ht)
  used_iff := by
    intro b
    rw [hk.used_iff]
    constructor
    · rintro ⟨hb, s, hs, hc⟩
      obtain ⟨t, ht⟩ := Option.isSome_iff_exists.mp
        (List.find?_isSome.mpr ⟨s, hs, by simpa using hc⟩ :
          (slots.find? (claims · = some b)).isSome)
      exact ⟨t, (hk.next_iff t b).mpr ⟨hb, ht⟩⟩
    · rintro ⟨s, hs⟩
      obtain ⟨hb, hfind⟩ := (hk.next_iff s b).mp hs
      exact ⟨hb, s, List.mem_of_find?_eq_some hfind, by simpa using List.find?_some hfind⟩
  bit_mem := fun hs => ((hk.next_iff _ _).mp hs).1
  slot_mem := fun hs => List.mem_of_find?_eq_some ((hk.next_iff _ _).mp hs).2

omit [DecidableEq B] in
theorem Valid.set (hv : Valid bits slots f) {slot : S} {b : B} (hslot : slot ∈ slots)
    (hempty : f.next slot = none) (hb : b ∈ bits) (hnew : b ∉ f.used) :
    Valid bits slots (f.set slot b) where
  inj := by
    have hother : ∀ s, f.next s ≠ some b := fun s hs => hnew ((hv.used_iff b).mpr ⟨s, hs⟩)
    intro s t b' hs ht
    rw [next_set] at hs ht
    split at hs <;> split at ht
    · next hs' ht' => rw [hs', ht']
    · exact absurd (ht.trans hs.symm) (hother t)
    · exact absurd (hs.trans ht.symm) (hother s)
    · exact hv.inj hs ht
  used_iff := by
    intro b'
    show b' ∈ b :: f.used ↔ _
    rw [List.mem_cons, hv.used_iff]
    constructor
    · rintro (rfl | ⟨s, hs⟩)
      · exact ⟨slot, by rw [next_set, if_pos rfl]⟩
      · have hne : s ≠ slot := by
          rintro rfl
          rw [hempty] at hs
          cases hs
        exact ⟨s, by rw [next_set, if_neg hne, hs]⟩
    · rintro ⟨s, hs⟩
      rw [next_set] at hs
      split at hs
      · exact .inl (Option.some.inj hs).symm
      · exact .inr ⟨s, hs⟩
  bit_mem := by
    intro s b' hs
    rw [next_set] at hs
    split at hs
    · exact Option.some.inj hs ▸ hb
    · exact hv.bit_mem hs
  slot_mem := by
    intro s b' hs
    rw [next_set] at hs
    split at hs
    · next hs' => exact hs' ▸ hslot
    · exact hv.slot_mem hs

/-- **The fallbacks never run out**: while a slot is empty, the other slots use fewer values than
there are. -/
theorem exists_fallback (hv : Valid bits slots f) (hbits : bits.Nodup)
    (hlen : slots.length ≤ bits.length) (hfallback : ∀ b ∈ bits, b ∈ fallback) {slot : S}
    (hslot : slot ∈ slots) (hempty : f.next slot = none) : ∃ b ∈ fallback, b ∉ f.used := by
  by_contra hnone
  have hsub : bits.map some ⊆ (slots.erase slot).map f.next := by
    intro v hv'
    obtain ⟨b, hb, rfl⟩ := List.mem_map.mp hv'
    have hused : b ∈ f.used := not_not.mp fun hn => hnone ⟨b, hfallback b hb, hn⟩
    obtain ⟨s, hs⟩ := (hv.used_iff b).mp hused
    have hne : s ≠ slot := by
      rintro rfl
      rw [hempty] at hs
      cases hs
    exact List.mem_map.mpr ⟨s, (List.mem_erase_of_ne hne).mpr (hv.slot_mem hs), hs⟩
  have hnodup : (bits.map some).Nodup := hbits.map fun _ _ => Option.some.inj
  have hcount := (List.subperm_of_subset hnodup hsub).length_le
  have hpos := List.length_pos_of_mem hslot
  rw [List.length_map, List.length_map, List.length_erase_of_mem hslot] at hcount
  omega

/-- What the second pass does at one slot: the slot has a value after it, and no other slot is
touched. -/
theorem Valid.fill (spare : S → B) (hv : Valid bits slots f) (hbits : bits.Nodup)
    (hlen : slots.length ≤ bits.length) (hfallback : ∀ b, b ∈ fallback ↔ b ∈ bits) {slot : S}
    (hslot : slot ∈ slots) :
    Valid bits slots (f.fill fallback spare slot) ∧
      (f.fill fallback spare slot).next slot ≠ none ∧
      ∀ s b, f.next s = some b → (f.fill fallback spare slot).next s = some b := by
  unfold Filling.fill
  split
  · next b hs => exact ⟨hv, by simp [hs], fun _ _ h => h⟩
  · next hempty =>
    obtain ⟨b, hb, hnew⟩ :=
      exists_fallback hv hbits hlen (fun b => (hfallback b).mpr) hslot hempty
    split
    · next b' hfind =>
      have hb' := (hfallback b').mp (List.mem_of_find?_eq_some hfind)
      have hnew' : b' ∉ f.used := by simpa using List.find?_some hfind
      refine ⟨hv.set hslot hempty hb' hnew', by simp [next_set], ?_⟩
      intro s c hs
      have hne : s ≠ slot := by
        rintro rfl
        rw [hempty] at hs
        cases hs
      rw [next_set, if_neg hne, hs]
    · next hfind => exact absurd hnew (by simpa using List.find?_eq_none.mp hfind b hb)

theorem Valid.fillAll (spare : S → B) (hbits : bits.Nodup) (hlen : slots.length ≤ bits.length)
    (hfallback : ∀ b, b ∈ fallback ↔ b ∈ bits) (rest : List S) :
    ∀ {f : Filling S B}, rest ⊆ slots → Valid bits slots f →
      Valid bits slots (rest.foldl (Filling.fill fallback spare) f) ∧
        (∀ s b, f.next s = some b →
          (rest.foldl (Filling.fill fallback spare) f).next s = some b) ∧
        ∀ s ∈ rest, (rest.foldl (Filling.fill fallback spare) f).next s ≠ none := by
  induction rest with
  | nil => intro f _ hv; exact ⟨hv, fun _ _ h => h, by simp⟩
  | cons slot rest ih =>
    intro f hsub hv
    obtain ⟨hslot, hrest⟩ := List.cons_subset.mp hsub
    obtain ⟨hv₁, hfilled, hkeep₁⟩ := hv.fill spare hbits hlen hfallback hslot
    obtain ⟨hv₂, hkeep₂, hall⟩ := ih hrest hv₁
    refine ⟨hv₂, fun s b hs => hkeep₂ s b (hkeep₁ s b hs), ?_⟩
    intro s hs
    rcases List.mem_cons.mp hs with rfl | hs
    · obtain ⟨b, hb⟩ := Option.ne_none_iff_exists'.mp hfilled
      rw [List.foldl_cons, hkeep₂ s b hb]
      exact Option.some_ne_none b
    · exact hall s hs

end Fill

/-! ## The repaired assignment -/

section Repair

variable {bits fallback : List B} {spare : S → B} {slots : List S} {claims : S → Option B}

/-- **Each allowed value stays with the first slot that claims it.** -/
theorem repair_first (hbits : bits.Nodup) (hlen : slots.length ≤ bits.length)
    (hfallback : ∀ b, b ∈ fallback ↔ b ∈ bits) {b : B} (hb : b ∈ bits) {slot : S}
    (hfirst : slots.find? (claims · = some b) = some slot) :
    repair bits fallback spare slots claims slot = some b := by
  have hk := Kept.run slots (kept_empty bits claims)
  have hkept := (hk.next_iff slot b).mpr ⟨hb, hfirst⟩
  obtain ⟨-, hkeep, -⟩ := Valid.fillAll spare hbits hlen hfallback slots
    (List.Subset.refl slots) hk.valid
  exact hkeep slot b hkept

/-- **The repaired assignment is a permutation of the allowed values.** -/
theorem repair_perm (hbits : bits.Nodup) (hslots : slots.Nodup)
    (hlen : slots.length = bits.length) (hfallback : ∀ b, b ∈ fallback ↔ b ∈ bits) :
    (slots.map (repair bits fallback spare slots claims)).Perm (bits.map some) := by
  have hk := Kept.run slots (kept_empty bits claims)
  obtain ⟨hv, -, hall⟩ := Valid.fillAll spare hbits (Nat.le_of_eq hlen) hfallback slots
    (List.Subset.refl slots) hk.valid
  have hnodup : (slots.map (repair bits fallback spare slots claims)).Nodup := by
    refine List.Nodup.map_on ?_ hslots
    intro s hs t ht heq
    obtain ⟨b, hb⟩ := Option.ne_none_iff_exists'.mp (hall s hs)
    exact hv.inj hb (heq.symm.trans hb)
  have hsub : slots.map (repair bits fallback spare slots claims) ⊆ bits.map some := by
    intro v hv'
    obtain ⟨s, hs, rfl⟩ := List.mem_map.mp hv'
    obtain ⟨b, hb⟩ := Option.ne_none_iff_exists'.mp (hall s hs)
    exact List.mem_map.mpr ⟨b, hv.bit_mem hb, hb.symm⟩
  refine (List.subperm_of_subset hnodup hsub).perm_of_length_le ?_
  rw [List.length_map, List.length_map]
  exact Nat.le_of_eq hlen.symm

/-- **Claims that are a permutation already are left as they are.** -/
theorem repair_of_perm (hbits : bits.Nodup) (hlen : slots.length ≤ bits.length)
    (hfallback : ∀ b, b ∈ fallback ↔ b ∈ bits) (hclaims : (slots.map claims).Perm (bits.map some))
    {slot : S} (hslot : slot ∈ slots) :
    repair bits fallback spare slots claims slot = claims slot := by
  have hnodup : (slots.map claims).Nodup :=
    hclaims.nodup_iff.mpr (hbits.map fun _ _ => Option.some.inj)
  obtain ⟨b, hb, hclaim⟩ := List.mem_map.mp
    (hclaims.mem_iff.mp (List.mem_map.mpr ⟨slot, hslot, rfl⟩))
  have hfound : (slots.find? (claims · = some b)).isSome :=
    List.find?_isSome.mpr ⟨slot, hslot, by simp [hclaim]⟩
  obtain ⟨first, hfirst⟩ := Option.isSome_iff_exists.mp hfound
  have hclaim' : claims first = some b := by simpa using List.find?_some hfirst
  obtain rfl : first = slot :=
    List.inj_on_of_nodup_map hnodup (List.mem_of_find?_eq_some hfirst) hslot
      (hclaim'.trans hclaim)
  rw [repair_first hbits hlen hfallback hb hfirst, hclaim]

end Repair

end Filling

end CloudGame.Lib
