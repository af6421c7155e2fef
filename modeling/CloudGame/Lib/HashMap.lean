import Mathlib.Data.List.AList
import Mathlib.Data.List.Induction

/-!
# Hash maps

A hash map is a list of entries with distinct keys (Mathlib's `AList`).  Its iteration order is
the order of the entries; `Rehashed m m'` says that `m'` has the entries of `m` in some order,
which is all that is known of a hash map whose order is unspecified.

Beyond `AList`: the entries as pairs (`items`), the update of all values (`mapVal`), the removal
of a list of keys (`eraseAll`), and the map of a list of entries (`ofEntries`), each with its
`lookup`.
-/

namespace CloudGame.Lib

abbrev HashMap (K V : Type) : Type := AList fun _ : K => V

namespace HashMap

variable {K V W : Type}

/-- The entries in iteration order. -/
def items (m : HashMap K V) : List (K × V) := m.entries.map fun e => (e.1, e.2)

theorem items_map_fst (m : HashMap K V) : m.items.map Prod.fst = m.keys := by
  simp [items, AList.keys, List.keys, List.map_map, Function.comp_def]

theorem items_keys_nodup (m : HashMap K V) : (m.items.map Prod.fst).Nodup := by
  rw [items_map_fst]; exact m.keys_nodup

theorem items_nodup (m : HashMap K V) : m.items.Nodup := (items_keys_nodup m).of_map

/-- The same entries, in any order. -/
def Rehashed (m m' : HashMap K V) : Prop := m.entries.Perm m'.entries

/-- All values replaced by `f` of key and value. -/
def mapVal (f : K → V → W) (m : HashMap K V) : HashMap K W where
  entries := m.entries.map fun e => ⟨e.1, f e.1 e.2⟩
  nodupKeys := by
    have h := m.nodupKeys
    simpa [List.NodupKeys, List.keys, List.map_map, Function.comp_def] using h

/-! ## Lookups -/

variable [DecidableEq K]

instance [DecidableEq V] (m m' : HashMap K V) : Decidable (Rehashed m m') :=
  inferInstanceAs (Decidable (m.entries.Perm m'.entries))

theorem lookup_eq_some {m : HashMap K V} {k : K} {v : V} :
    m.lookup k = some v ↔ ⟨k, v⟩ ∈ m.entries := by
  rw [← AList.mem_lookup_iff, Option.mem_def]

theorem mem_items {m : HashMap K V} {k : K} {v : V} : (k, v) ∈ m.items ↔ m.lookup k = some v := by
  rw [lookup_eq_some, items, List.mem_map]
  constructor
  · rintro ⟨⟨k', v'⟩, h, he⟩
    simp only [Prod.mk.injEq] at he
    obtain ⟨rfl, rfl⟩ := he
    exact h
  · intro h
    exact ⟨⟨k, v⟩, h, rfl⟩

theorem lookup_erase_eq_ite (m : HashMap K V) (k k' : K) :
    (m.erase k').lookup k = if k = k' then none else m.lookup k := by
  split
  · next h => subst h; exact AList.lookup_erase k m
  · next h => exact AList.lookup_erase_ne h

theorem lookup_insert_eq_ite (m : HashMap K V) (k k' : K) (v : V) :
    (m.insert k' v).lookup k = if k = k' then some v else m.lookup k := by
  split
  · next h => subst h; exact AList.lookup_insert m
  · next h => exact AList.lookup_insert_ne h

theorem lookup_mapVal (f : K → V → W) (m : HashMap K V) (k : K) :
    (mapVal f m).lookup k = (m.lookup k).map (f k) := by
  apply Option.ext
  intro w
  rw [lookup_eq_some, Option.map_eq_some_iff]
  simp only [mapVal, List.mem_map, lookup_eq_some]
  constructor
  · rintro ⟨⟨k', v⟩, h, he⟩
    simp only [Sigma.mk.injEq, heq_eq_eq] at he
    obtain ⟨rfl, rfl⟩ := he
    exact ⟨v, h, rfl⟩
  · rintro ⟨v, h, rfl⟩
    exact ⟨⟨k, v⟩, h, rfl⟩

/-- The keys `ks` removed one after the other. -/
def eraseAll (ks : List K) (m : HashMap K V) : HashMap K V :=
  ks.foldl (fun m k => m.erase k) m

theorem lookup_eraseAll (ks : List K) (m : HashMap K V) (k : K) :
    (eraseAll ks m).lookup k = if k ∈ ks then none else m.lookup k := by
  induction ks generalizing m with
  | nil => simp [eraseAll]
  | cons k' ks ih =>
    show (eraseAll ks (m.erase k')).lookup k = _
    rw [ih, lookup_erase_eq_ite]
    by_cases h : k = k' <;> by_cases h' : k ∈ ks <;> simp [h, h']

/-- The entries inserted one after the other. -/
def ofEntries (es : List (K × V)) : HashMap K V := es.foldl (fun m e => m.insert e.1 e.2) ∅

/-- Where the entries of a key agree, their order does not matter. -/
theorem lookup_ofEntries {es : List (K × V)} {k : K}
    (hagree : ∀ v v', (k, v) ∈ es → (k, v') ∈ es → v = v') (v : V) :
    (ofEntries es).lookup k = some v ↔ (k, v) ∈ es := by
  induction es using List.reverseRecOn generalizing v with
  | nil => simp [ofEntries]
  | append_singleton es e ih =>
    have hstep : ofEntries (es ++ [e]) = (ofEntries es).insert e.1 e.2 := by
      simp [ofEntries, List.foldl_append]
    rw [hstep, lookup_insert_eq_ite, List.mem_append, List.mem_singleton]
    split
    · next he =>
      subst he
      constructor
      · rintro ⟨⟩
        exact Or.inr rfl
      · intro h
        rw [Option.some.injEq]
        refine hagree _ _ (List.mem_append_right _ (List.mem_singleton.mpr rfl)) ?_
        exact List.mem_append.mpr (h.imp id List.mem_singleton.mpr)
    · next he =>
      rw [ih fun v v' hv hv' =>
        hagree v v' (List.mem_append_left _ hv) (List.mem_append_left _ hv')]
      exact ⟨Or.inl, fun h => h.resolve_right fun h' => he (congrArg Prod.fst h')⟩

/-! ## The number of entries -/

omit [DecidableEq K] in
theorem length_keys (m : HashMap K V) : m.keys.length = m.entries.length := List.length_map _

theorem length_erase_le (m : HashMap K V) (k : K) :
    (m.erase k).entries.length ≤ m.entries.length := by
  rw [← length_keys, ← length_keys, AList.keys_erase]
  exact List.length_erase_le

theorem length_erase_of_mem {m : HashMap K V} {k : K} (h : k ∈ m) :
    (m.erase k).entries.length = m.entries.length - 1 := by
  rw [← length_keys, ← length_keys, AList.keys_erase]
  exact List.length_erase_of_mem h

omit [DecidableEq K] in
theorem length_pos_of_mem {m : HashMap K V} {k : K} (h : k ∈ m) : 0 < m.entries.length := by
  rw [← length_keys]
  exact List.length_pos_of_mem h

theorem erase_of_notMem {m : HashMap K V} {k : K} (h : k ∉ m) : m.erase k = m :=
  AList.ext (List.kerase_of_notMem_keys h)

theorem length_insert_of_mem {m : HashMap K V} {k : K} (h : k ∈ m) (v : V) :
    (m.insert k v).entries.length = m.entries.length := by
  have hpos : 0 < m.keys.length := List.length_pos_of_mem h
  rw [← length_keys, ← length_keys, AList.keys_insert, List.length_cons,
    List.length_erase_of_mem h]
  omega

theorem length_insert_of_notMem {m : HashMap K V} {k : K} (h : k ∉ m) (v : V) :
    (m.insert k v).entries.length = m.entries.length + 1 := by
  rw [AList.entries_insert_of_notMem h, List.length_cons]

/-! ## Any order -/

theorem Rehashed.lookup {m m' : HashMap K V} (h : Rehashed m m') (k : K) :
    m'.lookup k = m.lookup k := (AList.perm_lookup h).symm

end HashMap

end CloudGame.Lib
