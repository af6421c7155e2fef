import Mathlib.Data.String.Basic
import Mathlib.Data.List.Nodup

/-!
# JSON values

`JsonValue` is a JSON document over a type `ν` of numbers.  `Json` is a value that a parser can
return: the keys of every object increase (objects are ordered maps, each key once) and at most
`recursionLimit` arrays and objects are nested.  `JsonMap` is the map of one object.

`JsonCodec` is a library that reads and prints these values, and `JsonCodec.Lawful` what its users
rely on: what it prints it reads back to the same value.

* `JsonMap.get_insertString`, `JsonMap.get_ofStrings`: the map laws.
* `JsonMap.ofStrings_entries`: fields that come in the order of their keys are the entries.
-/

namespace CloudGame.Lib

/-- A JSON document. -/
inductive JsonValue (ν : Type) where
  | null
  | bool (b : Bool)
  | number (n : ν)
  | string (s : String)
  | array (vs : List (JsonValue ν))
  | object (es : List (String × JsonValue ν))

namespace JsonValue

variable {ν : Type}

/-- `Canonical n v`: keys increase in every object of `v`, and at most `n` containers nest. -/
inductive Canonical : Nat → JsonValue ν → Prop
  | null {n : Nat} : Canonical n .null
  | bool {n : Nat} (b : Bool) : Canonical n (.bool b)
  | number {n : Nat} (x : ν) : Canonical n (.number x)
  | string {n : Nat} (s : String) : Canonical n (.string s)
  | array {n : Nat} {vs : List (JsonValue ν)} :
      (∀ v ∈ vs, Canonical n v) → Canonical (n + 1) (.array vs)
  | object {n : Nat} {es : List (String × JsonValue ν)} :
      es.Pairwise (fun e f => e.1 < f.1) → (∀ e ∈ es, Canonical n e.2) →
      Canonical (n + 1) (.object es)

def asStr : JsonValue ν → Option String
  | .string s => some s
  | _ => none

end JsonValue

/-- How deep a parser follows arrays and objects. -/
def recursionLimit : Nat := 127

/-- A value a parser can return. -/
structure Json (ν : Type) where
  value : JsonValue ν
  canonical : value.Canonical recursionLimit

/-- The map of an object: its entries in the order of their keys. -/
structure JsonMap (ν : Type) where
  entries : List (String × JsonValue ν)
  sorted : entries.Pairwise fun e f => e.1 < f.1
  canonical : ∀ e ∈ entries, e.2.Canonical (recursionLimit - 1)

variable {ν : Type}

@[ext] theorem Json.ext {v w : Json ν} (h : v.value = w.value) : v = w := by
  cases v
  cases w
  cases h
  rfl

@[ext] theorem JsonMap.ext {m n : JsonMap ν} (h : m.entries = n.entries) : m = n := by
  cases m
  cases n
  cases h
  rfl

/-! ## Views of a value -/

namespace Json

def string (s : String) : Json ν := ⟨.string s, .string s⟩

def object (m : JsonMap ν) : Json ν := ⟨.object m.entries, .object m.sorted m.canonical⟩

/-- What a value is to code that tells objects and strings from the rest. -/
inductive View (ν : Type) where
  | object (m : JsonMap ν)
  | string (s : String)
  | other

def view : Json ν → View ν
  | ⟨.object es, h⟩ =>
    .object ⟨es, by cases h; assumption, by cases h; assumption⟩
  | ⟨.string s, _⟩ => .string s
  | _ => .other

def asObject (v : Json ν) : Option (JsonMap ν) :=
  match v.view with
  | .object m => some m
  | _ => none

@[simp] theorem view_object (m : JsonMap ν) : (object m).view = .object m := rfl

@[simp] theorem view_string (s : String) : (string s : Json ν).view = .string s := rfl

theorem eq_object {v : Json ν} {m : JsonMap ν} (h : v.view = .object m) : v = object m := by
  obtain ⟨v, hv⟩ := v
  cases v <;> cases h
  rfl

theorem eq_string {v : Json ν} {s : String} (h : v.view = .string s) : v = string s := by
  obtain ⟨v, hv⟩ := v
  cases v <;> cases h
  rfl

@[simp] theorem asObject_object (m : JsonMap ν) : (object m).asObject = some m := rfl

end Json

/-! ## Entries in order -/

/-- The entries with the one of `key` set. -/
def insertEntry (key : String) (v : JsonValue ν) :
    List (String × JsonValue ν) → List (String × JsonValue ν)
  | [] => [(key, v)]
  | e :: es =>
    if key < e.1 then (key, v) :: e :: es
    else if key = e.1 then (key, v) :: es
    else e :: insertEntry key v es

theorem mem_insertEntry {key : String} {v : JsonValue ν} {es : List (String × JsonValue ν)}
    {e : String × JsonValue ν} (he : e ∈ insertEntry key v es) : e = (key, v) ∨ e ∈ es := by
  induction es with
  | nil => simpa [insertEntry] using he
  | cons f es ih =>
    unfold insertEntry at he
    split at he
    next => simpa using he
    next =>
      split at he
      next =>
        rcases List.mem_cons.mp he with h | h
        · exact Or.inl h
        · exact Or.inr (List.mem_cons_of_mem _ h)
      next =>
        rcases List.mem_cons.mp he with h | h
        · exact Or.inr (h ▸ List.mem_cons_self)
        · exact (ih h).imp_right (List.mem_cons_of_mem _)

theorem pairwise_insertEntry {key : String} {v : JsonValue ν} {es : List (String × JsonValue ν)}
    (hes : es.Pairwise fun e f => e.1 < f.1) :
    (insertEntry key v es).Pairwise fun e f => e.1 < f.1 := by
  induction es with
  | nil => exact List.pairwise_singleton _ _
  | cons f es ih =>
    have hf := (List.pairwise_cons.mp hes).1
    have htail := (List.pairwise_cons.mp hes).2
    unfold insertEntry
    split
    next hlt =>
      refine List.pairwise_cons.mpr ⟨fun e he => ?_, hes⟩
      rcases List.mem_cons.mp he with rfl | he
      · exact hlt
      · exact hlt.trans (hf e he)
    next hge =>
      split
      next heq => exact List.pairwise_cons.mpr ⟨fun e he => heq ▸ hf e he, htail⟩
      next hne =>
        refine List.pairwise_cons.mpr ⟨fun e he => ?_, ih htail⟩
        rcases mem_insertEntry he with rfl | he
        · exact lt_of_le_of_ne (not_lt.mp hge) (Ne.symm hne)
        · exact hf e he

/-- A key above all others goes to the end. -/
theorem insertEntry_last {key : String} {v : JsonValue ν} {es : List (String × JsonValue ν)}
    (hes : ∀ e ∈ es, e.1 < key) : insertEntry key v es = es ++ [(key, v)] := by
  induction es with
  | nil => rfl
  | cons f es ih =>
    have hf : f.1 < key := hes f List.mem_cons_self
    rw [insertEntry, if_neg hf.le.not_gt, if_neg hf.ne', ih fun e he =>
      hes e (List.mem_cons_of_mem _ he)]
    rfl

theorem lookup_entry (e : String × JsonValue ν) (k : String) (es : List (String × JsonValue ν)) :
    (e :: es).lookup k = if k = e.1 then some e.2 else es.lookup k := by
  obtain ⟨key, v⟩ := e
  by_cases h : k = key
  · simp [h]
  · have hb : (k == key) = false := by simpa using h
    simp only [List.lookup_cons, hb, if_neg h]

theorem lookup_insertEntry (key k : String) (v : JsonValue ν)
    (es : List (String × JsonValue ν)) :
    (insertEntry key v es).lookup k = if k = key then some v else es.lookup k := by
  induction es with
  | nil => exact lookup_entry (key, v) k []
  | cons f es ih =>
    unfold insertEntry
    split
    next => exact lookup_entry (key, v) k (f :: es)
    next =>
      split
      next heq =>
        rw [lookup_entry, lookup_entry, ← heq]
        split <;> rfl
      next hne =>
        rw [lookup_entry, lookup_entry, ih]
        by_cases hk : k = key
        · rw [hk, if_neg hne, if_pos rfl, if_pos rfl]
        · rw [if_neg hk, if_neg hk]

/-! ## Maps -/

namespace JsonMap

def get (m : JsonMap ν) (key : String) : Option (JsonValue ν) := m.entries.lookup key

def containsKey (m : JsonMap ν) (key : String) : Bool := (m.get key).isSome

def empty : JsonMap ν := ⟨[], List.Pairwise.nil, by simp⟩

/-- Sets `key` to a string. -/
def insertString (m : JsonMap ν) (key value : String) : JsonMap ν where
  entries := insertEntry key (.string value) m.entries
  sorted := pairwise_insertEntry m.sorted
  canonical := by
    intro e he
    rcases mem_insertEntry he with rfl | he
    · exact .string value
    · exact m.canonical e he

/-- The map that string fields are read to, one after the other. -/
def ofStrings (fields : List (String × String)) : JsonMap ν :=
  fields.foldl (fun m f => m.insertString f.1 f.2) empty

theorem get_insertString (m : JsonMap ν) (key value k : String) :
    (m.insertString key value).get k = if k = key then some (.string value) else m.get k :=
  lookup_insertEntry key k _ m.entries

@[simp] theorem get_empty (k : String) : (empty : JsonMap ν).get k = none := rfl

theorem get_foldl_insertString (fields : List (String × String)) (m : JsonMap ν) (k : String)
    (hk : k ∉ fields.map Prod.fst) :
    (fields.foldl (fun m f => m.insertString f.1 f.2) m).get k = m.get k := by
  induction fields generalizing m with
  | nil => rfl
  | cons f fields ih =>
    simp only [List.map_cons, List.mem_cons, not_or] at hk
    rw [List.foldl_cons, ih _ hk.2, get_insertString, if_neg hk.1]

/-- A field is found under its key. -/
theorem get_ofStrings {fields : List (String × String)} (hd : (fields.map Prod.fst).Nodup)
    {f : String × String} (hf : f ∈ fields) :
    (ofStrings fields : JsonMap ν).get f.1 = some (.string f.2) := by
  suffices h : ∀ m : JsonMap ν,
      (fields.foldl (fun m f => m.insertString f.1 f.2) m).get f.1 = some (.string f.2) from h _
  induction fields with
  | nil => cases hf
  | cons g fields ih =>
    intro m
    have hd' := List.nodup_cons.mp hd
    rcases List.mem_cons.mp hf with rfl | hf
    · rw [List.foldl_cons, get_foldl_insertString _ _ _ hd'.1, get_insertString, if_pos rfl]
    · exact ih hd'.2 hf _

/-- A key that no field has is not found. -/
theorem get_ofStrings_none {fields : List (String × String)} {k : String}
    (hk : k ∉ fields.map Prod.fst) : (ofStrings fields : JsonMap ν).get k = none :=
  get_foldl_insertString fields empty k hk

/-- Fields that come in the order of their keys are the entries of their map. -/
theorem ofStrings_entries {fields : List (String × String)}
    (hs : fields.Pairwise fun e f => e.1 < f.1) :
    (ofStrings fields : JsonMap ν).entries = fields.map fun f => (f.1, .string f.2) := by
  suffices h : ∀ m : JsonMap ν, (∀ e ∈ m.entries, ∀ f ∈ fields, e.1 < f.1) →
      (fields.foldl (fun m f => m.insertString f.1 f.2) m).entries =
        m.entries ++ fields.map fun f => (f.1, .string f.2) by
    exact h empty (by simp [empty])
  induction fields with
  | nil => simp
  | cons f fields ih =>
    intro m hm
    have hf := List.pairwise_cons.mp hs
    have hlast : (m.insertString f.1 f.2).entries = m.entries ++ [(f.1, .string f.2)] :=
      insertEntry_last fun e he => hm e he f List.mem_cons_self
    have hall : ∀ e ∈ (m.insertString f.1 f.2).entries, ∀ g ∈ fields, e.1 < g.1 := by
      intro e he g hg
      rw [hlast] at he
      rcases List.mem_append.mp he with he | he
      · exact hm e he g (List.mem_cons_of_mem _ hg)
      · rw [List.mem_singleton.mp he]
        exact hf.1 g hg
    rw [List.foldl_cons, ih hf.2 _ hall, hlast, List.append_assoc]
    rfl

end JsonMap

/-! ## Reading and printing -/

/-- A library for JSON values.  `structToString` prints a struct of string fields, `display` a
value for a message. -/
structure JsonCodec (ν : Type) where
  fromStr : String → Except String (Json ν)
  fromSlice : List UInt8 → Except String (Json ν)
  toVec : Json ν → Except String (List UInt8)
  display : Json ν → String
  structToString : List (String × String) → String

/-- What is printed is read back, and the empty text is no value. -/
structure JsonCodec.Lawful (json : JsonCodec ν) : Prop where
  fromSlice_toVec : ∀ {v : Json ν} {bytes : List UInt8},
    json.toVec v = .ok bytes → json.fromSlice bytes = .ok v
  fromSlice_nil : ∀ v : Json ν, json.fromSlice [] ≠ .ok v
  fromStr_structToString : ∀ fields : List (String × String), (fields.map Prod.fst).Nodup →
    json.fromStr (json.structToString fields) = .ok (.object (.ofStrings fields))

theorem JsonCodec.Lawful.toVec_ne_nil {json : JsonCodec ν} (hjson : json.Lawful) {v : Json ν}
    {bytes : List UInt8} (h : json.toVec v = .ok bytes) : bytes ≠ [] := by
  rintro rfl
  exact hjson.fromSlice_nil v (hjson.fromSlice_toVec h)

end CloudGame.Lib
