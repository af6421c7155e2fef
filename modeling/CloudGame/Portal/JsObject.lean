import CloudGame.Lib.HashMap
import CloudGame.Lib.JsonValue

/-!
# What the portal's scripts read (`JSON.parse`, `window.localStorage`)

`jsField` is a property of a parsed value, and `jsEntries` are all of them.  `loadFromStorage` is
the shape that the loaders of stored settings share: whatever goes wrong, they fall back to the
default.
-/

namespace CloudGame.Portal

open CloudGame.Lib

/-! ## Properties -/

/-- A field of a parsed object; the last one of a name is kept. -/
def jsField {ν : Type} (key : String) : JsonValue ν → Option (JsonValue ν)
  | .object es => (es.reverse.find? fun e => e.1 = key).map Prod.snd
  | _ => none

variable {ν : Type}

theorem jsField_eq_some {es : List (String × JsonValue ν)} {key : String} {v : JsonValue ν}
    (hmem : (key, v) ∈ es) (honly : ∀ w, (key, w) ∈ es → w = v) :
    jsField key (.object es) = some v := by
  have hfound : (es.reverse.find? fun e => e.1 = key).isSome :=
    List.find?_isSome.mpr ⟨(key, v), List.mem_reverse.mpr hmem, by simp⟩
  obtain ⟨⟨key', w⟩, hfind⟩ := Option.isSome_iff_exists.mp hfound
  obtain rfl : key' = key := by simpa using List.find?_some hfind
  have hw := honly w (List.mem_reverse.mp (List.mem_of_find?_eq_some hfind))
  rw [jsField, hfind, hw]
  rfl

theorem jsField_eq_none {es : List (String × JsonValue ν)} {key : String}
    (hnone : ∀ w, (key, w) ∉ es) : jsField key (.object es) = none := by
  have hfind : (es.reverse.find? fun e => e.1 = key) = none := by
    rw [List.find?_eq_none]
    rintro ⟨key', w⟩ hmem heq
    obtain rfl : key' = key := by simpa using heq
    exact hnone w (List.mem_reverse.mp hmem)
  rw [jsField, hfind]
  rfl

/-- `Object.entries` of a parsed value, in some order; the last one of a name is kept. -/
def jsEntries : JsonValue ν → List (String × JsonValue ν)
  | .object es => (HashMap.ofEntries es).items
  | .array vs => vs.zipIdx.map fun e => (toString e.2, e.1)
  | _ => []

/-! ## Stored settings -/

/-- What a script finds of `window.localStorage.getItem`. -/
inductive StorageRead where
  /-- There is no `window`, or no storage. -/
  | unavailable
  | throws
  | item (raw : Option String)
deriving DecidableEq

/-- The loader of a setting: the stored text, parsed and normalized, or else the default,
normalized.  The value of `jsonParse` is `none` where `JSON.parse` throws. -/
def loadFromStorage {M : Type} (normalize : JsonValue ν → M) (default : JsonValue ν)
    (jsonParse : String → Option (JsonValue ν)) : StorageRead → M
  | .item (some raw) =>
    if raw = "" then normalize default
    else
      match jsonParse raw with
      | some parsed => normalize parsed
      | none => normalize default
  | _ => normalize default

/-- Whatever is stored, what is loaded has been normalized. -/
theorem exists_loadFromStorage {M : Type} (normalize : JsonValue ν → M) (default : JsonValue ν)
    (jsonParse : String → Option (JsonValue ν)) (read : StorageRead) :
    ∃ candidate, loadFromStorage normalize default jsonParse read = normalize candidate := by
  unfold loadFromStorage
  split
  · split
    · exact ⟨default, rfl⟩
    · split
      · next parsed _ => exact ⟨parsed, rfl⟩
      · exact ⟨default, rfl⟩
  · exact ⟨default, rfl⟩

end CloudGame.Portal
