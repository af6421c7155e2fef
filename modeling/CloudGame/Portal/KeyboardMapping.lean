import CloudGame.Lib.HashMap
import CloudGame.Lib.JsJson
import CloudGame.Portal.JsObject

/-!
# The keyboard bindings (`arcade-portal/src/App.jsx`)

A mapping object has a list of key codes under the number of each action.  The player binds a code
to an action, clears an action and resets the bindings; the mapping is saved as JSON whenever it
changes, and loaded through `normalizeKeyboardMapping`.

The properties of an object are a hash map, whose order is not that of `Object.keys`: no function
here depends on it.
-/

namespace CloudGame.Portal

open CloudGame.Lib

variable {ν : Type}

/-! ## Actions -/

namespace Joypad

def joypadA : Nat := 0
def joypadB : Nat := 1
def joypadX : Nat := 2
def joypadY : Nat := 3
def joypadL : Nat := 4
def joypadR : Nat := 5
def joypadSelect : Nat := 6
def joypadStart : Nat := 7
def joypadUp : Nat := 8
def joypadDown : Nat := 9
def joypadLeft : Nat := 10
def joypadRight : Nat := 11

end Joypad

open Joypad

/-- The key of a property that is named by a number. -/
def propertyKey (id : Nat) : String := toString id

/-- The bindings of `DEFAULT_KEY_MAP`. -/
def defaultKeys : List (Nat × List String) :=
  [(joypadLeft, ["KeyA", "ArrowLeft"]),
    (joypadUp, ["KeyW", "ArrowUp"]),
    (joypadRight, ["KeyD", "ArrowRight"]),
    (joypadDown, ["KeyS", "ArrowDown"]),
    (joypadA, ["KeyJ"]),
    (joypadB, ["KeyK"]),
    (joypadX, ["KeyU"]),
    (joypadY, ["KeyI"]),
    (joypadL, ["KeyQ"]),
    (joypadR, ["KeyE"]),
    (joypadSelect, ["Digit3"]),
    (joypadStart, ["Digit1"])]

/-- The ids of `KEYBOARD_ACTIONS`. -/
def keyboardActions : List Nat :=
  [joypadUp, joypadDown, joypadLeft, joypadRight, joypadA, joypadB, joypadX, joypadY, joypadL,
    joypadR, joypadStart, joypadSelect]

abbrev KeyboardAction := { id : Nat // id ∈ keyboardActions }

/-! ## Mappings -/

abbrev KeyboardMapping (ν : Type) := HashMap String (JsonValue ν)

/-- An array of codes. -/
def codeList (codes : List String) : JsonValue ν := .array (codes.map .string)

/-- `DEFAULT_KEY_MAP`. -/
def defaultKeyMap : KeyboardMapping ν :=
  HashMap.ofEntries (defaultKeys.map fun e => (propertyKey e.1, codeList e.2))

/-- A mapping as a value. -/
def KeyboardMapping.toJson (m : KeyboardMapping ν) : JsonValue ν := .object m.items

/-- A string, and not the empty one. -/
def isCode : JsonValue ν → Bool
  | .string s => s ≠ ""
  | _ => false

/-- The string `s`. -/
def isText (s : String) : JsonValue ν → Bool
  | .string t => t = s
  | _ => false

/-- The first two codes of an array. -/
def cleanEntries (vs : List (JsonValue ν)) : List (JsonValue ν) := (vs.filter isCode).take 2

/-- What the first loop of `normalizeKeyboardMapping` keeps of a property. -/
def readBinding : JsonValue ν → Option (JsonValue ν)
  | .array vs => some (.array (cleanEntries vs))
  | .string s => if s ≠ "" then some (.array [.string s]) else none
  | .null => some (.array [])
  | _ => none

/-- What its second loop makes of one. -/
def cleanBinding : JsonValue ν → JsonValue ν
  | .array vs => .array (cleanEntries vs)
  | .string s => if s ≠ "" then .array [.string s] else .array []
  | _ => .array []

/-- An assignment to `__proto__` makes no property. -/
def normalizeKeyboardMapping (candidate : JsonValue ν) : KeyboardMapping ν :=
  let normalized : KeyboardMapping ν := HashMap.ofEntries
    ((jsEntries candidate).filterMap fun e =>
      if e.1 = "__proto__" then none else (readBinding e.2).map fun value => (e.1, value))
  let merged : KeyboardMapping ν := normalized ∪ defaultKeyMap
  HashMap.mapVal (fun _ value => cleanBinding value) merged

def loadKeyboardMappingFromStorage (jsonParse : String → Option (JsonValue ν)) :
    StorageRead → KeyboardMapping ν :=
  loadFromStorage normalizeKeyboardMapping (KeyboardMapping.toJson defaultKeyMap) jsonParse

/-! ## Binding -/

/-- The entries of a property that is an array or a string. -/
def bindingEntries : Option (JsonValue ν) → List (JsonValue ν)
  | some (.array vs) => vs
  | some (.string s) => [.string s]
  | _ => []

/-- `array[i] = value`; an array that is too short gets holes. -/
def assignAt {α : Type} (i : Nat) (value : α) (array : List (Option α)) : List (Option α) :=
  (array ++ List.replicate (i + 1 - array.length) none).set i (some value)

/-- The first two codes of an array, each once; a filter does not visit holes. -/
def distinctCodes (array : List (Option (JsonValue ν))) : List (JsonValue ν) :=
  (array.zipIdx.filterMap fun (entry, index) =>
    match entry with
    | some (.string s) =>
      if s ≠ "" ∧ (array.findIdx fun e => e.any (isText s)) = index then some (.string s) else none
    | _ => none).take 2

def bindKeyboardKey (prev : KeyboardMapping ν) (actionId : Nat) (code : String) (slot : Nat) :
    KeyboardMapping ν :=
  if code = "" then prev
  else
    let next : KeyboardMapping ν := HashMap.mapVal
      (fun _ value => .array ((bindingEntries (some value)).filter fun e => !isText code e)) prev
    let existing := (bindingEntries (next.lookup (propertyKey actionId))).map some
    let existing :=
      if slot = 1 then assignAt 1 (.string code) existing
      else assignAt 0 (.string code) existing
    next.insert (propertyKey actionId) (.array (distinctCodes existing))

def clearKeyboardBinding (prev : KeyboardMapping ν) (actionId : Nat) : KeyboardMapping ν :=
  prev.insert (propertyKey actionId) (.array [])

def resetKeyboardBindings : KeyboardMapping ν :=
  normalizeKeyboardMapping (KeyboardMapping.toJson defaultKeyMap)

/-- What the keyboard settings do to the mapping. -/
inductive BindingOp where
  | bind (action : KeyboardAction) (code : String) (slot : Nat)
  | clear (action : KeyboardAction)
  | reset

def BindingOp.apply (m : KeyboardMapping ν) : BindingOp → KeyboardMapping ν
  | .bind action code slot => bindKeyboardKey m action.1 code slot
  | .clear action => clearKeyboardBinding m action.1
  | .reset => resetKeyboardBindings

/-! ## Lists of codes -/

/-- At most two codes, distinct and none empty. -/
structure GoodCodes (codes : List String) : Prop where
  short : codes.length ≤ 2
  distinct : codes.Nodup
  nonempty : "" ∉ codes

/-- The codes of an action once a new one is put into a slot. -/
def placed (codes : List String) (code : String) (slot : Nat) : List String :=
  if slot = 1 then codes.take 1 ++ [code] else code :: codes.drop 1

theorem mem_placed {codes : List String} {code c : String} {slot : Nat}
    (h : c ∈ placed codes code slot) : c = code ∨ c ∈ codes := by
  unfold placed at h
  split at h
  · rcases List.mem_append.mp h with h | h
    · exact .inr (List.mem_of_mem_take h)
    · exact .inl (List.mem_singleton.mp h)
  · rcases List.mem_cons.mp h with h | h
    · exact .inl h
    · exact .inr (List.mem_of_mem_drop h)

theorem code_mem_placed (codes : List String) (code : String) (slot : Nat) :
    code ∈ placed codes code slot := by
  unfold placed
  split
  · exact List.mem_append_right _ (List.mem_singleton_self code)
  · exact List.mem_cons_self

theorem GoodCodes.placed {codes : List String} (h : GoodCodes codes) {code : String}
    (hfree : code ∉ codes) (hcode : code ≠ "") (slot : Nat) :
    GoodCodes (placed codes code slot) where
  short := by
    have hshort := h.short
    unfold Portal.placed
    split
    · rw [List.length_append, List.length_take, List.length_singleton]
      omega
    · rw [List.length_cons, List.length_drop]
      omega
  distinct := by
    unfold Portal.placed
    split
    · rw [List.nodup_append]
      refine ⟨h.distinct.sublist (List.take_sublist 1 codes), List.nodup_singleton code, ?_⟩
      rintro c hc d hd rfl
      exact hfree (List.mem_singleton.mp hd ▸ List.mem_of_mem_take hc)
    · refine List.nodup_cons.mpr ⟨fun hc => hfree (List.mem_of_mem_drop hc), ?_⟩
      exact h.distinct.sublist (List.drop_sublist 1 codes)
  nonempty := by
    intro hmem
    rcases mem_placed hmem with heq | hmem
    · exact hcode heq.symm
    · exact h.nonempty hmem

theorem GoodCodes.erase {codes : List String} (h : GoodCodes codes) (code : String) :
    GoodCodes (codes.filter (· ≠ code)) where
  short := Nat.le_trans (List.length_filter_le _ codes) h.short
  distinct := h.distinct.filter _
  nonempty := fun hmem => h.nonempty (List.mem_filter.mp hmem).1

theorem GoodCodes.nil : GoodCodes [] := ⟨by decide, List.nodup_nil, by simp⟩

/-- The array that `bindKeyboardKey` writes, holes and all, has these codes. -/
theorem distinctCodes_assignAt {codes : List String} {code : String} (h : GoodCodes codes)
    (hfree : code ∉ codes) (hcode : code ≠ "") (slot : Nat) :
    distinctCodes (if slot = 1 then assignAt 1 (.string code) ((codes.map .string).map some)
        else assignAt 0 (.string code) ((codes.map .string).map some)) =
      ((placed codes code slot).map .string : List (JsonValue ν)) := by
  have hshort := h.short
  have hne := h.nonempty
  rcases codes with _ | ⟨x, _ | ⟨y, _ | ⟨z, codes⟩⟩⟩
  · -- the second slot of no entries: a hole, then the code
    unfold placed
    split <;> simp [distinctCodes, assignAt, isText, List.findIdx_cons, hcode]
  · simp only [List.mem_cons, List.not_mem_nil, or_false] at hne hfree
    unfold placed
    split <;> simp [distinctCodes, assignAt, isText, List.findIdx_cons, hcode, Ne.symm hne, hfree,
      Ne.symm hfree]
  · simp only [List.mem_cons, List.not_mem_nil, or_false, not_or] at hne hfree
    unfold placed
    split <;> simp [distinctCodes, assignAt, isText, List.findIdx_cons, hcode, Ne.symm hne.1,
      Ne.symm hne.2, hfree, Ne.symm hfree.1, Ne.symm hfree.2]
  · simp at hshort

theorem codeList_inj {codes codes' : List String}
    (h : (codeList codes : JsonValue ν) = codeList codes') : codes = codes' :=
  List.map_injective_iff.mpr (fun _ _ => JsonValue.string.inj) (JsonValue.array.inj h)

theorem cleanEntries_map {codes : List String} (h : GoodCodes codes) :
    cleanEntries (codes.map .string) = (codes.map .string : List (JsonValue ν)) := by
  have hfilter : (codes.map .string : List (JsonValue ν)).filter isCode = codes.map .string := by
    rw [List.filter_eq_self]
    intro v hv
    obtain ⟨c, hc, rfl⟩ := List.mem_map.mp hv
    have hne : c ≠ "" := fun hempty => h.nonempty (hempty ▸ hc)
    simp [isCode, hne]
  rw [cleanEntries, hfilter]
  exact List.take_of_length_le (by rw [List.length_map]; exact h.short)

theorem readBinding_codeList {codes : List String} (h : GoodCodes codes) :
    readBinding (codeList codes) = some (codeList codes : JsonValue ν) := by
  rw [codeList, readBinding, cleanEntries_map h]

theorem cleanBinding_codeList {codes : List String} (h : GoodCodes codes) :
    cleanBinding (codeList codes) = (codeList codes : JsonValue ν) := by
  rw [codeList, cleanBinding, cleanEntries_map h]

/-- Removing a code from an array of codes. -/
theorem filter_codeList (codes : List String) (code : String) :
    (bindingEntries (some (codeList codes : JsonValue ν))).filter (fun e => !isText code e) =
      (codes.filter (· ≠ code)).map .string := by
  show (codes.map JsonValue.string).filter _ = _
  rw [List.filter_map]
  congr 1
  refine List.filter_congr fun c _ => ?_
  simp [isText]

/-! ## Unambiguous mappings -/

/-- A mapping over the twelve actions, with good codes for each and no code under two. -/
structure KeyboardMapping.Unambiguous (m : KeyboardMapping ν) : Prop where
  keys : ∀ key, m.lookup key ≠ none ↔ ∃ id ∈ keyboardActions, key = propertyKey id
  codes : ∀ {key value}, m.lookup key = some value →
    ∃ codes, value = codeList codes ∧ GoodCodes codes
  apart : ∀ {key key' codes codes' c}, m.lookup key = some (codeList codes) →
    m.lookup key' = some (codeList codes') → c ∈ codes → c ∈ codes' → key = key'

/-- The mapping lists `code` under `key`. -/
def KeyboardMapping.Lists (m : KeyboardMapping ν) (key code : String) : Prop :=
  ∃ vs, m.lookup key = some (.array vs) ∧ .string code ∈ vs

section

variable {m : KeyboardMapping ν}

theorem KeyboardMapping.Unambiguous.action (h : m.Unambiguous) (action : KeyboardAction) :
    ∃ codes, m.lookup (propertyKey action.1) = some (codeList codes) ∧ GoodCodes codes := by
  have hsome := (h.keys _).mpr ⟨action.1, action.2, rfl⟩
  obtain ⟨value, hvalue⟩ := Option.ne_none_iff_exists'.mp hsome
  obtain ⟨codes, rfl, hgood⟩ := h.codes hvalue
  exact ⟨codes, hvalue, hgood⟩

/-! ## Binding a key -/

/-- What `bindKeyboardKey` makes of the codes under `key`. -/
def boundCodes (action : KeyboardAction) (code : String) (slot : Nat) (key : String)
    (codes : List String) : List String :=
  if key = propertyKey action.1 then placed (codes.filter (· ≠ code)) code slot
  else codes.filter (· ≠ code)

theorem not_mem_erase (codes : List String) (code : String) :
    code ∉ codes.filter (· ≠ code) := by
  simp

theorem boundCodes_good {codes : List String} (h : GoodCodes codes) (action : KeyboardAction)
    {code : String} (hcode : code ≠ "") (slot : Nat) (key : String) :
    GoodCodes (boundCodes action code slot key codes) := by
  unfold boundCodes
  split
  · exact (h.erase code).placed (not_mem_erase codes code) hcode slot
  · exact h.erase code

/-- The code is under its action; every other code was there before. -/
theorem mem_boundCodes {action : KeyboardAction} {code c : String} {slot : Nat} {key : String}
    {codes : List String} (h : c ∈ boundCodes action code slot key codes) :
    c = code ∧ key = propertyKey action.1 ∨ c ≠ code ∧ c ∈ codes := by
  have hold : ∀ {c}, c ∈ codes.filter (· ≠ code) → c ≠ code ∧ c ∈ codes := by
    intro c hc
    rw [List.mem_filter, decide_eq_true_eq] at hc
    exact ⟨hc.2, hc.1⟩
  unfold boundCodes at h
  split at h
  · next hkey =>
    rcases mem_placed h with rfl | hc
    · exact .inl ⟨rfl, hkey⟩
    · exact .inr (hold hc)
  · exact .inr (hold h)

/-- **What `bindKeyboardKey` does to every property.** -/
theorem lookup_bindKeyboardKey (action : KeyboardAction) {code : String}
    (hcode : code ≠ "") (slot : Nat) (key : String) {codes : List String}
    (hcodes : m.lookup key = some (codeList codes)) (hgood : GoodCodes codes) :
    (bindKeyboardKey m action.1 code slot).lookup key =
      some (codeList (boundCodes action code slot key codes)) := by
  rw [bindKeyboardKey, if_neg hcode]
  dsimp only
  rw [HashMap.lookup_insert_eq_ite, boundCodes]
  split
  · next hkey =>
    subst hkey
    have herased : bindingEntries ((HashMap.mapVal (fun _ value => .array
        ((bindingEntries (some value)).filter fun e => !isText code e)) m).lookup
          (propertyKey action.1)) =
        ((codes.filter (· ≠ code)).map .string : List (JsonValue ν)) := by
      rw [HashMap.lookup_mapVal, hcodes]
      exact filter_codeList codes code
    rw [herased, distinctCodes_assignAt (hgood.erase code) (not_mem_erase codes code) hcode]
    rfl
  · rw [HashMap.lookup_mapVal, hcodes, Option.map_some, filter_codeList]
    rfl

theorem lookup_bindKeyboardKey_none (action : KeyboardAction) {code : String}
    (hcode : code ≠ "") (slot : Nat) {key : String} (hkey : key ≠ propertyKey action.1)
    (hnone : m.lookup key = none) : (bindKeyboardKey m action.1 code slot).lookup key = none := by
  rw [bindKeyboardKey, if_neg hcode]
  dsimp only
  rw [HashMap.lookup_insert_eq_ite, if_neg hkey, HashMap.lookup_mapVal, hnone]
  rfl

/-- Where the bindings of a mapping come from, once a key is bound. -/
theorem exists_of_lookup_bind (h : m.Unambiguous) (action : KeyboardAction) {code : String}
    (hcode : code ≠ "") (slot : Nat) {key : String} {value : JsonValue ν}
    (hvalue : (bindKeyboardKey m action.1 code slot).lookup key = some value) :
    ∃ codes, m.lookup key = some (codeList codes) ∧ GoodCodes codes ∧
      value = codeList (boundCodes action code slot key codes) := by
  cases hold : m.lookup key with
  | some old =>
    obtain ⟨codes, rfl, hgood⟩ := h.codes hold
    rw [lookup_bindKeyboardKey action hcode slot key hold hgood] at hvalue
    exact ⟨codes, rfl, hgood, (Option.some.inj hvalue).symm⟩
  | none =>
    have hkey : key ≠ propertyKey action.1 := by
      rintro rfl
      obtain ⟨codes, hcodes, -⟩ := h.action action
      rw [hold] at hcodes
      cases hcodes
    rw [lookup_bindKeyboardKey_none action hcode slot hkey hold] at hvalue
    cases hvalue

theorem KeyboardMapping.Unambiguous.bind (h : m.Unambiguous) (action : KeyboardAction)
    (code : String) (slot : Nat) : (bindKeyboardKey m action.1 code slot).Unambiguous := by
  rcases eq_or_ne code "" with rfl | hcode
  · rw [bindKeyboardKey, if_pos rfl]
    exact h
  constructor
  · intro key
    rw [← h.keys]
    constructor
    · intro hsome
      obtain ⟨value, hvalue⟩ := Option.ne_none_iff_exists'.mp hsome
      obtain ⟨codes, hcodes, -⟩ := exists_of_lookup_bind h action hcode slot hvalue
      rw [hcodes]
      exact Option.some_ne_none _
    · intro hsome
      obtain ⟨value, hvalue⟩ := Option.ne_none_iff_exists'.mp hsome
      obtain ⟨codes, rfl, hgood⟩ := h.codes hvalue
      rw [lookup_bindKeyboardKey action hcode slot key hvalue hgood]
      exact Option.some_ne_none _
  · intro key value hvalue
    obtain ⟨codes, -, hgood, rfl⟩ := exists_of_lookup_bind h action hcode slot hvalue
    exact ⟨_, rfl, boundCodes_good hgood action hcode slot key⟩
  · intro key key' codes codes' c hvalue hvalue' hc hc'
    obtain ⟨old, hold, -, heq⟩ := exists_of_lookup_bind h action hcode slot hvalue
    obtain ⟨old', hold', -, heq'⟩ := exists_of_lookup_bind h action hcode slot hvalue'
    obtain rfl := codeList_inj heq
    obtain rfl := codeList_inj heq'
    rcases mem_boundCodes hc with ⟨hcc, hkey⟩ | ⟨hcc, hmem⟩
    · rcases mem_boundCodes hc' with ⟨-, hkey'⟩ | ⟨hcc', -⟩
      · rw [hkey, hkey']
      · exact absurd hcc hcc'
    · rcases mem_boundCodes hc' with ⟨hcc', -⟩ | ⟨-, hmem'⟩
      · exact absurd hcc' hcc
      · exact h.apart hold hold' hmem hmem'

/-- **A code that is bound is listed under its action and no other.** -/
theorem lists_bindKeyboardKey (h : m.Unambiguous) (action : KeyboardAction) {code : String}
    (hcode : code ≠ "") (slot : Nat) (key : String) :
    KeyboardMapping.Lists (bindKeyboardKey m action.1 code slot) key code ↔
      key = propertyKey action.1 := by
  constructor
  · rintro ⟨vs, hvs, hmem⟩
    obtain ⟨codes, -, -, heq⟩ := exists_of_lookup_bind h action hcode slot hvs
    rw [JsonValue.array.inj heq] at hmem
    obtain ⟨c, hc, heq⟩ := List.mem_map.mp hmem
    rcases mem_boundCodes hc with ⟨-, hkey⟩ | ⟨hne, -⟩
    · exact hkey
    · exact absurd (JsonValue.string.inj heq) hne
  · rintro rfl
    obtain ⟨codes, hcodes, hgood⟩ := h.action action
    refine ⟨_, lookup_bindKeyboardKey action hcode slot _ hcodes hgood, ?_⟩
    rw [boundCodes, if_pos rfl]
    exact List.mem_map.mpr ⟨code, code_mem_placed _ code slot, rfl⟩

/-! ## Clearing -/

theorem KeyboardMapping.Unambiguous.clear (h : m.Unambiguous) (action : KeyboardAction) :
    (clearKeyboardBinding m action.1).Unambiguous := by
  have hlookup : ∀ key, (clearKeyboardBinding m action.1).lookup key =
      if key = propertyKey action.1 then some (codeList []) else m.lookup key :=
    fun key => HashMap.lookup_insert_eq_ite m key (propertyKey action.1) _
  have hnil : ∀ {codes : List String} {c},
      some (codeList [] : JsonValue ν) = some (codeList codes) → c ∉ codes := by
    intro codes c heq
    rw [← codeList_inj (Option.some.inj heq)]
    exact List.not_mem_nil
  constructor
  · intro key
    rw [hlookup]
    split
    · next hkey =>
      exact ⟨fun _ => ⟨action.1, action.2, hkey⟩, fun _ => Option.some_ne_none _⟩
    · exact h.keys key
  · intro key value hvalue
    rw [hlookup] at hvalue
    split at hvalue
    · exact ⟨[], (Option.some.inj hvalue).symm, GoodCodes.nil⟩
    · exact h.codes hvalue
  · intro key key' codes codes' c hvalue hvalue' hc hc'
    rw [hlookup] at hvalue hvalue'
    split at hvalue
    · exact absurd hc (hnil hvalue)
    · split at hvalue'
      · exact absurd hc' (hnil hvalue')
      · exact h.apart hvalue hvalue' hc hc'

end

end CloudGame.Portal
