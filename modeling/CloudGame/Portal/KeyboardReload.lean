import CloudGame.Portal.KeyboardMapping

/-!
# Keyboard bindings over a session, and after a reload (`arcade-portal/src/App.jsx`)

`normalizeKeyboardMapping` leaves an unambiguous mapping as it is: it has all the actions, so that
no default comes back, and its bindings have nothing to clean.  Main results: the saved text of an
unambiguous mapping loads to the mapping (`load_save`), the defaults are unambiguous
(`defaultKeyMap_unambiguous`), and the mapping stays so whatever is bound, cleared and reset
(`keyboardMapping_unambiguous`).
-/

namespace CloudGame.Portal

open CloudGame.Lib

variable {ν : Type}

/-! ## The defaults -/

theorem lookup_defaultKeyMap (key : String) (value : JsonValue ν) :
    (defaultKeyMap : KeyboardMapping ν).lookup key = some value ↔
      ∃ e ∈ defaultKeys, key = propertyKey e.1 ∧ value = codeList e.2 := by
  have hkeys : (defaultKeys.map fun e => propertyKey e.1).Nodup := by decide
  rw [defaultKeyMap, HashMap.lookup_ofEntries]
  · simp only [List.mem_map, Prod.mk.injEq]
    constructor
    · rintro ⟨e, he, rfl, rfl⟩
      exact ⟨e, he, rfl, rfl⟩
    · rintro ⟨e, he, rfl, rfl⟩
      exact ⟨e, he, rfl, rfl⟩
  · intro v v' hv hv'
    simp only [List.mem_map, Prod.mk.injEq] at hv hv'
    obtain ⟨e, he, hkey, rfl⟩ := hv
    obtain ⟨e', he', hkey', rfl⟩ := hv'
    rw [List.inj_on_of_nodup_map hkeys he he' (hkey.trans hkey'.symm)]

theorem defaultKeys_good : ∀ e ∈ defaultKeys, GoodCodes e.2 := by
  have hshort : ∀ e ∈ defaultKeys, e.2.length ≤ 2 := by decide
  have hdistinct : ∀ e ∈ defaultKeys, e.2.Nodup := by decide
  have hnonempty : ∀ e ∈ defaultKeys, "" ∉ e.2 := by decide
  exact fun e he => ⟨hshort e he, hdistinct e he, hnonempty e he⟩

theorem defaultKeys_apart : ∀ e ∈ defaultKeys, ∀ e' ∈ defaultKeys, ∀ c ∈ e.2, c ∈ e'.2 →
    e.1 = e'.1 := by
  decide

theorem mem_keyboardActions (id : Nat) :
    id ∈ keyboardActions ↔ ∃ e ∈ defaultKeys, e.1 = id := by
  rw [← List.mem_map]
  exact List.Perm.mem_iff (by decide)

theorem defaultKeyMap_unambiguous : (defaultKeyMap : KeyboardMapping ν).Unambiguous where
  keys := by
    intro key
    rw [Option.ne_none_iff_exists']
    simp only [lookup_defaultKeyMap, mem_keyboardActions]
    constructor
    · rintro ⟨value, e, he, rfl, -⟩
      exact ⟨e.1, ⟨e, he, rfl⟩, rfl⟩
    · rintro ⟨id, ⟨e, he, rfl⟩, rfl⟩
      exact ⟨codeList e.2, e, he, rfl, rfl⟩
  codes := by
    intro key value hvalue
    obtain ⟨e, he, -, rfl⟩ := (lookup_defaultKeyMap key value).mp hvalue
    exact ⟨e.2, rfl, defaultKeys_good e he⟩
  apart := by
    intro key key' codes codes' c hvalue hvalue' hc hc'
    obtain ⟨e, he, rfl, heq⟩ := (lookup_defaultKeyMap key _).mp hvalue
    obtain ⟨e', he', rfl, heq'⟩ := (lookup_defaultKeyMap key' _).mp hvalue'
    rw [codeList_inj heq] at hc
    rw [codeList_inj heq'] at hc'
    rw [defaultKeys_apart e he e' he' c hc hc']

/-! ## Normalizing -/

section

variable {m : KeyboardMapping ν}

theorem mem_jsEntries_toJson (m : KeyboardMapping ν) (key : String) (value : JsonValue ν) :
    (key, value) ∈ jsEntries m.toJson ↔ m.lookup key = some value := by
  show (key, value) ∈ (HashMap.ofEntries m.items).items ↔ _
  rw [HashMap.mem_items, HashMap.lookup_ofEntries, HashMap.mem_items]
  intro v v' hv hv'
  rw [HashMap.mem_items] at hv hv'
  rw [hv] at hv'
  exact Option.some.inj hv'

theorem propertyKey_ne_proto {id : Nat} (h : id ∈ keyboardActions) :
    propertyKey id ≠ "__proto__" := by
  revert id
  decide

/-- The first loop keeps the properties of an unambiguous mapping as they are. -/
theorem mem_kept (h : m.Unambiguous) (key : String) (value : JsonValue ν) :
    (key, value) ∈ ((jsEntries m.toJson).filterMap fun e =>
        if e.1 = "__proto__" then none else (readBinding e.2).map fun value => (e.1, value)) ↔
      m.lookup key = some value := by
  have hkeep : ∀ {key : String} {value : JsonValue ν}, m.lookup key = some value →
      key ≠ "__proto__" ∧ readBinding value = some value := by
    intro key value hvalue
    obtain ⟨id, hid, rfl⟩ := (h.keys key).mp (Option.ne_none_iff_exists'.mpr ⟨value, hvalue⟩)
    obtain ⟨codes, rfl, hgood⟩ := h.codes hvalue
    exact ⟨propertyKey_ne_proto hid, readBinding_codeList hgood⟩
  rw [List.mem_filterMap]
  constructor
  · rintro ⟨⟨key', value'⟩, hmem, heq⟩
    rw [mem_jsEntries_toJson] at hmem
    obtain ⟨hproto, hread⟩ := hkeep hmem
    dsimp only at heq
    rw [if_neg hproto, hread] at heq
    obtain ⟨rfl, rfl⟩ := Prod.mk.inj (Option.some.inj heq)
    exact hmem
  · intro hvalue
    obtain ⟨hproto, hread⟩ := hkeep hvalue
    refine ⟨(key, value), (mem_jsEntries_toJson m key value).mpr hvalue, ?_⟩
    dsimp only
    rw [if_neg hproto, hread]
    rfl

/-- **An unambiguous mapping is left as it is**, every property of it, and gets no other. -/
theorem lookup_normalizeKeyboardMapping (h : m.Unambiguous) (key : String) :
    (normalizeKeyboardMapping m.toJson).lookup key = m.lookup key := by
  unfold normalizeKeyboardMapping
  dsimp only
  generalize hkept : HashMap.ofEntries ((jsEntries m.toJson).filterMap fun e =>
    if e.1 = "__proto__" then none else (readBinding e.2).map fun value => (e.1, value)) = kept
  have hlookup : ∀ value, kept.lookup key = some value ↔ m.lookup key = some value := by
    intro value
    rw [← hkept, HashMap.lookup_ofEntries, mem_kept h]
    intro v v' hv hv'
    rw [mem_kept h] at hv hv'
    rw [hv] at hv'
    exact Option.some.inj hv'
  rw [HashMap.lookup_mapVal]
  cases hvalue : m.lookup key with
  | some value =>
    obtain ⟨codes, rfl, hgood⟩ := h.codes hvalue
    have hmem : key ∈ kept := by
      rw [← AList.lookup_isSome, (hlookup _).mpr hvalue]
      rfl
    rw [AList.lookup_union_left hmem, (hlookup _).mpr hvalue, Option.map_some,
      cleanBinding_codeList hgood]
  | none =>
    have hmem : key ∉ kept := by
      rw [← AList.lookup_eq_none, Option.eq_none_iff_forall_ne_some]
      intro value hkeptv
      rw [hlookup, hvalue] at hkeptv
      cases hkeptv
    have hdefault : (defaultKeyMap : KeyboardMapping ν).lookup key = none := by
      by_contra hsome
      exact (h.keys key).mpr ((defaultKeyMap_unambiguous.keys key).mp hsome) hvalue
    rw [AList.lookup_union_right hmem, hdefault, Option.map_none]

/-- Mappings with the same properties are unambiguous together. -/
theorem KeyboardMapping.Unambiguous.congr {m' : KeyboardMapping ν} (h : m.Unambiguous)
    (heq : ∀ key, m'.lookup key = m.lookup key) : m'.Unambiguous where
  keys := fun key => heq key ▸ h.keys key
  codes := fun hvalue => h.codes ((heq _).symm.trans hvalue)
  apart := fun hvalue hvalue' =>
    h.apart ((heq _).symm.trans hvalue) ((heq _).symm.trans hvalue')

theorem resetKeyboardBindings_unambiguous :
    (resetKeyboardBindings : KeyboardMapping ν).Unambiguous :=
  defaultKeyMap_unambiguous.congr (lookup_normalizeKeyboardMapping defaultKeyMap_unambiguous)

/-! ## Saving and loading -/

theorem toJson_plain (h : m.Unambiguous) : Js.Plain 3 m.toJson := by
  refine .object ?_
  rintro ⟨key, value⟩ hmem
  obtain ⟨codes, rfl, -⟩ := h.codes (HashMap.mem_items.mp hmem)
  refine .array ?_
  intro v hv
  obtain ⟨code, -, rfl⟩ := List.mem_map.mp hv
  exact .string code

/-- **A saved mapping is loaded as it was.** -/
theorem load_save (readNumber : List Char → ν) (printNumber : ν → List Char) (h : m.Unambiguous)
    (key : String) :
    (loadKeyboardMappingFromStorage (Js.jsonParse readNumber)
        (.item (some (Js.jsonStringify printNumber m.toJson)))).lookup key = m.lookup key := by
  have hplain := toJson_plain h
  rw [loadKeyboardMappingFromStorage, loadFromStorage,
    if_neg (Js.jsonStringify_ne_empty printNumber hplain),
    Js.jsonParse_jsonStringify readNumber printNumber hplain]
  exact lookup_normalizeKeyboardMapping h key

/-! ## Main result -/

theorem BindingOp.apply_unambiguous (h : m.Unambiguous) (op : BindingOp) :
    (op.apply m).Unambiguous := by
  cases op with
  | bind action code slot => exact h.bind action code slot
  | clear action => exact h.clear action
  | reset => exact resetKeyboardBindings_unambiguous

theorem bindings_unambiguous (ops : List BindingOp) :
    ∀ {m : KeyboardMapping ν}, m.Unambiguous → (ops.foldl BindingOp.apply m).Unambiguous := by
  induction ops with
  | nil => intro m h; exact h
  | cons op ops ih => intro m h; exact ih (op.apply_unambiguous h)

/-- **The keyboard bindings stay unambiguous** whatever is bound, cleared and reset; a code that is
bound is then under its action and no other; and the mapping survives being saved and loaded. -/
theorem keyboardMapping_unambiguous (readNumber : List Char → ν) (printNumber : ν → List Char)
    (m : KeyboardMapping ν) (h : m.Unambiguous) (ops : List BindingOp) :
    KeyboardMapping.Unambiguous (ops.foldl BindingOp.apply m) ∧
      (∀ (action : KeyboardAction) (code : String) (slot : Nat) (key : String), code ≠ "" →
        (KeyboardMapping.Lists (bindKeyboardKey (ops.foldl BindingOp.apply m) action.1 code slot)
          key code ↔ key = propertyKey action.1)) ∧
      ∀ key, (loadKeyboardMappingFromStorage (Js.jsonParse readNumber)
          (.item (some (Js.jsonStringify printNumber
            (KeyboardMapping.toJson (ops.foldl BindingOp.apply m)))))).lookup key =
        (ops.foldl BindingOp.apply m).lookup key := by
  have hend := bindings_unambiguous ops h
  refine ⟨hend, ?_, load_save readNumber printNumber hend⟩
  intro action code slot key hcode
  exact lists_bindKeyboardKey hend action hcode slot key

/-- From the defaults, over a session that moves a key and clears an action. -/
theorem keyboardMapping_unambiguous_defaults :
    KeyboardMapping.Unambiguous (List.foldl BindingOp.apply (defaultKeyMap : KeyboardMapping Nat)
      [.bind ⟨Joypad.joypadA, by decide⟩ "KeyW" 1, .clear ⟨Joypad.joypadB, by decide⟩]) :=
  (keyboardMapping_unambiguous (fun _ => 0) (fun _ => ['0']) defaultKeyMap
    defaultKeyMap_unambiguous _).1

end

end CloudGame.Portal
