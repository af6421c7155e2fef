import CloudGame.Lib.Repair
import CloudGame.Portal.JsObject
import Mathlib.Data.Rat.Cast.CharZero
import Mathlib.Data.Rat.Defs

/-!
# The buttons of the phone controller (`arcade-portal/src/controller.jsx`)

The touch mapping gives every button of the phone an action bit.  `normalizeTouchMapping` repairs
whatever it is given, by the two passes of `Filling.repair`; every mapping the page ever holds has
been through it.  Main results: a normalized mapping is a permutation of the action bits
(`normalizeTouchMapping_isPermutation`), so the mapping is one from the load on, whatever is stored
and however the buttons are remapped (`touchMapping_isPermutation`).

A number is `NaN`, an infinity or a rational: more than there are doubles, with `+0` and `-0` one
number, as they are to `===` and to a `Set`.
-/

namespace CloudGame.Portal

open CloudGame.Lib

inductive JsNumber where
  | nan
  | infinity (negative : Bool)
  | finite (q : ℚ)
deriving DecidableEq

/-- `Number.isFinite`. -/
def JsNumber.isFinite : JsNumber → Bool
  | .finite _ => true
  | _ => false

/-! ## Actions and slots -/

/-- The names of `ACTION_BITS`. -/
inductive Action where
  | a | b | x | y | z | c | select | start | up | down | left | right
deriving DecidableEq

namespace Action

def shift : Action → Nat
  | a => 0
  | b => 1
  | x => 2
  | y => 3
  | z => 4
  | c => 5
  | select => 6
  | start => 7
  | up => 8
  | down => 9
  | left => 10
  | right => 11

/-- `ACTION_BITS`. -/
def bit (action : Action) : JsNumber := .finite ((1 <<< action.shift : Nat) : ℚ)

end Action

/-- The actions of `ACTION_OPTIONS`. -/
def actionOptions : List Action :=
  [.up, .down, .left, .right, .a, .b, .x, .y, .z, .c, .start, .select]

def allowedBits : List JsNumber := actionOptions.map Action.bit

/-- The keys of a touch mapping. -/
inductive Slot where
  | up | down | left | right | a | b | c | x | y | z | start | select
deriving DecidableEq

def Slot.key : Slot → String
  | up => "up"
  | down => "down"
  | left => "left"
  | right => "right"
  | a => "a"
  | b => "b"
  | c => "c"
  | x => "x"
  | y => "y"
  | z => "z"
  | start => "start"
  | select => "select"

def slotKeys : List Slot :=
  [.up, .down, .left, .right, .a, .b, .c, .x, .y, .z, .start, .select]

def defaultTouchMapping : Slot → JsNumber
  | .up => Action.up.bit
  | .down => Action.down.bit
  | .left => Action.left.bit
  | .right => Action.right.bit
  | .a => Action.a.bit
  | .b => Action.b.bit
  | .c => Action.c.bit
  | .x => Action.x.bit
  | .y => Action.y.bit
  | .z => Action.z.bit
  | .start => Action.start.bit
  | .select => Action.select.bit

/-! ## The mapping -/

/-- The properties of a mapping object; `none` is `undefined`. -/
abbrev TouchMapping := Slot → Option JsNumber

/-- A mapping as a value. -/
def TouchMapping.toJson (m : TouchMapping) : JsonValue JsNumber :=
  .object (slotKeys.filterMap fun slot => (m slot).map fun bit => (slot.key, .number bit))

/-- `source[slot]`, where that is a number. -/
def numberAt (candidate : JsonValue JsNumber) (slot : Slot) : Option JsNumber :=
  match jsField slot.key candidate with
  | some (.number n) => some n
  | _ => none

def fallbackBits : List JsNumber := slotKeys.map defaultTouchMapping ++ allowedBits

/-- The loop over `SLOT_KEYS` that keeps claims, then the one that fills what is missing. -/
def normalizeTouchMapping (candidate : JsonValue JsNumber) : TouchMapping :=
  Filling.repair allowedBits fallbackBits defaultTouchMapping slotKeys (numberAt candidate)

def defaultTouchMappingJson : JsonValue JsNumber :=
  TouchMapping.toJson fun slot => some (defaultTouchMapping slot)

def loadTouchMappingFromStorage (jsonParse : String → Option (JsonValue JsNumber)) :
    StorageRead → TouchMapping :=
  loadFromStorage normalizeTouchMapping defaultTouchMappingJson jsonParse

/-- A finite number is `===` to itself, so equality is what the code tests. -/
def updateMappingSlot (previous : TouchMapping) (slot : Slot) (nextBit : JsNumber) :
    TouchMapping :=
  if !nextBit.isFinite ∨ previous slot = some nextBit then previous
  else
    let next : TouchMapping := previous
    let next : TouchMapping :=
      match slotKeys.find? fun key => key ≠ slot ∧ next key = some nextBit with
      | some swappedSlot => Function.update next swappedSlot (previous slot)
      | none => next
    let next : TouchMapping := Function.update next slot (some nextBit)
    normalizeTouchMapping next.toJson

def resetMapping : TouchMapping := normalizeTouchMapping defaultTouchMappingJson

/-- What the remap panel does to the mapping. -/
inductive RemapOp where
  | updateMappingSlot (slot : Slot) (nextBit : JsNumber)
  | resetMapping

def RemapOp.apply (m : TouchMapping) : RemapOp → TouchMapping
  | .updateMappingSlot slot nextBit => Portal.updateMappingSlot m slot nextBit
  | .resetMapping => Portal.resetMapping

/-! ## The bits -/

theorem shift_injective {action action' : Action}
    (h : 1 <<< action.shift = 1 <<< action'.shift) : action = action' := by
  cases action <;> cases action' <;> first | rfl | exact absurd h (by decide)

theorem bit_injective : Function.Injective Action.bit := by
  intro action action' h
  simp only [Action.bit, JsNumber.finite.injEq, Nat.cast_inj] at h
  exact shift_injective h

theorem mem_slotKeys (slot : Slot) : slot ∈ slotKeys := by
  cases slot <;> decide

theorem slotKeys_nodup : slotKeys.Nodup := by decide

theorem allowedBits_nodup : allowedBits.Nodup :=
  List.Nodup.map bit_injective (by decide)

theorem length_slotKeys : slotKeys.length = allowedBits.length := rfl

theorem default_mem (slot : Slot) : defaultTouchMapping slot ∈ allowedBits := by
  cases slot <;> exact List.mem_map.mpr ⟨_, by decide, rfl⟩

theorem mem_fallbackBits (bit : JsNumber) : bit ∈ fallbackBits ↔ bit ∈ allowedBits := by
  rw [fallbackBits, List.mem_append, List.mem_map]
  constructor
  · rintro (⟨slot, -, rfl⟩ | h)
    · exact default_mem slot
    · exact h
  · exact .inr

/-! ## Mappings as values -/

theorem key_injective {slot slot' : Slot} (h : slot.key = slot'.key) : slot = slot' := by
  cases slot <;> cases slot' <;> first | rfl | exact absurd h (by decide)

theorem mem_toJson {m : TouchMapping} {slot : Slot} {v : JsonValue JsNumber} :
    (slot.key, v) ∈
        slotKeys.filterMap (fun s => (m s).map fun bit => (s.key, JsonValue.number bit)) ↔
      ∃ bit, m slot = some bit ∧ v = .number bit := by
  simp only [List.mem_filterMap, Option.map_eq_some_iff, Prod.mk.injEq]
  constructor
  · rintro ⟨s, -, bit, hbit, hkey, rfl⟩
    obtain rfl := key_injective hkey
    exact ⟨bit, hbit, rfl⟩
  · rintro ⟨bit, hbit, rfl⟩
    exact ⟨slot, mem_slotKeys slot, bit, hbit, rfl, rfl⟩

/-- The properties of a mapping are read back. -/
theorem numberAt_toJson (m : TouchMapping) : numberAt m.toJson = m := by
  funext slot
  unfold numberAt TouchMapping.toJson
  cases hslot : m slot with
  | some bit =>
    rw [jsField_eq_some (mem_toJson.mpr ⟨bit, hslot, rfl⟩)]
    intro w hw
    obtain ⟨bit', hbit', rfl⟩ := mem_toJson.mp hw
    rw [hslot] at hbit'
    rw [Option.some.inj hbit']
  | none =>
    rw [jsField_eq_none]
    intro w hw
    obtain ⟨bit, hbit, -⟩ := mem_toJson.mp hw
    rw [hslot] at hbit
    cases hbit

/-! ## Permutations -/

/-- The twelve slots have the twelve bits of `ACTION_OPTIONS`, each its own. -/
def TouchMapping.IsPermutation (m : TouchMapping) : Prop :=
  (slotKeys.map m).Nodup ∧ (slotKeys.map m).Perm (allowedBits.map some)

theorem isPermutation_of_perm {m : TouchMapping}
    (h : (slotKeys.map m).Perm (allowedBits.map some)) : m.IsPermutation :=
  ⟨h.nodup_iff.mpr (allowedBits_nodup.map fun _ _ => Option.some.inj), h⟩

/-- **Whatever is normalized becomes a permutation.** -/
theorem normalizeTouchMapping_isPermutation (candidate : JsonValue JsNumber) :
    (normalizeTouchMapping candidate).IsPermutation :=
  isPermutation_of_perm
    (Filling.repair_perm allowedBits_nodup slotKeys_nodup length_slotKeys mem_fallbackBits)

/-- **An allowed bit stays with the first slot that claims it.** -/
theorem normalizeTouchMapping_first {candidate : JsonValue JsNumber} {bit : JsNumber}
    (hbit : bit ∈ allowedBits) {slot : Slot}
    (hfirst : slotKeys.find? (fun s => numberAt candidate s = some bit) = some slot) :
    normalizeTouchMapping candidate slot = some bit :=
  Filling.repair_first allowedBits_nodup (Nat.le_of_eq length_slotKeys) mem_fallbackBits hbit
    hfirst

/-- **A candidate that is a permutation is left as it is.** -/
theorem normalizeTouchMapping_of_perm {candidate : JsonValue JsNumber}
    (h : TouchMapping.IsPermutation (numberAt candidate)) :
    normalizeTouchMapping candidate = numberAt candidate :=
  funext fun slot => Filling.repair_of_perm allowedBits_nodup (Nat.le_of_eq length_slotKeys)
    mem_fallbackBits h.2 (mem_slotKeys slot)

theorem normalizeTouchMapping_toJson {m : TouchMapping} (h : m.IsPermutation) :
    normalizeTouchMapping m.toJson = m := by
  rw [normalizeTouchMapping_of_perm (by rwa [numberAt_toJson]), numberAt_toJson]

theorem RemapOp.apply_isPermutation {m : TouchMapping} (h : m.IsPermutation) (op : RemapOp) :
    (op.apply m).IsPermutation := by
  cases op with
  | updateMappingSlot slot nextBit =>
    show (Portal.updateMappingSlot m slot nextBit).IsPermutation
    unfold Portal.updateMappingSlot
    split
    · exact h
    · exact normalizeTouchMapping_isPermutation _
  | resetMapping => exact normalizeTouchMapping_isPermutation _

theorem remaps_isPermutation (ops : List RemapOp) :
    ∀ {m : TouchMapping}, m.IsPermutation → (ops.foldl RemapOp.apply m).IsPermutation := by
  induction ops with
  | nil => intro m h; exact h
  | cons op ops ih => intro m h; exact ih (op.apply_isPermutation h)

/-! ## A remap is a swap -/

theorem TouchMapping.IsPermutation.injective {m : TouchMapping} (h : m.IsPermutation)
    {slot slot' : Slot} (heq : m slot = m slot') : slot = slot' :=
  List.inj_on_of_nodup_map h.1 (mem_slotKeys slot) (mem_slotKeys slot') heq

theorem TouchMapping.IsPermutation.owner {m : TouchMapping} (h : m.IsPermutation) {bit : JsNumber}
    (hbit : bit ∈ allowedBits) : ∃ slot, m slot = some bit := by
  have hmem : some bit ∈ slotKeys.map m := h.2.mem_iff.mpr (List.mem_map.mpr ⟨bit, hbit, rfl⟩)
  obtain ⟨slot, -, hslot⟩ := List.mem_map.mp hmem
  exact ⟨slot, hslot⟩

theorem TouchMapping.IsPermutation.bit_of {m : TouchMapping} (h : m.IsPermutation) (slot : Slot) :
    ∃ bit ∈ allowedBits, m slot = some bit := by
  have hmem : m slot ∈ allowedBits.map some :=
    h.2.mem_iff.mp (List.mem_map.mpr ⟨slot, mem_slotKeys slot, rfl⟩)
  obtain ⟨bit, hbit, heq⟩ := List.mem_map.mp hmem
  exact ⟨bit, hbit, heq.symm⟩

theorem TouchMapping.IsPermutation.swap {m : TouchMapping} (h : m.IsPermutation)
    (slot slot' : Slot) : TouchMapping.IsPermutation fun key => m (Equiv.swap slot slot' key) := by
  have hperm : (slotKeys.map (Equiv.swap slot slot')).Perm slotKeys := by
    refine (List.perm_ext_iff_of_nodup ?_ slotKeys_nodup).mpr ?_
    · exact slotKeys_nodup.map (Equiv.swap slot slot').injective
    · intro key
      rw [List.mem_map]
      exact ⟨fun _ => mem_slotKeys key,
        fun _ => ⟨Equiv.swap slot slot' key, mem_slotKeys _, Equiv.swap_apply_self slot slot' key⟩⟩
  have hmap := hperm.map m
  rw [List.map_map] at hmap
  exact isPermutation_of_perm (hmap.trans h.2)

/-- Permutations that agree at all slots but one agree. -/
theorem TouchMapping.IsPermutation.eq_of_agree {m m' : TouchMapping} (h : m.IsPermutation)
    (h' : m'.IsPermutation) {slot : Slot} (hagree : ∀ key, key ≠ slot → m' key = m key) :
    m' = m := by
  funext key
  rcases eq_or_ne key slot with rfl | hkey
  · obtain ⟨bit, hbit, heq⟩ := h'.bit_of key
    obtain ⟨owner, howner⟩ := h.owner hbit
    rcases eq_or_ne owner key with rfl | hne
    · rw [heq, howner]
    · have hsame : m' owner = m' key := by rw [hagree owner hne, howner, heq]
      exact absurd (h'.injective hsame) hne
  · exact hagree key hkey

theorem isFinite_of_allowed {bit : JsNumber} (h : bit ∈ allowedBits) : bit.isFinite = true := by
  obtain ⟨action, -, rfl⟩ := List.mem_map.mp h
  rfl

/-- **Remapping a button to an action bit swaps it with the button that has the bit**, and touches
no other. -/
theorem updateMappingSlot_swap {m : TouchMapping} (h : m.IsPermutation) (slot : Slot)
    {bit : JsNumber} (hbit : bit ∈ allowedBits) {owner : Slot} (howner : m owner = some bit) :
    updateMappingSlot m slot bit = fun key => m (Equiv.swap slot owner key) := by
  rcases eq_or_ne slot owner with rfl | hne
  · rw [updateMappingSlot, if_pos (.inr howner)]
    simp
  have hslot : m slot ≠ some bit := fun hs => hne (h.injective (hs.trans howner.symm))
  have hfind : slotKeys.find? (fun key => key ≠ slot ∧ m key = some bit) = some owner := by
    have hfound : (slotKeys.find? fun key => key ≠ slot ∧ m key = some bit).isSome :=
      List.find?_isSome.mpr ⟨owner, mem_slotKeys owner, by simp [hne.symm, howner]⟩
    obtain ⟨key, hkey⟩ := Option.isSome_iff_exists.mp hfound
    have hbits : key ≠ slot ∧ m key = some bit := by simpa using List.find?_some hkey
    rw [hkey, h.injective (hbits.2.trans howner.symm)]
  have hnext : Function.update (Function.update m owner (m slot)) slot (some bit) =
      fun key => m (Equiv.swap slot owner key) := by
    funext key
    rcases eq_or_ne key slot with rfl | hkey
    · rw [Function.update_self, Equiv.swap_apply_left, howner]
    rcases eq_or_ne key owner with rfl | hkey'
    · rw [Function.update_of_ne hkey, Function.update_self, Equiv.swap_apply_right]
    · rw [Function.update_of_ne hkey, Function.update_of_ne hkey',
        Equiv.swap_apply_of_ne_of_ne hkey hkey']
  have hguard : ¬(!bit.isFinite ∨ m slot = some bit) := by
    simp [isFinite_of_allowed hbit, hslot]
  rw [updateMappingSlot, if_neg hguard]
  simp only [hfind, hnext]
  exact normalizeTouchMapping_toJson (h.swap slot owner)

/-- **Remapping a button to any other number changes nothing**: the repair gives the button the one
bit that no other has. -/
theorem updateMappingSlot_foreign {m : TouchMapping} (h : m.IsPermutation) (slot : Slot)
    {bit : JsNumber} (hbit : bit ∉ allowedBits) : updateMappingSlot m slot bit = m := by
  have hnot : ∀ key, m key ≠ some bit := by
    intro key hkey
    obtain ⟨b, hb, heq⟩ := h.bit_of key
    exact hbit (Option.some.inj (hkey.symm.trans heq) ▸ hb)
  rw [updateMappingSlot]
  split
  · rfl
  have hfind : slotKeys.find? (fun key => key ≠ slot ∧ m key = some bit) = none := by
    rw [List.find?_eq_none]
    intro key _
    simp [hnot key]
  simp only [hfind]
  refine h.eq_of_agree (normalizeTouchMapping_isPermutation _) (?_ : ∀ key, key ≠ slot → _)
  intro key hkey
  obtain ⟨b, hb, heq⟩ := h.bit_of key
  have hne : b ≠ bit := fun hbb => hnot key (hbb ▸ heq)
  rw [heq]
  refine normalizeTouchMapping_first hb ?_
  rw [numberAt_toJson]
  have hfound : (slotKeys.find? fun s => Function.update m slot (some bit) s = some b).isSome :=
    List.find?_isSome.mpr ⟨key, mem_slotKeys key, by simp [Function.update_of_ne hkey, heq]⟩
  obtain ⟨first, hfirst⟩ := Option.isSome_iff_exists.mp hfound
  have hclaim : Function.update m slot (some bit) first = some b := by
    simpa using List.find?_some hfirst
  have hfirst' : first ≠ slot := by
    rintro rfl
    rw [Function.update_self] at hclaim
    exact hne (Option.some.inj hclaim).symm
  rw [Function.update_of_ne hfirst'] at hclaim
  rw [hfirst, h.injective (hclaim.trans heq.symm)]

/-! ## Main result -/

/-- **The mapping of the phone is always a permutation**, whatever is stored and whatever remaps
follow the load.  Normalizing keeps each action bit at the first slot that claims it, leaves a
permutation as it is, and so does nothing the second time. -/
theorem touchMapping_isPermutation :
    (∀ jsonParse read ops, TouchMapping.IsPermutation
        (List.foldl RemapOp.apply (loadTouchMappingFromStorage jsonParse read) ops)) ∧
      (∀ candidate bit slot, bit ∈ allowedBits →
        slotKeys.find? (fun s => numberAt candidate s = some bit) = some slot →
        normalizeTouchMapping candidate slot = some bit) ∧
      (∀ candidate, TouchMapping.IsPermutation (numberAt candidate) →
        normalizeTouchMapping candidate = numberAt candidate) ∧
      ∀ candidate, normalizeTouchMapping (normalizeTouchMapping candidate).toJson =
        normalizeTouchMapping candidate := by
  refine ⟨?_, ?_, ?_, ?_⟩
  · intro jsonParse read ops
    obtain ⟨candidate, hload⟩ := exists_loadFromStorage normalizeTouchMapping
      defaultTouchMappingJson jsonParse read
    refine remaps_isPermutation ops ?_
    rw [loadTouchMappingFromStorage, hload]
    exact normalizeTouchMapping_isPermutation candidate
  · intro candidate bit slot hbit hfirst
    exact normalizeTouchMapping_first hbit hfirst
  · intro candidate hperm
    exact normalizeTouchMapping_of_perm hperm
  · intro candidate
    exact normalizeTouchMapping_toJson (normalizeTouchMapping_isPermutation candidate)

end CloudGame.Portal
