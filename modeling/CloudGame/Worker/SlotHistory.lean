import CloudGame.Worker.RoomState
import Mathlib.Data.Finset.Card

/-!
# Who has which player slot (`PlayerSlots` in `arcade-worker/src/room_state.rs`)

The index of a slot is the port of the emulator, so what counts is that a client keeps it.
`slotForClient_after` reads the slots off the history: a client has the slot that it was assigned
and did not release since.  `holders` are the clients that have a slot.

* `player_slots`: what the slots are after any sequence of assignments and releases, and what
  either of them does then.
-/

namespace CloudGame.Worker

inductive SlotAction where
  | assign (clientId : String)
  | release (clientId : String)
deriving DecidableEq

namespace PlayerSlots

def act (s : PlayerSlots) : SlotAction → PlayerSlots
  | .assign c => (s.assignClient c).2
  | .release c => (s.releaseClient c).2

/-- The slots after the actions, oldest first. -/
def after (actions : List SlotAction) : PlayerSlots := actions.foldl act new

theorem after_append_single (actions : List SlotAction) (a : SlotAction) :
    after (actions ++ [a]) = (after actions).act a := by
  rw [after, List.foldl_append]
  rfl

/-! ## The history of a client -/

theorem slotForClient_new (c : String) : new.slotForClient c = none := by
  refine slotForClient_eq_none.mpr fun i hi => ?_
  rw [new, List.getElem?_replicate] at hi
  split at hi <;> cases hi

theorem assignClient_existing {s : PlayerSlots} {c : String} {i : Nat}
    (h : s.slotForClient c = some i) : s.assignClient c = ((some i, false), s) := by
  unfold assignClient
  split
  · next j hj =>
    rw [h] at hj
    cases hj
    rfl
  · next hnone =>
    rw [h] at hnone
    cases hnone

/-- A client keeps its slot through everything but its release. -/
theorem slotForClient_act {s : PlayerSlots} {c : String} {i : Nat} {a : SlotAction}
    (h : s.slotForClient c = some i) (ha : a ≠ .release c) :
    (s.act a).slotForClient c = some i := by
  cases a with
  | assign c' =>
    show (s.assignClient c').2.slotForClient c = some i
    rw [slotForClient_assignClient]
    split
    · next he =>
      subst he
      rw [assignClient_existing h]
    · exact h
  | release c' =>
    show (s.releaseClient c').2.slotForClient c = some i
    rw [slotForClient_releaseClient, if_neg, h]
    rintro rfl
    exact ha rfl

/-- Assigned the slot, and not released since. -/
def AssignedSince (actions : List SlotAction) (c : String) (i : Nat) : Prop :=
  ∃ before later, actions = before ++ .assign c :: later ∧
    ((after before).assignClient c).1.1 = some i ∧ .release c ∉ later

/-- **The slots are those of the history.** -/
theorem slotForClient_after {actions : List SlotAction} {c : String} {i : Nat} :
    (after actions).slotForClient c = some i ↔ AssignedSince actions c i := by
  constructor
  · intro h
    induction actions using List.reverseRecOn with
    | nil => rw [after, List.foldl_nil, slotForClient_new] at h; cases h
    | append_singleton actions a ih =>
      rw [after_append_single] at h
      have hkept : (after actions).slotForClient c = some i → a ≠ .release c →
          AssignedSince (actions ++ [a]) c i := by
        intro hbefore ha
        obtain ⟨before, later, rfl, hassign, hlater⟩ := ih hbefore
        refine ⟨before, later ++ [a], by rw [List.append_assoc, List.cons_append], hassign, ?_⟩
        rw [List.mem_append, List.mem_singleton, not_or]
        exact ⟨hlater, Ne.symm ha⟩
      cases a with
      | assign c' =>
        replace h : ((after actions).assignClient c').2.slotForClient c = some i := h
        rw [slotForClient_assignClient] at h
        split at h
        · next he =>
          subst he
          exact ⟨actions, [], rfl, h, List.not_mem_nil⟩
        · exact hkept h nofun
      | release c' =>
        replace h : ((after actions).releaseClient c').2.slotForClient c = some i := h
        rw [slotForClient_releaseClient] at h
        split at h
        · cases h
        · next hne =>
          refine hkept h ?_
          rintro ⟨⟩
          exact hne rfl
  · rintro ⟨before, later, rfl, hassign, hlater⟩
    induction later using List.reverseRecOn with
    | nil =>
      rw [after_append_single]
      show ((after before).assignClient c).2.slotForClient c = some i
      rw [slotForClient_assignClient, if_pos rfl, hassign]
    | append_singleton later a ih =>
      rw [List.mem_append, not_or, List.mem_singleton] at hlater
      rw [← List.cons_append, ← List.append_assoc, after_append_single]
      exact slotForClient_act (ih hlater.1) (Ne.symm hlater.2)

/-! ## The clients that have a slot -/

theorem holders_nodup (s : PlayerSlots) : (s.slots.filterMap id).Nodup := by
  have hpairs : s.slots.Pairwise fun a b => ∀ c, a = some c → b ≠ some c := by
    refine List.pairwise_iff_getElem.mpr fun i j hi hj hij c ha hb => ?_
    have he := s.distinct i j c (by rw [List.getElem?_eq_getElem hi, ha])
      (by rw [List.getElem?_eq_getElem hj, hb])
    exact absurd he (Nat.ne_of_lt hij)
  refine hpairs.filterMap id ?_
  rintro a b hab c rfl d rfl rfl
  exact hab c rfl rfl

def holders (s : PlayerSlots) : Finset String := ⟨s.slots.filterMap id, s.holders_nodup⟩

theorem mem_holders {s : PlayerSlots} {c : String} :
    c ∈ s.holders ↔ s.slotForClient c ≠ none := by
  have hmem : c ∈ s.holders ↔ some c ∈ s.slots := by
    show c ∈ s.slots.filterMap id ↔ _
    simp
  rw [hmem, List.mem_iff_getElem?, ne_eq, slotForClient_eq_none]
  push Not
  rfl

theorem card_holders (s : PlayerSlots) : s.holders.card = s.count :=
  List.length_filterMap_eq_countP

theorem count_le (s : PlayerSlots) : s.count ≤ maxPlayers :=
  s.size ▸ List.countP_le_length

/-- There is no free slot when all are taken. -/
theorem freeSlot_eq_none {s : PlayerSlots} : s.freeSlot = none ↔ s.count = maxPlayers := by
  unfold freeSlot count
  rw [← s.size, List.countP_eq_length, List.findIdx?_eq_none_iff]
  simp only [Option.isNone_eq_false_iff]

/-- Nobody is given a slot when eight others have them. -/
theorem assignClient_eq_none {s : PlayerSlots} {c : String} : (s.assignClient c).1.1 = none ↔
    ∃ others : Finset String, others.card = maxPlayers ∧ c ∉ others ∧
      ∀ d ∈ others, s.slotForClient d ≠ none := by
  constructor
  · intro h
    unfold assignClient at h
    split at h
    · cases h
    · next hnone =>
      split at h
      · cases h
      · next hfree =>
        refine ⟨s.holders, ?_, fun hmem => mem_holders.mp hmem hnone, fun d => mem_holders.mp⟩
        rw [card_holders, freeSlot_eq_none.mp hfree]
  · rintro ⟨others, hcard, hc, hothers⟩
    have hsub : others ⊆ s.holders := fun d hd => mem_holders.mpr (hothers d hd)
    have hle : s.holders.card ≤ others.card := by
      rw [card_holders, hcard]
      exact s.count_le
    have hsame := Finset.eq_of_subset_of_card_le hsub hle
    have hfree : s.freeSlot = none := by
      rw [freeSlot_eq_none, ← card_holders, ← hsame, hcard]
    unfold assignClient
    split
    · next i hi =>
      have hmem : c ∈ s.holders := mem_holders.mpr (by rw [hi]; nofun)
      rw [← hsame] at hmem
      exact absurd hmem hc
    · rw [hfree]

/-! ## The result -/

/-- A new assignment is of the lowest free slot, and changes only that. -/
theorem assignClient_new {s : PlayerSlots} {c : String} {i : Nat}
    (h : (s.assignClient c).1.1 = some i) (hnone : s.slotForClient c = none) :
    (s.assignClient c).1.2 = true ∧ s.slots[i]? = some none ∧
      (∀ j < i, ∃ d, s.slots[j]? = some (some d)) ∧
      (s.assignClient c).2.slots = s.slots.set i (some c) := by
  refine ⟨assignClient_isNew hnone (by rw [h]; nofun), ?_⟩
  unfold assignClient at h ⊢
  split at h
  · next j hj =>
    rw [hnone] at hj
    cases hj
  · next hnone' =>
    split at h
    · next slot hfree =>
      cases h
      obtain ⟨hlt, hslot, hbelow⟩ := List.findIdx?_eq_some_iff_getElem.mp hfree
      refine ⟨?_, fun j hj => ?_, rfl⟩
      · rw [List.getElem?_eq_getElem hlt, Option.isNone_iff_eq_none.mp hslot]
      · have htaken := hbelow j hj
        rw [Bool.not_eq_true, Option.isNone_eq_false_iff, Option.isSome_iff_exists] at htaken
        obtain ⟨d, hd⟩ := htaken
        exact ⟨d, by rw [List.getElem?_eq_getElem (by omega), hd]⟩
    · cases h

/-- Release frees the client's slot and leaves the others as they are. -/
theorem slots_releaseClient (s : PlayerSlots) (c : String) (j : Nat) :
    (s.releaseClient c).2.slots[j]? =
      if s.slots[j]? = some (some c) then some none else s.slots[j]? := by
  unfold releaseClient
  split
  · next hnone => rw [if_neg (slotForClient_eq_none.mp hnone j)]
  · next slot hslot =>
    have hc := slotForClient_eq_some.mp hslot
    show (s.slots.set slot none)[j]? = _
    by_cases he : slot = j
    · subst he
      rw [if_pos hc, List.getElem?_set_self (List.getElem?_eq_some_iff.mp hc).1]
    · rw [List.getElem?_set_ne he, if_neg fun hj => he (s.distinct _ _ c hc hj)]

/-- What the slots `s` after the actions are, and what an action does to them. -/
structure SlotsAfter (actions : List SlotAction) (s : PlayerSlots) : Prop where
  size : s.slots.length = 8
  distinct : ∀ (i j : Nat) (c : String), s.slots[i]? = some (some c) →
    s.slots[j]? = some (some c) → i = j
  history : ∀ c i, s.slotForClient c = some i ↔ AssignedSince actions c i
  again : ∀ c i, s.slotForClient c = some i → s.assignClient c = ((some i, false), s)
  lowest : ∀ c i, s.slotForClient c = none → (s.assignClient c).1.1 = some i →
    (s.assignClient c).1.2 = true ∧ s.slots[i]? = some none ∧
      (∀ j < i, ∃ d, s.slots[j]? = some (some d)) ∧
      (s.assignClient c).2.slots = s.slots.set i (some c)
  full : ∀ c, (s.assignClient c).1.1 = none ↔ ∃ others : Finset String, others.card = 8 ∧
    c ∉ others ∧ ∀ d ∈ others, s.slotForClient d ≠ none
  released : ∀ c, (s.releaseClient c).1 = true ↔ s.slotForClient c ≠ none
  frees : ∀ (c : String) (j : Nat), (s.releaseClient c).2.slots[j]? =
    if s.slots[j]? = some (some c) then some none else s.slots[j]?
  count : ∃ clients : Finset String, (∀ c, c ∈ clients ↔ s.slotForClient c ≠ none) ∧
    s.count = clients.card

/-- **Player slots.**  After any sequence of assignments and releases there are eight slots, a
client has the slot it was assigned and did not release since, and assigning, releasing and counting
do what they say. -/
theorem player_slots (actions : List SlotAction) : SlotsAfter actions (after actions) where
  size := (after actions).size
  distinct := (after actions).distinct
  history _ _ := slotForClient_after
  again _ _ := assignClient_existing
  lowest _ _ hnone hassign := assignClient_new hassign hnone
  full _ := assignClient_eq_none
  released c := by
    unfold releaseClient
    split
    · next hnone => exact iff_of_false Bool.false_ne_true (not_not_intro hnone)
    · next slot hslot => exact iff_of_true rfl (by rw [hslot]; nofun)
  frees c j := slots_releaseClient _ c j
  count := ⟨(after actions).holders, fun _ => mem_holders, (card_holders _).symm⟩

end PlayerSlots

end CloudGame.Worker
