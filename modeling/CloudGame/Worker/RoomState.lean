import CloudGame.Lib.HashMap

/-!
# Player slots and pending inputs (`arcade-worker/src/room_state.rs`)

`PlayerSlots` are eight slots, and no client has two of them: both are fields of the structure, so
every table is one.  `PendingInputs` keeps, for each client, the newest 64 inputs that wait for a
slot.
-/

namespace CloudGame.Worker

open CloudGame.Lib

abbrev Payload : Type := List UInt8

def maxPlayers : Nat := 8
def maxPendingInputBatches : Nat := 64

/-! ## Player slots -/

structure PlayerSlots where
  slots : List (Option String)
  size : slots.length = maxPlayers
  distinct : ∀ (i j : Nat) (c : String),
    slots[i]? = some (some c) → slots[j]? = some (some c) → i = j

namespace PlayerSlots

def new : PlayerSlots where
  slots := List.replicate maxPlayers none
  size := List.length_replicate
  distinct := by
    intro i j c hi
    rw [List.getElem?_replicate] at hi
    split at hi <;> cases hi

def slotForClient (s : PlayerSlots) (clientId : String) : Option Nat :=
  s.slots.findIdx? fun slot => slot == some clientId

/-- The lowest free slot. -/
def freeSlot (s : PlayerSlots) : Option Nat := s.slots.findIdx? Option.isNone

theorem slotForClient_eq_some {s : PlayerSlots} {c : String} {i : Nat} :
    s.slotForClient c = some i ↔ s.slots[i]? = some (some c) := by
  unfold slotForClient
  rw [List.findIdx?_eq_some_iff_getElem]
  constructor
  · rintro ⟨hi, hc, _⟩
    rw [List.getElem?_eq_getElem hi, eq_of_beq hc]
  · intro h
    obtain ⟨hi, hc⟩ := List.getElem?_eq_some_iff.mp h
    refine ⟨hi, by rw [hc, beq_self_eq_true], fun j hji hj => ?_⟩
    have hj' : s.slots[j]? = some (some c) := by
      rw [List.getElem?_eq_getElem (by omega), eq_of_beq hj]
    have := s.distinct i j c h hj'
    omega

theorem slotForClient_eq_none {s : PlayerSlots} {c : String} :
    s.slotForClient c = none ↔ ∀ i : Nat, s.slots[i]? ≠ some (some c) := by
  constructor
  · intro h i hi
    rw [slotForClient_eq_some.mpr hi] at h
    cases h
  · intro h
    cases hs : s.slotForClient c with
    | none => rfl
    | some i => exact absurd (slotForClient_eq_some.mp hs) (h i)

/-- `self.slots[slot] = Some(client_id)` for a client that has none. -/
def occupy (s : PlayerSlots) (clientId : String) (slot : Nat)
    (h : s.slotForClient clientId = none) : PlayerSlots where
  slots := s.slots.set slot (some clientId)
  size := by rw [List.length_set]; exact s.size
  distinct := by
    intro i j c hi hj
    rw [List.getElem?_set] at hi hj
    have hnone := slotForClient_eq_none.mp h
    split at hi
    · next hslot =>
      split at hj
      · omega
      · split at hi
        · cases hi; exact absurd hj (hnone j)
        · cases hi
    · split at hj
      · split at hj
        · cases hj; exact absurd hi (hnone i)
        · cases hj
      · exact s.distinct i j c hi hj

/-- `self.slots[slot] = None`. -/
def vacate (s : PlayerSlots) (slot : Nat) : PlayerSlots where
  slots := s.slots.set slot none
  size := by rw [List.length_set]; exact s.size
  distinct := by
    intro i j c hi hj
    rw [List.getElem?_set] at hi hj
    split at hi
    · split at hi <;> cases hi
    · split at hj
      · split at hj <;> cases hj
      · exact s.distinct i j c hi hj

/-- `assign_client`: the slot, whether it is newly assigned, and the slots then. -/
def assignClient (s : PlayerSlots) (clientId : String) : (Option Nat × Bool) × PlayerSlots :=
  match h : s.slotForClient clientId with
  | some existingSlot => ((some existingSlot, false), s)
  | none =>
    match s.freeSlot with
    | some slot => ((some slot, true), s.occupy clientId slot h)
    | none => ((none, false), s)

/-- `release_client`: whether the client had a slot, and the slots then. -/
def releaseClient (s : PlayerSlots) (clientId : String) : Bool × PlayerSlots :=
  match s.slotForClient clientId with
  | none => (false, s)
  | some slot => (true, s.vacate slot)

def count (s : PlayerSlots) : Nat := s.slots.countP Option.isSome

/-! ### What they do -/

/-- A client has a slot after `assign_client` unless all were taken; the others keep theirs. -/
theorem slotForClient_assignClient (s : PlayerSlots) (c c' : String) :
    (s.assignClient c).2.slotForClient c' =
      if c' = c then (s.assignClient c).1.1 else s.slotForClient c' := by
  unfold assignClient
  split
  · next i hi =>
    split
    · next he => rw [he, hi]
    · rfl
  · next hnone =>
    split
    · next slot hfree =>
      obtain ⟨hlt, hslot, _⟩ := List.findIdx?_eq_some_iff_getElem.mp hfree
      have hslot' : s.slots[slot]? = some none := by
        rw [List.getElem?_eq_getElem hlt, Option.isNone_iff_eq_none.mp hslot]
      split
      · next he =>
        rw [slotForClient_eq_some, he]
        show (s.slots.set slot (some c))[slot]? = _
        rw [List.getElem?_set_self hlt]
      · next he =>
        apply Option.ext
        intro i
        rw [slotForClient_eq_some, slotForClient_eq_some]
        show (s.slots.set slot (some c))[i]? = _ ↔ _
        rw [List.getElem?_set]
        split
        · next hi =>
          rw [← hi, hslot']
          simp [Ne.symm he]
        · exact Iff.rfl
    · split
      · next he => rw [he, hnone]
      · rfl

/-- A client that had no slot and has one is newly assigned. -/
theorem assignClient_isNew {s : PlayerSlots} {c : String} (h : s.slotForClient c = none)
    (hslot : (s.assignClient c).1.1 ≠ none) : (s.assignClient c).1.2 = true := by
  unfold assignClient at hslot ⊢
  split at hslot
  · next i hi => rw [hi] at h; cases h
  · split at hslot
    · rfl
    · exact absurd rfl hslot

theorem slotForClient_releaseClient (s : PlayerSlots) (c c' : String) :
    (s.releaseClient c).2.slotForClient c' = if c' = c then none else s.slotForClient c' := by
  unfold releaseClient
  split
  · next hnone =>
    split
    · next he => rw [he, hnone]
    · rfl
  · next slot hslot =>
    have hslot' := slotForClient_eq_some.mp hslot
    split
    · next he =>
      rw [slotForClient_eq_none, he]
      intro i
      show (s.slots.set slot none)[i]? ≠ _
      rw [List.getElem?_set]
      split
      · split <;> simp
      · next hi => exact fun h => hi (s.distinct slot i c hslot' h)
    · next he =>
      apply Option.ext
      intro i
      rw [slotForClient_eq_some, slotForClient_eq_some]
      show (s.slots.set slot none)[i]? = _ ↔ _
      rw [List.getElem?_set]
      split
      · next hi =>
        rw [← hi, hslot']
        split <;> simp [Ne.symm he]
      · exact Iff.rfl

end PlayerSlots

/-! ## Pending inputs -/

structure PendingInputs where
  pending : HashMap String (List Payload)

namespace PendingInputs

def empty : PendingInputs := ⟨∅⟩

/-- `queue_client`: the bucket keeps its newest `maxPendingInputBatches` payloads. -/
def queueClient (p : PendingInputs) (clientId : String) (payload : Payload) : PendingInputs :=
  let bucket := (p.pending.lookup clientId).getD [] ++ [payload]
  ⟨p.pending.insert clientId (bucket.drop (bucket.length - maxPendingInputBatches))⟩

/-- `drain_client`: the payloads that waited, and what is pending then. -/
def drainClient (p : PendingInputs) (clientId : String) : List Payload × PendingInputs :=
  ((p.pending.lookup clientId).getD [], ⟨p.pending.erase clientId⟩)

theorem lookup_queueClient_of_ne (p : PendingInputs) {c c' : String} (payload : Payload)
    (h : c' ≠ c) : (p.queueClient c payload).pending.lookup c' = p.pending.lookup c' :=
  AList.lookup_insert_ne h

theorem lookup_drainClient (p : PendingInputs) (c c' : String) :
    (p.drainClient c).2.pending.lookup c' = if c' = c then none else p.pending.lookup c' :=
  HashMap.lookup_erase_eq_ite p.pending c' c

end PendingInputs

end CloudGame.Worker
