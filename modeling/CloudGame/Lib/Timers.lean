import Mathlib.Data.List.Nodup

/-!
# A table of timers

The pending timers of an event loop, each with the identifier it was given when it was set.
Identifiers are not given twice, so a cleared or expired one is never pending again, and an
identifier leads to at most one timer (`Timers.eq_of_id`).  `Timers.Gave` says what an identifier
was given for, which neither setting nor clearing timers changes.
-/

namespace CloudGame.Lib

structure Timer (T : Type) where
  id : Nat
  delay : Nat
  callback : T

structure Timers (T : Type) where
  nextId : Nat
  pending : List (Timer T)
  nodup : (pending.map Timer.id).Nodup
  below : ∀ t ∈ pending, t.id < nextId

namespace Timers

variable {T : Type}

/-- No timers; identifiers start at one. -/
def empty : Timers T := ⟨1, [], List.nodup_nil, fun _ ht => absurd ht List.not_mem_nil⟩

/-- Sets a timer; its identifier is `nextId`. -/
def set (ts : Timers T) (delay : Nat) (callback : T) : Timers T where
  nextId := ts.nextId + 1
  pending := ⟨ts.nextId, delay, callback⟩ :: ts.pending
  nodup := by
    rw [List.map_cons, List.nodup_cons]
    refine ⟨fun hmem => ?_, ts.nodup⟩
    obtain ⟨t, ht, hid⟩ := List.mem_map.mp hmem
    have hlt := ts.below t ht
    rw [hid] at hlt
    exact absurd hlt (Nat.lt_irrefl _)
  below := by
    intro t ht
    rcases List.mem_cons.mp ht with rfl | ht
    · exact Nat.lt_succ_self _
    · exact Nat.lt_succ_of_lt (ts.below t ht)

/-- Clears the timer of that identifier, if there is one. -/
def clear (ts : Timers T) (id : Option Nat) : Timers T where
  nextId := ts.nextId
  pending := ts.pending.filter fun t => decide (id ≠ some t.id)
  nodup := ts.nodup.sublist (List.filter_sublist.map _)
  below := fun t ht => ts.below t (List.mem_of_mem_filter ht)

def find (ts : Timers T) (id : Nat) : Option (Timer T) :=
  ts.pending.find? fun t => decide (t.id = id)

/-! ## Rules -/

variable {ts : Timers T} {t u : Timer T}

@[simp] theorem mem_empty : t ∈ (empty : Timers T).pending ↔ False := by
  simp [empty]

@[simp] theorem mem_set {delay : Nat} {callback : T} :
    t ∈ (ts.set delay callback).pending ↔ t = ⟨ts.nextId, delay, callback⟩ ∨ t ∈ ts.pending :=
  List.mem_cons

@[simp] theorem mem_clear {id : Option Nat} :
    t ∈ (ts.clear id).pending ↔ t ∈ ts.pending ∧ id ≠ some t.id := by
  simp [clear]

@[simp] theorem nextId_set {delay : Nat} {callback : T} :
    (ts.set delay callback).nextId = ts.nextId + 1 := rfl

@[simp] theorem nextId_clear {id : Option Nat} : (ts.clear id).nextId = ts.nextId := rfl

theorem find_some {id : Nat} (h : ts.find id = some t) : t ∈ ts.pending ∧ t.id = id :=
  ⟨List.mem_of_find?_eq_some h, by simpa using List.find?_some h⟩

/-- Two pending timers of one identifier are the same. -/
theorem eq_of_id (ht : t ∈ ts.pending) (hu : u ∈ ts.pending) (hid : t.id = u.id) : t = u :=
  List.inj_on_of_nodup_map ts.nodup ht hu hid

/-- The identifier was given to a timer of that callback, pending or not. -/
def Gave (ts : Timers T) (id : Nat) (callback : T) : Prop :=
  id < ts.nextId ∧ ∀ t ∈ ts.pending, t.id = id → t.callback = callback

theorem gave_set {delay : Nat} {callback : T} :
    (ts.set delay callback).Gave ts.nextId callback := by
  refine ⟨Nat.lt_succ_self _, fun t ht hid => ?_⟩
  rcases mem_set.mp ht with rfl | ht
  · rfl
  · exact absurd (ts.below t ht) (hid ▸ Nat.lt_irrefl _)

theorem Gave.set {id delay : Nat} {callback callback' : T} (h : ts.Gave id callback) :
    (ts.set delay callback').Gave id callback := by
  refine ⟨Nat.lt_succ_of_lt h.1, fun t ht hid => ?_⟩
  rcases mem_set.mp ht with rfl | ht
  · exact absurd h.1 (hid ▸ Nat.lt_irrefl _)
  · exact h.2 t ht hid

theorem Gave.clear {id : Nat} {callback : T} {id' : Option Nat} (h : ts.Gave id callback) :
    (ts.clear id').Gave id callback :=
  ⟨h.1, fun t ht => h.2 t (mem_clear.mp ht).1⟩

end Timers

end CloudGame.Lib
