import CloudGame.Worker.VideoQueue
import Mathlib.Data.List.ReduceOption

/-!
# The video queue, call after call (`VideoSampleQueue` in `arcade-worker/src/room.rs`)

`push`, `pop` and `close` as whole calls, one after the other.  `pushLocked_outcome` says what the
lock section of a `push` can do, in five ways, and everything else is read off it.

* `push_run`, `pop_run`, `close_run`: a call that runs alone takes the queue of `QueueSystem` where
  the whole call takes it.
* `queue_fifo`: the queue is bounded, hands out samples in the order of the pushes, and every push
  tells what it did.
* `keyframes_kept`: a push of a delta keeps every queued keyframe exactly when the queue is not full
  with a keyframe behind a keyframe at its front (`keyframe_evicted`).
-/

namespace CloudGame.Worker

open CloudGame.Lib

variable {Media : Type}

namespace VideoSampleQueue

def push (q : VideoSampleQueue Media) (sample : VideoSample Media) :
    VideoQueuePushResult × VideoSampleQueue Media :=
  if q.closed then ({ droppedIncoming := true }, q)
  else
    let out := pushLocked q.capacity q.buffer sample
    let q' := { q with buffer := out.2 }
    if out.1.droppedIncoming then (out.1, q')
    else (out.1, { q' with notify := (q.notify.notifyOne none).1 })

/-- `pop` with nobody else about: `none` when it waits. -/
def pop (q : VideoSampleQueue Media) :
    Option (Option (VideoSample Media) × VideoSampleQueue Media) :=
  match q.buffer with
  | front :: rest => some (some front, { q with buffer := rest })
  | [] => if q.closed then some (none, q) else none

def close (q : VideoSampleQueue Media) : VideoSampleQueue Media :=
  { q with closed := true, notify := (q.notify.notifyWaiters none).1 }

end VideoSampleQueue

section Push

variable {q : VideoSampleQueue Media} {sample : VideoSample Media}

theorem push_closed (hclosed : q.closed = true) :
    q.push sample = ({ droppedIncoming := true }, q) :=
  if_pos hclosed

theorem push_refused (hopen : ¬ q.closed = true)
    (hdrop : (pushLocked q.capacity q.buffer sample).1.droppedIncoming = true) :
    q.push sample = ((pushLocked q.capacity q.buffer sample).1,
      { q with buffer := (pushLocked q.capacity q.buffer sample).2 }) := by
  rw [VideoSampleQueue.push, if_neg hopen]
  exact if_pos hdrop

theorem push_accepted (hopen : ¬ q.closed = true)
    (hkeep : ¬ (pushLocked q.capacity q.buffer sample).1.droppedIncoming = true) :
    q.push sample = ((pushLocked q.capacity q.buffer sample).1,
      { q with
        buffer := (pushLocked q.capacity q.buffer sample).2
        notify := (q.notify.notifyOne none).1 }) := by
  rw [VideoSampleQueue.push, if_neg hopen]
  exact if_neg hkeep

/-- On an open queue a push is its lock section, and a notification that the buffer does not
show. -/
theorem push_open (hopen : ¬ q.closed = true) (sample : VideoSample Media) :
    (q.push sample).1 = (pushLocked q.capacity q.buffer sample).1 ∧
      (q.push sample).2.buffer = (pushLocked q.capacity q.buffer sample).2 ∧
      (q.push sample).2.capacity = q.capacity ∧ (q.push sample).2.closed = q.closed := by
  by_cases hdrop : (pushLocked q.capacity q.buffer sample).1.droppedIncoming = true
  · rw [push_refused hopen hdrop]
    exact ⟨rfl, rfl, rfl, rfl⟩
  · rw [push_accepted hopen hdrop]
    exact ⟨rfl, rfl, rfl, rfl⟩

end Push

inductive QueueCall (Media : Type) where
  | push (sample : VideoSample Media)
  | pop
  | close

namespace VideoSampleQueue

def call (q : VideoSampleQueue Media) : QueueCall Media → Option (VideoSampleQueue Media)
  | .push sample => some (q.push sample).2
  | .pop => q.pop.map Prod.snd
  | .close => some q.close

end VideoSampleQueue

/-! ## What a push does -/

/-- The five ways a `push` goes on a queue that holds `buffer`. -/
inductive PushOutcome (capacity : Nat) (buffer : List (VideoSample Media))
    (sample : VideoSample Media) : VideoQueuePushResult × List (VideoSample Media) → Prop
  | appended (hroom : buffer.length < capacity) :
      PushOutcome capacity buffer sample
        ({ lenAfter := buffer.length + 1 }, buffer ++ [sample])
  | replaced (hfull : capacity ≤ buffer.length) (hkey : sample.isKeyframe = true) :
      PushOutcome capacity buffer sample
        ({ wasFull := true, droppedExisting := buffer.length, lenAfter := 1 }, [sample])
  | refused (hfull : capacity ≤ buffer.length) (hdelta : sample.isKeyframe = false)
      (front : VideoSample Media) (hfront : front.isKeyframe = true) (hbuf : buffer = [front]) :
      PushOutcome capacity buffer sample
        ({ wasFull := true, droppedIncoming := true, lenAfter := 1 }, [front])
  | evictedSecond (hfull : capacity ≤ buffer.length) (hdelta : sample.isKeyframe = false)
      (front second : VideoSample Media) (rest : List (VideoSample Media))
      (hfront : front.isKeyframe = true) (hbuf : buffer = front :: second :: rest) :
      PushOutcome capacity buffer sample
        ({ wasFull := true, droppedExisting := 1, lenAfter := buffer.length },
          front :: rest ++ [sample])
  | evictedFront (hfull : capacity ≤ buffer.length) (hdelta : sample.isKeyframe = false)
      (front : VideoSample Media) (rest : List (VideoSample Media))
      (hfront : front.isKeyframe = false) (hbuf : buffer = front :: rest) :
      PushOutcome capacity buffer sample
        ({ wasFull := true, droppedExisting := 1, lenAfter := buffer.length }, rest ++ [sample])

theorem pushLocked_outcome {capacity : Nat} (hpos : 0 < capacity)
    (buffer : List (VideoSample Media)) (sample : VideoSample Media) :
    PushOutcome capacity buffer sample (pushLocked capacity buffer sample) := by
  unfold pushLocked
  by_cases hfull : buffer.length ≥ capacity
  · rw [if_pos hfull]
    by_cases hkey : sample.isKeyframe = true
    · rw [if_pos hkey]
      exact .replaced hfull hkey
    · rw [if_neg hkey]
      have hdelta : sample.isKeyframe = false := by simpa using hkey
      cases buffer with
      | nil =>
        have hzero : capacity ≤ 0 := hfull
        omega
      | cons front rest =>
        dsimp only
        by_cases hfront : front.isKeyframe = true
        · rw [if_pos hfront]
          cases rest with
          | nil =>
            rw [if_pos List.length_singleton]
            exact .refused hfull hdelta front hfront rfl
          | cons second rest =>
            have hlen : ¬ (front :: second :: rest).length = 1 := by simp
            rw [if_neg hlen]
            have hout := PushOutcome.evictedSecond hfull hdelta front second rest hfront rfl
            simpa [pushBack] using hout
        · rw [if_neg hfront]
          have hfront' : front.isKeyframe = false := by simpa using hfront
          have hout := PushOutcome.evictedFront hfull hdelta front rest hfront' rfl
          simpa [pushBack] using hout
  · rw [if_neg hfull]
    have hout : PushOutcome capacity buffer sample _ := .appended (Nat.lt_of_not_le hfull)
    simpa [pushBack] using hout

/-! ## A call that runs alone -/

section Alone

variable {s : QueueSystem Media} {id : Nat}

/-- What a call that ran alone leaves: the queue as given, the consumer and the other calls as they
were. -/
structure Ran (s : QueueSystem Media) (queue : VideoSampleQueue Media) (s' : QueueSystem Media) :
    Prop where
  run : ∃ as, Run QueueSystem.step s as s'
  queue : s'.queue = queue
  consumer : s'.consumer = s.consumer
  calls : s'.calls = s.calls

theorem produce_step {call : Producer Media} (hcall : s.calls id = some call) :
    s.step (.produce id) = some (s.produce id call) := by
  show (s.calls id).map _ = _
  rw [hcall]
  rfl

theorem push_step (hfree : s.calls id = none) (sample : VideoSample Media) :
    s.step (.push id sample) = some (s.setCall id (some (.loadClosed sample))) := by
  simp only [QueueSystem.step, hfree]

theorem close_step (hfree : s.calls id = none) :
    s.step (.close id) = some (s.setCall id (some .storeClosed)) := by
  simp only [QueueSystem.step, hfree]

/-- A call is over. -/
theorem calls_ended (hfree : s.calls id = none) (call : Option (Producer Media)) :
    Function.update (Function.update s.calls id call) id none = s.calls := by
  rw [Function.update_idem, ← hfree, Function.update_eq_self]

theorem push_run (hfree : s.calls id = none) (hwait : s.waiter = none)
    (sample : VideoSample Media) : ∃ s', Ran s (s.queue.push sample).2 s' := by
  have hbegin := push_step hfree sample
  let s₁ := s.setCall id (some (.loadClosed sample))
  have hcall₁ : s₁.calls id = some (.loadClosed sample) := Function.update_self ..
  have hload := produce_step hcall₁
  have hrun₁ : Run QueueSystem.step s [.push id sample] s₁ := RunWhen.nil.snoc _ trivial hbegin
  by_cases hclosed : s.queue.closed = true
  · -- the call finds the queue closed
    have hload' : s₁.produce id (.loadClosed sample) = s₁.setCall id none := if_pos hclosed
    rw [hload'] at hload
    refine ⟨s₁.setCall id none, ⟨_, hrun₁.snoc _ trivial hload⟩, ?_, rfl, calls_ended hfree _⟩
    rw [push_closed hclosed]
    rfl
  · have hload' : s₁.produce id (.loadClosed sample) = s₁.setCall id (some (.lockBuffer sample)) :=
      if_neg hclosed
    rw [hload'] at hload
    let s₂ := s₁.setCall id (some (.lockBuffer sample))
    have hcall₂ : s₂.calls id = some (.lockBuffer sample) := Function.update_self ..
    have hlock := produce_step hcall₂
    have hrun₂ := hrun₁.snoc _ trivial hload
    let out := pushLocked s.queue.capacity s.queue.buffer sample
    let pushed : VideoSampleQueue Media := { s.queue with buffer := out.2 }
    by_cases hdrop : out.1.droppedIncoming = true
    · -- the sample is refused and nobody is notified
      have hlock' : s₂.produce id (.lockBuffer sample) =
          QueueSystem.setCall { s₂ with queue := pushed } id none :=
        congrArg (QueueSystem.setCall _ id) (if_pos hdrop)
      rw [hlock'] at hlock
      refine ⟨_, ⟨_, hrun₂.snoc _ trivial hlock⟩, ?_, rfl, ?_⟩
      · rw [push_refused hclosed hdrop]
        rfl
      · show Function.update (Function.update (Function.update s.calls id _) id _) id none = s.calls
        rw [Function.update_idem]
        exact calls_ended hfree _
    · have hlock' : s₂.produce id (.lockBuffer sample) =
          QueueSystem.setCall { s₂ with queue := pushed } id (some .notifyOne) :=
        congrArg (QueueSystem.setCall _ id) (if_neg hdrop)
      rw [hlock'] at hlock
      let s₃ : QueueSystem Media :=
        QueueSystem.setCall { s₂ with queue := pushed } id (some .notifyOne)
      have hcall₃ : s₃.calls id = some .notifyOne := Function.update_self ..
      have hnotify := produce_step hcall₃
      have hwait₃ : s₃.waiter = none := hwait
      refine ⟨_, ⟨_, (hrun₂.snoc _ trivial hlock).snoc _ trivial hnotify⟩, ?_, ?_, ?_⟩
      · rw [push_accepted hclosed hdrop]
        show { pushed with notify := (s.queue.notify.notifyOne s₃.waiter).1 } = _
        rw [hwait₃]
      · show (s₃.setNotify (s.queue.notify.notifyOne s₃.waiter)).consumer = s.consumer
        rw [hwait₃]
        rfl
      · show Function.update (Function.update (Function.update (Function.update s.calls id _) id _)
          id _) id none = s.calls
        rw [Function.update_idem, Function.update_idem]
        exact calls_ended hfree _

theorem close_run (hfree : s.calls id = none) (hwait : s.waiter = none) :
    ∃ s', Ran s s.queue.close s' := by
  have hbegin := close_step hfree
  let s₁ := s.setCall id (some .storeClosed)
  have hcall₁ : s₁.calls id = some .storeClosed := Function.update_self ..
  have hstore := produce_step hcall₁
  let s₂ := s₁.produce id .storeClosed
  have hcall₂ : s₂.calls id = some .notifyWaiters := Function.update_self ..
  have hnotify := produce_step hcall₂
  have hwait₂ : s₂.waiter = none := hwait
  have hrun₁ : Run QueueSystem.step s [.close id] s₁ := RunWhen.nil.snoc _ trivial hbegin
  refine ⟨_, ⟨_, (hrun₁.snoc _ trivial hstore).snoc _ trivial hnotify⟩, ?_, ?_, ?_⟩
  · show { s.queue with closed := true, notify := (s.queue.notify.notifyWaiters s₂.waiter).1 } = _
    rw [hwait₂]
    rfl
  · show (s₂.setNotify (s.queue.notify.notifyWaiters s₂.waiter)).consumer = s.consumer
    rw [hwait₂]
    rfl
  · show Function.update (Function.update (Function.update s.calls id _) id _) id none = s.calls
    rw [Function.update_idem]
    exact calls_ended hfree _

/-- A `pop` that does not wait: the consumer goes on, or is done when there is nothing left. -/
theorem pop_run {out : Option (VideoSample Media) × VideoSampleQueue Media}
    (hidle : s.consumer = .idle) (hpop : s.queue.pop = some out) :
    ∃ as, Run QueueSystem.step s as
      { s with queue := out.2, consumer := if out.1.isSome then .idle else .finished } := by
  have hbegin : s.step .pop = some { s with consumer := .lockBuffer } := if_pos hidle
  have hrun : Run QueueSystem.step s [.pop] { s with consumer := .lockBuffer } :=
    RunWhen.nil.snoc _ trivial hbegin
  have hlock : QueueSystem.step { s with consumer := .lockBuffer } .consume =
      QueueSystem.consume { s with consumer := .lockBuffer } := rfl
  unfold VideoSampleQueue.pop at hpop
  cases hbuf : s.queue.buffer with
  | cons front rest =>
    simp only [hbuf] at hpop
    cases hpop
    simp only [QueueSystem.consume, hbuf] at hlock
    exact ⟨_, hrun.snoc _ trivial hlock⟩
  | nil =>
    simp only [hbuf] at hpop
    simp only [QueueSystem.consume, hbuf] at hlock
    split at hpop
    · next hclosed =>
      cases hpop
      have hload : QueueSystem.step { s with consumer := .loadClosed } .consume =
          some { s with consumer := .finished } := if_pos hclosed
      exact ⟨_, (hrun.snoc _ trivial hlock).snoc _ trivial hload⟩
    · cases hpop

end Alone

/-! ## Order, bound and accounting -/

/-- The samples given to `push` and the results of `pop` so far, oldest first. -/
structure QueueHistory (Media : Type) where
  pushed : List (VideoSample Media)
  returned : List (Option (VideoSample Media))

namespace QueueHistory

def empty : QueueHistory Media := ⟨[], []⟩

/-- The samples that `pop` returned. -/
def popped (h : QueueHistory Media) : List (VideoSample Media) := h.returned.reduceOption

def next (q : VideoSampleQueue Media) (c : QueueCall Media) (h : QueueHistory Media) :
    QueueHistory Media :=
  match c with
  | .push sample => { h with pushed := h.pushed ++ [sample] }
  | .pop => { h with returned := h.returned ++ (q.pop.map Prod.fst).toList }
  | .close => h

end QueueHistory

/-- One call on the queue, with the history beside it. -/
def callAndNote : VideoSampleQueue Media × QueueHistory Media → QueueCall Media →
    Option (VideoSampleQueue Media × QueueHistory Media) :=
  withGhost VideoSampleQueue.call QueueHistory.next

/-- What a `push` reports about the buffer before it and after it. -/
structure Truthful (capacity : Nat) (before : List (VideoSample Media))
    (out : VideoQueuePushResult × List (VideoSample Media)) : Prop where
  accounted : before.length + 1 =
    out.1.lenAfter + out.1.droppedExisting + if out.1.droppedIncoming then 1 else 0
  lenAfter : out.1.lenAfter = out.2.length
  wasFull : out.1.wasFull = true ↔ before.length = capacity

section Lock

variable {capacity : Nat} {buffer : List (VideoSample Media)} {sample : VideoSample Media}
  {out : VideoQueuePushResult × List (VideoSample Media)}

theorem PushOutcome.truthful (h : PushOutcome capacity buffer sample out)
    (hbound : buffer.length ≤ capacity) : Truthful capacity buffer out := by
  cases h with
  | appended hroom =>
    refine ⟨rfl, by simp, ?_⟩
    simp only [Bool.false_eq_true, false_iff]
    omega
  | replaced hfull hkey =>
    refine ⟨Nat.add_comm _ _, rfl, ?_⟩
    simp only [true_iff]
    omega
  | refused hfull hdelta front hfront hbuf =>
    subst hbuf
    exact ⟨rfl, rfl, iff_of_true rfl (Nat.le_antisymm hbound hfull)⟩
  | evictedSecond hfull hdelta front second rest hfront hbuf =>
    subst hbuf
    exact ⟨rfl, by simp, iff_of_true rfl (Nat.le_antisymm hbound hfull)⟩
  | evictedFront hfull hdelta front rest hfront hbuf =>
    subst hbuf
    exact ⟨rfl, by simp, iff_of_true rfl (Nat.le_antisymm hbound hfull)⟩

theorem PushOutcome.bounded (h : PushOutcome capacity buffer sample out) (hpos : 0 < capacity)
    (hbound : buffer.length ≤ capacity) : out.2.length ≤ capacity := by
  have hlen := (h.truthful hbound).lenAfter
  have hcount := (h.truthful hbound).accounted
  cases h with
  | appended hroom =>
    rw [← hlen]
    exact hroom
  | replaced hfull hkey => exact hpos
  | refused hfull hdelta front hfront hbuf => exact hpos
  | evictedSecond hfull hdelta front second rest hfront hbuf =>
    rw [← hlen]
    exact hbound
  | evictedFront hfull hdelta front rest hfront hbuf =>
    rw [← hlen]
    exact hbound

/-- What is in the buffer then was in it or is the new sample, in the same order. -/
theorem PushOutcome.sublist (h : PushOutcome capacity buffer sample out) :
    out.2.Sublist (buffer ++ [sample]) := by
  cases h with
  | appended hroom => exact List.Sublist.refl _
  | replaced hfull hkey => exact List.sublist_append_right _ _
  | refused hfull hdelta front hfront hbuf =>
    subst hbuf
    exact List.sublist_append_left _ _
  | evictedSecond hfull hdelta front second rest hfront hbuf =>
    subst hbuf
    exact ((List.sublist_cons_self second _).cons_cons front)
  | evictedFront hfull hdelta front rest hfront hbuf =>
    subst hbuf
    exact List.sublist_cons_self front _

/-- A keyframe that comes to a full queue ends alone in it. -/
theorem PushOutcome.keyframe (h : PushOutcome capacity buffer sample out)
    (hfull : buffer.length = capacity) (hkey : sample.isKeyframe = true) : out.2 = [sample] := by
  cases h with
  | appended hroom => omega
  | replaced _ _ => rfl
  | refused _ hdelta _ _ _ => rw [hkey] at hdelta; cases hdelta
  | evictedSecond _ hdelta _ _ _ _ _ => rw [hkey] at hdelta; cases hdelta
  | evictedFront _ hdelta _ _ _ _ => rw [hkey] at hdelta; cases hdelta

end Lock

/-- What every run keeps: the capacity, the bound on the buffer, and the order of the samples. -/
structure SamplesInOrder (capacity : Nat) (s : VideoSampleQueue Media × QueueHistory Media) :
    Prop where
  sized : s.1.capacity = max capacity 1
  bounded : s.1.buffer.length ≤ max capacity 1
  ordered : (s.2.popped ++ s.1.buffer).Sublist s.2.pushed

section Calls

variable {capacity : Nat} {q : VideoSampleQueue Media}
  {s s' : VideoSampleQueue Media × QueueHistory Media}

theorem SamplesInOrder.outcome (h : SamplesInOrder capacity s) (sample : VideoSample Media) :
    PushOutcome (max capacity 1) s.1.buffer sample
      (pushLocked s.1.capacity s.1.buffer sample) := by
  have hpos : 0 < max capacity 1 := Nat.lt_of_lt_of_le Nat.zero_lt_one (Nat.le_max_right _ _)
  rw [h.sized]
  exact pushLocked_outcome hpos _ _

theorem samplesInOrder_push (h : SamplesInOrder capacity s) (sample : VideoSample Media) :
    SamplesInOrder capacity
      ((s.1.push sample).2, { s.2 with pushed := s.2.pushed ++ [sample] }) := by
  have hkeep : s.2.pushed.Sublist (s.2.pushed ++ [sample]) := List.sublist_append_left _ _
  by_cases hclosed : s.1.closed = true
  · rw [push_closed hclosed]
    exact ⟨h.sized, h.bounded, h.ordered.trans hkeep⟩
  · obtain ⟨-, hbuf, hcap, -⟩ := push_open hclosed sample
    have hout := h.outcome sample
    have hpos : 0 < max capacity 1 := Nat.lt_of_lt_of_le Nat.zero_lt_one (Nat.le_max_right _ _)
    refine ⟨hcap.trans h.sized, ?_, ?_⟩
    · show (s.1.push sample).2.buffer.length ≤ _
      rw [hbuf]
      exact hout.bounded hpos h.bounded
    · show (s.2.popped ++ (s.1.push sample).2.buffer).Sublist (s.2.pushed ++ [sample])
      rw [hbuf]
      have hsub := hout.sublist.append_left s.2.popped
      rw [← List.append_assoc] at hsub
      exact hsub.trans (h.ordered.append_right [sample])

theorem popped_append (h : QueueHistory Media) (r : Option (VideoSample Media)) :
    QueueHistory.popped { h with returned := h.returned ++ [r] } = h.popped ++ r.toList := by
  unfold QueueHistory.popped
  rw [List.reduceOption_append]
  cases r <;> rfl

/-- What a `pop` that returns takes from the buffer. -/
theorem pop_some {out : Option (VideoSample Media) × VideoSampleQueue Media}
    (h : q.pop = some out) :
    q.buffer = out.1.toList ++ out.2.buffer ∧ out.2.capacity = q.capacity ∧
      out.2.closed = q.closed := by
  unfold VideoSampleQueue.pop at h
  split at h
  · next front rest hbuf =>
    cases h
    exact ⟨hbuf, rfl, rfl⟩
  · split at h
    · cases h
      exact ⟨rfl, rfl, rfl⟩
    · cases h

theorem next_pop {h : QueueHistory Media}
    {out : Option (VideoSample Media) × VideoSampleQueue Media} (hpop : q.pop = some out) :
    QueueHistory.next q .pop h = { h with returned := h.returned ++ [out.1] } := by
  show { h with returned := h.returned ++ (q.pop.map Prod.fst).toList } = _
  rw [hpop]
  rfl

theorem samplesInOrder_pop (h : SamplesInOrder capacity s)
    {out : Option (VideoSample Media) × VideoSampleQueue Media} (hpop : s.1.pop = some out) :
    SamplesInOrder capacity (out.2, QueueHistory.next s.1 .pop s.2) := by
  obtain ⟨hbuf, hcap, -⟩ := pop_some hpop
  rw [next_pop hpop]
  refine ⟨hcap.trans h.sized, ?_, ?_⟩
  · have hle := h.bounded
    rw [hbuf, List.length_append] at hle
    exact Nat.le_trans (Nat.le_add_left _ _) hle
  · show (QueueHistory.popped { s.2 with returned := s.2.returned ++ [out.1] } ++
      out.2.buffer).Sublist s.2.pushed
    rw [popped_append, List.append_assoc, ← hbuf]
    exact h.ordered

theorem samplesInOrder_step (h : SamplesInOrder capacity s) {c : QueueCall Media}
    (hs : callAndNote s c = some s') : SamplesInOrder capacity s' := by
  obtain ⟨hcall, hnote⟩ := withGhost_eq_some hs
  obtain ⟨q', hist'⟩ := s'
  dsimp only at hcall hnote
  subst hnote
  cases c with
  | push sample =>
    cases hcall
    exact samplesInOrder_push h sample
  | pop =>
    obtain ⟨out, hpop, rfl⟩ := Option.map_eq_some_iff.mp hcall
    exact samplesInOrder_pop h hpop
  | close =>
    cases hcall
    exact ⟨h.sized, h.bounded, h.ordered⟩

theorem samplesInOrder_run {cs : List (QueueCall Media)}
    (h : Run callAndNote (VideoSampleQueue.new capacity, QueueHistory.empty) cs s) :
    SamplesInOrder capacity s := by
  have hinit : SamplesInOrder capacity
      ((VideoSampleQueue.new capacity, QueueHistory.empty) :
        VideoSampleQueue Media × QueueHistory Media) :=
    ⟨rfl, Nat.zero_le _, List.Sublist.refl _⟩
  exact h.invariant hinit fun _ _ _ hi _ hs => samplesInOrder_step hi hs

end Calls

/-! ## The queue when it is closed -/

/-- What the pops on a closed queue have returned: the first of the samples that remained, and
`None` only once there are no more. -/
def Drained (remaining buffer : List (VideoSample Media))
    (returned : List (Option (VideoSample Media))) : Prop :=
  ∃ taken n, returned = taken.map some ++ List.replicate n none ∧ taken ++ buffer = remaining ∧
    (n = 0 ∨ buffer = [])

section Closed

variable {q : VideoSampleQueue Media} {remaining : List (VideoSample Media)}
  {returned : List (Option (VideoSample Media))}
  {s s' : VideoSampleQueue Media × QueueHistory Media}

/-- A `pop` on a closed queue does not wait. -/
theorem pop_closed (hclosed : q.closed = true) : q.pop.isSome = true := by
  unfold VideoSampleQueue.pop
  split
  · rfl
  · rw [if_pos hclosed]
    rfl

theorem drained_pop (h : Drained remaining q.buffer returned)
    {out : Option (VideoSample Media) × VideoSampleQueue Media} (hpop : q.pop = some out) :
    Drained remaining out.2.buffer (returned ++ [out.1]) := by
  obtain ⟨taken, n, hret, hrem, hend⟩ := h
  unfold VideoSampleQueue.pop at hpop
  split at hpop
  · next front rest hbuf =>
    cases hpop
    have hn : n = 0 := hend.resolve_right (by simp [hbuf])
    subst hn
    refine ⟨taken ++ [front], 0, ?_, ?_, Or.inl rfl⟩
    · rw [hret]
      simp
    · rw [List.append_assoc, ← hrem, hbuf]
      rfl
  · next hbuf =>
    split at hpop
    · cases hpop
      refine ⟨taken, n + 1, ?_, hrem, Or.inr hbuf⟩
      rw [hret, List.append_assoc, List.replicate_succ']
    · cases hpop

theorem drained_step (hclosed : s.1.closed = true) (h : Drained remaining s.1.buffer s.2.returned)
    {c : QueueCall Media} (hs : callAndNote s c = some s') :
    s'.1.closed = true ∧ Drained remaining s'.1.buffer s'.2.returned := by
  obtain ⟨hcall, hnote⟩ := withGhost_eq_some hs
  obtain ⟨q', hist'⟩ := s'
  dsimp only at hcall hnote
  subst hnote
  cases c with
  | push sample =>
    cases hcall
    rw [push_closed hclosed]
    exact ⟨hclosed, h⟩
  | pop =>
    obtain ⟨out, hpop, rfl⟩ := Option.map_eq_some_iff.mp hcall
    rw [next_pop hpop]
    exact ⟨(pop_some hpop).2.2.trans hclosed, drained_pop h hpop⟩
  | close =>
    cases hcall
    exact ⟨rfl, h⟩

theorem drained_run {cs : List (QueueCall Media)}
    (h : Run callAndNote (q.close, QueueHistory.empty) cs s) :
    s.1.closed = true ∧ Drained q.buffer s.1.buffer s.2.returned := by
  have hinit : Drained q.buffer q.close.buffer ([] : List (Option (VideoSample Media))) :=
    ⟨[], 0, rfl, rfl, Or.inl rfl⟩
  exact h.invariant (I := fun s => s.1.closed = true ∧ Drained q.buffer s.1.buffer s.2.returned)
    ⟨rfl, hinit⟩ fun _ _ _ hi _ hs => drained_step hi.1 hi.2 hs

end Closed

/-! ## The results -/

/-- What holds of a queue with requested capacity `capacity` after any calls. -/
structure BoundedFifo (capacity : Nat) (q : VideoSampleQueue Media) (h : QueueHistory Media) :
    Prop where
  bounded : q.buffer.length ≤ max capacity 1
  ordered : (h.popped ++ q.buffer).Sublist h.pushed
  truthful : q.closed = false → ∀ sample, Truthful (max capacity 1) q.buffer
    ((q.push sample).1, (q.push sample).2.buffer)
  keyframe : q.closed = false → q.buffer.length = max capacity 1 → ∀ sample,
    sample.isKeyframe = true → (q.push sample).2.buffer = [sample]
  pushClosed : q.closed = true → ∀ sample, (q.push sample).2 = q
  popClosed : q.closed = true → q.pop.isSome = true
  drained : ∀ cs q' h', Run callAndNote (q.close, QueueHistory.empty) cs (q', h') →
    Drained q.buffer q'.buffer h'.returned

/-- **The video queue is a bounded queue** in which samples are dropped and never moved, and whose
pushes report what they did. -/
theorem queue_fifo {capacity : Nat} {cs : List (QueueCall Media)} {q : VideoSampleQueue Media}
    {h : QueueHistory Media}
    (hrun : Run callAndNote (VideoSampleQueue.new capacity, QueueHistory.empty) cs (q, h)) :
    BoundedFifo capacity q h := by
  have hinv := samplesInOrder_run hrun
  have hopen : ∀ sample, q.closed = false →
      (q.push sample).1 = (pushLocked q.capacity q.buffer sample).1 ∧
        (q.push sample).2.buffer = (pushLocked q.capacity q.buffer sample).2 := by
    intro sample hclosed
    have hpush := push_open (q := q) (by simp [hclosed]) sample
    exact ⟨hpush.1, hpush.2.1⟩
  refine ⟨hinv.bounded, hinv.ordered, ?_, ?_, ?_, pop_closed, ?_⟩
  · intro hclosed sample
    obtain ⟨hres, hbuf⟩ := hopen sample hclosed
    rw [hres, hbuf]
    exact (hinv.outcome sample).truthful hinv.bounded
  · intro hclosed hfull sample hkey
    rw [(hopen sample hclosed).2]
    exact (hinv.outcome sample).keyframe hfull hkey
  · intro hclosed sample
    rw [push_closed hclosed]
  · intro cs q' h' hrun'
    exact (drained_run hrun').2

/-- With room for one sample: a delta is refused, a keyframe replaces the one that waits, and the
queue is closed over the last delta. -/
theorem queue_fifo_one :
    ∃ q h, Run callAndNote (VideoSampleQueue.new 1, QueueHistory.empty)
        [.push (⟨1, true⟩ : VideoSample Nat), .push ⟨2, false⟩, .push ⟨3, true⟩, .pop,
          .push ⟨4, false⟩, .close] (q, h) ∧
      h.popped = [⟨3, true⟩] ∧ q.buffer = [⟨4, false⟩] ∧ BoundedFifo 1 q h := by
  have hrun : ∃ s, Run callAndNote
      ((VideoSampleQueue.new 1, QueueHistory.empty) : VideoSampleQueue Nat × QueueHistory Nat)
      [.push ⟨1, true⟩, .push ⟨2, false⟩, .push ⟨3, true⟩, .pop, .push ⟨4, false⟩, .close] s ∧
      s.2.popped = [⟨3, true⟩] ∧ s.1.buffer = [⟨4, false⟩] :=
    execWhen_any (by decide)
  obtain ⟨⟨q, h⟩, hrun, hpopped, hbuf⟩ := hrun
  exact ⟨q, h, hrun, hpopped, hbuf, queue_fifo hrun⟩

/-! ## Keyframes that wait -/

def VideoSampleQueue.keyframes (q : VideoSampleQueue Media) : List (VideoSample Media) :=
  q.buffer.filter VideoSample.isKeyframe

/-- Full, with a keyframe at the front and a keyframe behind it. -/
def Crowded (capacity : Nat) (buffer : List (VideoSample Media)) : Prop :=
  capacity ≤ buffer.length ∧ ∃ front second rest, buffer = front :: second :: rest ∧
    front.isKeyframe = true ∧ second.isKeyframe = true

/-- A delta adds no keyframe. -/
theorem keyframes_append (buffer : List (VideoSample Media)) {sample : VideoSample Media}
    (hdelta : sample.isKeyframe = false) :
    (buffer ++ [sample]).filter VideoSample.isKeyframe =
      buffer.filter VideoSample.isKeyframe := by
  rw [List.filter_append, List.filter_singleton, hdelta]
  exact List.append_nil _

theorem PushOutcome.keyframes {capacity : Nat} {buffer : List (VideoSample Media)}
    {sample : VideoSample Media} {out : VideoQueuePushResult × List (VideoSample Media)}
    (h : PushOutcome capacity buffer sample out) (hdelta : sample.isKeyframe = false) :
    out.2.filter VideoSample.isKeyframe = buffer.filter VideoSample.isKeyframe ↔
      ¬ Crowded capacity buffer := by
  cases h with
  | appended hroom =>
    refine iff_of_true (keyframes_append buffer hdelta) ?_
    rintro ⟨hfull, -⟩
    omega
  | replaced _ hkey => rw [hdelta] at hkey; cases hkey
  | refused hfull _ front hfront hbuf =>
    subst hbuf
    refine iff_of_true rfl ?_
    rintro ⟨-, _, _, _, hbuf, -⟩
    cases hbuf
  | evictedSecond hfull _ front second rest hfront hbuf =>
    subst hbuf
    rw [keyframes_append _ hdelta, List.filter_cons_of_pos hfront, List.filter_cons_of_pos hfront]
    by_cases hsecond : second.isKeyframe = true
    · rw [List.filter_cons_of_pos hsecond]
      refine iff_of_false ?_ fun hnot => hnot ⟨hfull, front, second, rest, rfl, hfront, hsecond⟩
      intro heq
      have hlen := congrArg List.length heq
      simp only [List.length_cons] at hlen
      omega
    · rw [List.filter_cons_of_neg hsecond]
      refine iff_of_true rfl ?_
      rintro ⟨-, _, _, _, hbuf, -, hkey⟩
      cases hbuf
      exact hsecond hkey
  | evictedFront hfull _ front rest hfront hbuf =>
    subst hbuf
    have hneg : ¬ front.isKeyframe = true := by simp [hfront]
    rw [keyframes_append _ hdelta, List.filter_cons_of_neg hneg]
    refine iff_of_true rfl ?_
    rintro ⟨-, _, _, _, hbuf, hkey, -⟩
    cases hbuf
    exact hneg hkey

/-- **When a delta leaves the keyframes alone.**  After any calls, a push of a delta keeps every
queued keyframe exactly when the queue is closed, or is not full with two keyframes at its front. -/
theorem keyframes_kept {capacity : Nat} {cs : List (QueueCall Media)} {q : VideoSampleQueue Media}
    (hrun : Run VideoSampleQueue.call (VideoSampleQueue.new capacity) cs q)
    (sample : VideoSample Media) (hdelta : sample.isKeyframe = false) :
    (q.push sample).2.keyframes = q.keyframes ↔
      q.closed = true ∨ ¬ Crowded (max capacity 1) q.buffer := by
  obtain ⟨h, hnoted⟩ := exists_ghost QueueHistory.next QueueHistory.empty hrun
  have hinv : SamplesInOrder capacity (q, h) := samplesInOrder_run hnoted
  by_cases hclosed : q.closed = true
  · rw [push_closed hclosed]
    exact iff_of_true rfl (Or.inl hclosed)
  · obtain ⟨-, hbuf, -, -⟩ := push_open hclosed sample
    unfold VideoSampleQueue.keyframes
    rw [hbuf, or_iff_right hclosed]
    exact (hinv.outcome sample).keyframes hdelta

/-- A keyframe and two deltas fill the queue; the next delta leaves the keyframe. -/
theorem keyframes_kept_one :
    ∃ q, Run VideoSampleQueue.call (VideoSampleQueue.new 3)
        [.push (⟨1, true⟩ : VideoSample Nat), .push ⟨2, false⟩, .push ⟨3, false⟩] q ∧
      (q.push ⟨4, false⟩).2.keyframes = q.keyframes := by
  have hrun : ∃ q, Run VideoSampleQueue.call (VideoSampleQueue.new 3 : VideoSampleQueue Nat)
      [.push ⟨1, true⟩, .push ⟨2, false⟩, .push ⟨3, false⟩] q ∧
      q.buffer = [⟨1, true⟩, ⟨2, false⟩, ⟨3, false⟩] := execWhen_any (by decide)
  obtain ⟨q, hrun, hbuf⟩ := hrun
  refine ⟨q, hrun, (keyframes_kept hrun ⟨4, false⟩ rfl).mpr (Or.inr ?_)⟩
  rintro ⟨-, front, second, rest, hbuf', -, hsecond⟩
  rw [hbuf] at hbuf'
  cases hbuf'
  cases hsecond

/-- **A keyframe is evicted.**  Two keyframes and a delta fill the queue, and the next delta takes
the place of the second keyframe. -/
theorem keyframe_evicted :
    ∃ q, Run VideoSampleQueue.call (VideoSampleQueue.new 3)
        [.push (⟨1, true⟩ : VideoSample Nat), .push ⟨2, true⟩, .push ⟨3, false⟩] q ∧
      ⟨2, true⟩ ∈ q.buffer ∧ ⟨2, true⟩ ∉ (q.push ⟨4, false⟩).2.buffer :=
  execWhen_any (by decide)

end CloudGame.Worker
