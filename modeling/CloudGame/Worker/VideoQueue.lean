import CloudGame.Lib.Notify
import CloudGame.Lib.Run
import Mathlib.Logic.Function.Basic

/-!
# The video queue of a session (`VideoSampleQueue` in `arcade-worker/src/room.rs`)

A bounded buffer of video samples between the frame sender, which pushes, and the session's video
task, which loops on `pop`.  Any number of `push` and `close` calls run beside the one consumer;
every lock section, every access of `closed` and every operation on `notify` is one step.

`pop` looks at the buffer, then at `closed`, and only then creates the future it waits on.  A
`push` that falls in between is not lost, as `notify_one` stores a permit; a `close` is, unless
something else is there to wake the consumer (`pop_unheard`).  `Heard` is the condition that no
`close` is lost so, and under it the consumer is parked beside a sample or a closed queue only while
a notification is on its way (`pop_heard`).
-/

namespace CloudGame.Worker

open CloudGame.Lib

structure VideoSample (Media : Type) where
  sample : Media
  isKeyframe : Bool
deriving DecidableEq

structure VideoQueuePushResult where
  lenAfter : Nat := 0
  wasFull : Bool := false
  droppedExisting : Nat := 0
  droppedIncoming : Bool := false
deriving DecidableEq

structure VideoSampleQueue (Media : Type) where
  capacity : Nat
  closed : Bool
  buffer : List (VideoSample Media)
  notify : Notify

variable {Media : Type}

def VideoSampleQueue.new (capacity : Nat) : VideoSampleQueue Media :=
  ⟨max capacity 1, false, [], Notify.new⟩

/-- The end of `push`'s lock section. -/
def pushBack (result : VideoQueuePushResult) (buffer : List (VideoSample Media))
    (sample : VideoSample Media) : VideoQueuePushResult × List (VideoSample Media) :=
  ({ result with lenAfter := (buffer ++ [sample]).length }, buffer ++ [sample])

/-- The lock section of `push`. -/
def pushLocked (capacity : Nat) (buffer : List (VideoSample Media)) (sample : VideoSample Media) :
    VideoQueuePushResult × List (VideoSample Media) :=
  if buffer.length ≥ capacity then
    if sample.isKeyframe then
      pushBack { wasFull := true, droppedExisting := buffer.length } [] sample
    else
      match buffer with
      | [] => pushBack { wasFull := true } buffer sample
      | front :: rest =>
        if front.isKeyframe then
          if buffer.length = 1 then
            ({ wasFull := true, droppedIncoming := true, lenAfter := buffer.length }, buffer)
          else pushBack { wasFull := true, droppedExisting := 1 } (front :: rest.drop 1) sample
        else pushBack { wasFull := true, droppedExisting := 1 } rest sample
  else pushBack {} buffer sample

/-- A sample that is not dropped is in the buffer. -/
theorem pushLocked_dropped (capacity : Nat) (buffer : List (VideoSample Media))
    (sample : VideoSample Media)
    (h : (pushLocked capacity buffer sample).1.droppedIncoming = true) :
    (pushLocked capacity buffer sample).2 = buffer := by
  unfold pushLocked at h ⊢
  split
  · next hfull =>
    rw [if_pos hfull] at h
    split
    · next hkey => rw [if_pos hkey] at h; cases h
    · next hkey =>
      rw [if_neg hkey] at h
      split
      · cases h
      · next front rest =>
        dsimp only at h
        split
        · next hfront =>
          rw [if_pos hfront] at h
          split
          · rfl
          · next hlen => rw [if_neg hlen] at h; cases h
        · next hfront => rw [if_neg hfront] at h; cases h
  · next hfull => rw [if_neg hfull] at h; cases h

/-! ## The queue with its callers -/

/-- A `push` or `close` call, by the step it performs next. -/
inductive Producer (Media : Type) where
  | loadClosed (sample : VideoSample Media)
  | lockBuffer (sample : VideoSample Media)
  | notifyOne
  | storeClosed
  | notifyWaiters

/-- The consumer: between two calls of `pop`, or in one before the step it performs next, or done
looping. -/
inductive Consumer where
  | idle
  | lockBuffer
  | loadClosed
  | createNotified
  | waiting (future : Notified)
  | finished
deriving DecidableEq

structure QueueSystem (Media : Type) where
  queue : VideoSampleQueue Media
  consumer : Consumer
  calls : Nat → Option (Producer Media)

inductive QueueAction (Media : Type) where
  | push (id : Nat) (sample : VideoSample Media)
  | close (id : Nat)
  | produce (id : Nat)
  | pop
  | consume
  | stop

namespace QueueSystem

def init (capacity : Nat) : QueueSystem Media :=
  ⟨VideoSampleQueue.new capacity, .idle, fun _ => none⟩

def setCall (s : QueueSystem Media) (id : Nat) (call : Option (Producer Media)) :
    QueueSystem Media :=
  { s with calls := Function.update s.calls id call }

/-- The future the consumer waits on. -/
def waiter (s : QueueSystem Media) : Option Notified :=
  match s.consumer with
  | .waiting future => some future
  | _ => none

/-- The effect of a `Notify` operation on the cell and on the consumer's future. -/
def setNotify (s : QueueSystem Media) (out : Notify × Option Notified) : QueueSystem Media :=
  { s with
    queue := { s.queue with notify := out.1 }
    consumer :=
      match out.2 with
      | some future => .waiting future
      | none => s.consumer }

/-- The next step of a `push` or `close` call. -/
def produce (s : QueueSystem Media) (id : Nat) : Producer Media → QueueSystem Media
  | .loadClosed sample =>
    if s.queue.closed then s.setCall id none else s.setCall id (some (.lockBuffer sample))
  | .lockBuffer sample =>
    let out := pushLocked s.queue.capacity s.queue.buffer sample
    { s with queue := { s.queue with buffer := out.2 } }.setCall id
      (if out.1.droppedIncoming then none else some .notifyOne)
  | .notifyOne => (s.setNotify (s.queue.notify.notifyOne s.waiter)).setCall id none
  | .storeClosed =>
    { s with queue := { s.queue with closed := true } }.setCall id (some .notifyWaiters)
  | .notifyWaiters => (s.setNotify (s.queue.notify.notifyWaiters s.waiter)).setCall id none

/-- The next step of the consumer's `pop`. -/
def consume (s : QueueSystem Media) : Option (QueueSystem Media) :=
  match s.consumer with
  | .idle => none
  | .lockBuffer =>
    match s.queue.buffer with
    | [] => some { s with consumer := .loadClosed }
    | _ :: rest => some { s with queue := { s.queue with buffer := rest }, consumer := .idle }
  | .loadClosed =>
    if s.queue.closed then some { s with consumer := .finished }
    else some { s with consumer := .createNotified }
  | .createNotified => some { s with consumer := .waiting s.queue.notify.notified }
  | .waiting .parked => none
  | .waiting future =>
    let out := s.queue.notify.poll future
    some { s with
      queue := { s.queue with notify := out.1 }
      consumer :=
        match out.2 with
        | some future => .waiting future
        | none => .lockBuffer }
  | .finished => none

def step (s : QueueSystem Media) : QueueAction Media → Option (QueueSystem Media)
  | .push id sample =>
    match s.calls id with
    | none => some (s.setCall id (some (.loadClosed sample)))
    | some _ => none
  | .close id =>
    match s.calls id with
    | none => some (s.setCall id (some .storeClosed))
    | some _ => none
  | .produce id => (s.calls id).map (s.produce id)
  | .pop => if s.consumer = .idle then some { s with consumer := .lockBuffer } else none
  | .consume => s.consume
  | .stop => if s.consumer = .idle then some { s with consumer := .finished } else none

end QueueSystem

/-! ## Notifications on their way -/

/-- A `push` that appended its sample stands at its notify step. -/
def QueueSystem.PushNotifies (s : QueueSystem Media) : Prop :=
  ∃ id, s.calls id = some .notifyOne

/-- A `push` or a `close` stands at its notify step. -/
def QueueSystem.Notifies (s : QueueSystem Media) : Prop :=
  ∃ id, s.calls id = some .notifyOne ∨ s.calls id = some .notifyWaiters

/-- `notify_waiters` does not come between the consumer's look at `closed` and the creation of
its future, or is not the last chance to wake it: a permit is stored, or another call stands at its
notify step. -/
def Heard (s : QueueSystem Media) : QueueAction Media → Prop
  | .produce id => s.calls id = some .notifyWaiters → s.consumer = .createNotified →
      s.queue.notify.permit = true ∨
        ∃ id', id' ≠ id ∧ (s.calls id' = some .notifyOne ∨ s.calls id' = some .notifyWaiters)
  | _ => True

/-- What the consumer has looked at is still so, or it will be notified: of a sample by a permit or
a `push`, of the closing by any notification.  `buffered`, `closed` and `permit` are what the queue
shows now, `pushNotifies` and `notifies` what is on its way. -/
def WatchedBy (waitersCalls : Nat) (buffered closed permit pushNotifies notifies : Prop) :
    Consumer → Prop
  | .loadClosed => buffered → permit ∨ pushNotifies
  | .createNotified => (buffered → permit ∨ pushNotifies) ∧ (closed → permit ∨ notifies)
  | .waiting (.created calls) => calls ≤ waitersCalls ∧ (buffered → permit ∨ pushNotifies) ∧
      (closed → permit ∨ calls ≠ waitersCalls ∨ notifies)
  | .waiting .parked => (buffered → pushNotifies) ∧ (closed → notifies)
  | _ => True

def Watched (s : QueueSystem Media) : Prop :=
  WatchedBy s.queue.notify.waitersCalls (s.queue.buffer ≠ []) (s.queue.closed = true)
    (s.queue.notify.permit = true) s.PushNotifies s.Notifies s.consumer

/-- What becomes buffered or closed does so with a notification on its way. -/
theorem WatchedBy.mono {calls : Nat} {b c p n m b' c' p' n' m' : Prop} {consumer : Consumer}
    (h : WatchedBy calls b c p n m consumer) (hb : b' → b ∨ n') (hc : c' → c ∨ m') (hp : p → p')
    (hn : n → n') (hm : m → m') : WatchedBy calls b' c' p' n' m' consumer := by
  have hbuf : (b → p ∨ n) → b' → p' ∨ n' := fun h hb' =>
    (hb hb').elim (fun hb => (h hb).imp hp hn) Or.inr
  match consumer with
  | .idle => trivial
  | .lockBuffer => trivial
  | .loadClosed => exact hbuf h
  | .createNotified =>
    exact ⟨hbuf h.1, fun hc' => (hc hc').elim (fun hc => (h.2 hc).imp hp hm) Or.inr⟩
  | .waiting (.created _) =>
    refine ⟨h.1, hbuf h.2.1, fun hc' => ?_⟩
    exact (hc hc').elim (fun hc => (h.2.2 hc).imp hp (Or.imp_right hm))
      fun hm' => Or.inr (Or.inr hm')
  | .waiting .parked =>
    exact ⟨fun hb' => (hb hb').elim (fun hb => hn (h.1 hb)) id,
      fun hc' => (hc hc').elim (fun hc => hm (h.2 hc)) id⟩
  | .waiting .woken => trivial
  | .finished => trivial

section Steps

variable {s s' : QueueSystem Media} {id : Nat}

theorem QueueSystem.PushNotifies.notifies (h : s.PushNotifies) : s.Notifies := by
  obtain ⟨id, hid⟩ := h
  exact ⟨id, Or.inl hid⟩

/-- A call that is not about to notify takes no notification along. -/
theorem pushNotifies_setCall (call : Option (Producer Media))
    (hid : s.calls id ≠ some .notifyOne) (h : s.PushNotifies) :
    (s.setCall id call).PushNotifies := by
  obtain ⟨id', h'⟩ := h
  refine ⟨id', ?_⟩
  show Function.update s.calls id call id' = _
  rw [Function.update_of_ne, h']
  rintro rfl
  exact hid h'

theorem notifies_setCall (call : Option (Producer Media)) (hone : s.calls id ≠ some .notifyOne)
    (hall : s.calls id ≠ some .notifyWaiters) (h : s.Notifies) : (s.setCall id call).Notifies := by
  obtain ⟨id', h'⟩ := h
  refine ⟨id', ?_⟩
  show Function.update s.calls id call id' = _ ∨ Function.update s.calls id call id' = _
  rw [Function.update_of_ne]
  · exact h'
  · rintro rfl
    exact h'.elim hone hall

theorem watched_setCall (h : Watched s) (call : Option (Producer Media))
    (hone : s.calls id ≠ some .notifyOne) (hall : s.calls id ≠ some .notifyWaiters) :
    Watched (s.setCall id call) :=
  WatchedBy.mono h Or.inl Or.inl (fun hp => hp) (pushNotifies_setCall call hone)
    (notifies_setCall call hone hall)

/-- A call that begins takes nothing along. -/
theorem watched_begin (h : Watched s) (hnone : s.calls id = none) (call : Producer Media) :
    Watched (s.setCall id (some call)) :=
  watched_setCall h (some call) (by simp [hnone]) (by simp [hnone])

/-- A future is not created later than now. -/
theorem WatchedBy.created_le {calls k : Nat} {b c p n m : Prop}
    (h : WatchedBy calls b c p n m (.waiting (.created k))) : k ≤ calls := h.1

/-- With a permit stored, whoever is not parked finds it. -/
theorem watchedBy_of_permit {calls : Nat} {b c p n m : Prop} {consumer : Consumer} (hp : p)
    (hcreated : ∀ k, consumer = .waiting (.created k) → k ≤ calls)
    (hparked : consumer ≠ .waiting .parked) : WatchedBy calls b c p n m consumer := by
  match consumer with
  | .loadClosed => exact fun _ => Or.inl hp
  | .createNotified => exact ⟨fun _ => Or.inl hp, fun _ => Or.inl hp⟩
  | .waiting (.created k) => exact ⟨hcreated k rfl, fun _ => Or.inl hp, fun _ => Or.inl hp⟩
  | .waiting .parked => exact absurd rfl hparked
  | .waiting .woken => trivial
  | .idle => trivial
  | .lockBuffer => trivial
  | .finished => trivial

theorem waiter_eq_parked : s.waiter = some .parked ↔ s.consumer = .waiting .parked := by
  unfold QueueSystem.waiter
  cases s.consumer <;> simp

/-- The consumer keeps its future when it is not parked. -/
theorem setNotify_consumer (n : Notify) : (s.setNotify (n, s.waiter)).consumer = s.consumer := by
  unfold QueueSystem.setNotify QueueSystem.waiter
  cases s.consumer <;> rfl

/-- `notify_one` wakes a parked consumer, and else leaves a permit. -/
theorem watched_notifyOne (h : Watched s) : Watched (s.produce id .notifyOne) := by
  by_cases hparked : s.consumer = .waiting .parked
  · have hout : s.queue.notify.notifyOne s.waiter = (s.queue.notify, some .woken) :=
      if_pos (waiter_eq_parked.mpr hparked)
    unfold QueueSystem.produce
    rw [hout]
    trivial
  · have hout : s.queue.notify.notifyOne s.waiter =
        ({ s.queue.notify with permit := true }, s.waiter) :=
      if_neg fun hw => hparked (waiter_eq_parked.mp hw)
    unfold Watched QueueSystem.produce
    rw [hout]
    have hsame := setNotify_consumer (s := s) { s.queue.notify with permit := true }
    refine watchedBy_of_permit rfl (fun k hk => ?_) ?_
    · have hk' : s.consumer = .waiting (.created k) := hsame.symm.trans hk
      unfold Watched at h
      rw [hk'] at h
      exact h.created_le
    · exact fun hk => hparked (hsame.symm.trans hk)

/-- `notify_waiters` wakes a parked consumer and is seen by a future that is created; between the
look at `closed` and the creation something else has to be there. -/
theorem watched_notifyWaiters (h : Watched s) (hid : s.calls id = some .notifyWaiters)
    (hheard : Heard s (.produce id)) : Watched (s.produce id .notifyWaiters) := by
  by_cases hparked : s.consumer = .waiting .parked
  · have hout : (s.queue.notify.notifyWaiters s.waiter).2 = some .woken :=
      if_pos (waiter_eq_parked.mpr hparked)
    unfold QueueSystem.produce QueueSystem.setNotify
    rw [hout]
    trivial
  · have hout : s.queue.notify.notifyWaiters s.waiter =
        ({ s.queue.notify with waitersCalls := s.queue.notify.waitersCalls + 1 }, s.waiter) := by
      unfold Notify.notifyWaiters
      rw [if_neg fun hw => hparked (waiter_eq_parked.mp hw)]
    have hsame := setNotify_consumer (s := s)
      { s.queue.notify with waitersCalls := s.queue.notify.waitersCalls + 1 }
    have hone : s.calls id ≠ some .notifyOne := by simp [hid]
    have hpush : s.PushNotifies → (s.produce id .notifyWaiters).PushNotifies :=
      pushNotifies_setCall _ hone
    have hbuf : (s.queue.buffer ≠ [] → s.queue.notify.permit = true ∨ s.PushNotifies) →
        s.queue.buffer ≠ [] → s.queue.notify.permit = true ∨
          (s.produce id .notifyWaiters).PushNotifies := fun h hb => (h hb).imp_right hpush
    unfold Watched at h ⊢
    have hconsumer : (s.produce id .notifyWaiters).consumer = s.consumer := by
      unfold QueueSystem.produce
      rw [hout]
      exact hsame
    have hcalls : (s.produce id .notifyWaiters).queue.notify.waitersCalls =
        s.queue.notify.waitersCalls + 1 := rfl
    rw [hconsumer, hcalls]
    match hc : s.consumer with
    | .loadClosed => rw [hc] at h; exact hbuf h
    | .createNotified =>
      rw [hc] at h
      refine ⟨hbuf h.1, fun _ => (hheard hid hc).imp (fun hp => hp) ?_⟩
      rintro ⟨id', hne, hid'⟩
      refine ⟨id', ?_⟩
      show Function.update s.calls id none id' = _ ∨ Function.update s.calls id none id' = _
      rw [Function.update_of_ne hne]
      exact hid'
    | .waiting (.created k) =>
      rw [hc] at h
      refine ⟨Nat.le_succ_of_le h.1, hbuf h.2.1, fun _ => Or.inr (Or.inl ?_)⟩
      have := h.1
      omega
    | .waiting .parked => exact absurd hc hparked
    | .waiting .woken => trivial
    | .idle => trivial
    | .lockBuffer => trivial
    | .finished => trivial

/-- A step of a `push` or `close` call. -/
theorem watched_produce (h : Watched s) {call : Producer Media} (hid : s.calls id = some call)
    (hheard : Heard s (.produce id)) : Watched (s.produce id call) := by
  cases call with
  | notifyOne => exact watched_notifyOne h
  | notifyWaiters => exact watched_notifyWaiters h hid hheard
  | loadClosed sample =>
    have hone : s.calls id ≠ some .notifyOne := by simp [hid]
    have hall : s.calls id ≠ some .notifyWaiters := by simp [hid]
    dsimp only [QueueSystem.produce]
    split
    · exact watched_setCall h none hone hall
    · exact watched_setCall h _ hone hall
  | lockBuffer sample =>
    have hkeepPush : ∀ queue call', s.PushNotifies →
        (QueueSystem.setCall { s with queue := queue } id call').PushNotifies :=
      fun queue call' => pushNotifies_setCall (s := { s with queue := queue }) call' (by simp [hid])
    have hkeep : ∀ queue call', s.Notifies →
        (QueueSystem.setCall { s with queue := queue } id call').Notifies :=
      fun queue call' =>
        notifies_setCall (s := { s with queue := queue }) call' (by simp [hid]) (by simp [hid])
    dsimp only [QueueSystem.produce]
    split
    · -- the sample is dropped and the buffer stays
      next hdrop =>
      have hsame := pushLocked_dropped _ _ _ hdrop
      refine WatchedBy.mono h (fun hb => Or.inl ?_) Or.inl (fun hp => hp) (hkeepPush _ _)
        (hkeep _ _)
      exact fun he => hb (hsame.trans he)
    · have hnew : (QueueSystem.setCall { s with queue := { s.queue with
          buffer := (pushLocked s.queue.capacity s.queue.buffer sample).2 } } id
          (some .notifyOne)).PushNotifies := ⟨id, Function.update_self ..⟩
      exact WatchedBy.mono h (fun _ => Or.inr hnew) Or.inl (fun hp => hp) (hkeepPush _ _)
        (hkeep _ _)
  | storeClosed =>
    have hnew : (s.produce id .storeClosed).Notifies := ⟨id, Or.inr (Function.update_self ..)⟩
    exact WatchedBy.mono h Or.inl (fun _ => Or.inr hnew) (fun hp => hp)
      (pushNotifies_setCall (s := { s with queue := { s.queue with closed := true } }) _
        (by simp [hid]))
      fun _ => hnew

/-- A step of the consumer. -/
theorem watched_consume (h : Watched s) (hs : s.consume = some s') : Watched s' := by
  unfold QueueSystem.consume at hs
  unfold Watched at h
  split at hs
  · cases hs
  · split at hs
    · next hbuf =>
      cases hs
      exact fun hb => absurd hbuf hb
    · cases hs; trivial
  · next hc =>
    rw [hc] at h
    split at hs
    · cases hs; trivial
    · next hopen =>
      cases hs
      exact ⟨h, fun hclosed => absurd hclosed hopen⟩
  · next hc =>
    cases hs
    rw [hc] at h
    exact ⟨Nat.le_refl _, h.1, fun hclosed => (h.2 hclosed).imp_right Or.inr⟩
  · cases hs
  · next future hne hc =>
    cases hs
    rw [hc] at h
    cases future with
    | parked => exact absurd rfl hne
    | woken => trivial
    | created k =>
      obtain ⟨hle, hbuf, hclosed⟩ := h
      unfold Watched
      by_cases hp : s.queue.notify.permit = true
      · rw [Notify.poll, if_pos hp]
        trivial
      · by_cases hk : k = s.queue.notify.waitersCalls
        · rw [Notify.poll, if_neg hp, if_pos hk]
          exact ⟨fun hb => (hbuf hb).resolve_left hp,
            fun hc => ((hclosed hc).resolve_left hp).resolve_left fun hne => hne hk⟩
        · rw [Notify.poll, if_neg hp, if_neg hk]
          trivial
  · cases hs

theorem watched_step (h : Watched s) {a : QueueAction Media} (hok : Heard s a)
    (hs : s.step a = some s') : Watched s' := by
  cases a with
  | push id sample =>
    simp only [QueueSystem.step] at hs
    split at hs
    · next hnone =>
      cases hs
      exact watched_begin h hnone _
    · cases hs
  | close id =>
    simp only [QueueSystem.step] at hs
    split at hs
    · next hnone =>
      cases hs
      exact watched_begin h hnone _
    · cases hs
  | produce id =>
    obtain ⟨call, hid, rfl⟩ := Option.map_eq_some_iff.mp hs
    exact watched_produce h hid hok
  | pop =>
    simp only [QueueSystem.step] at hs
    split at hs
    · cases hs; trivial
    · cases hs
  | consume => exact watched_consume h hs
  | stop =>
    simp only [QueueSystem.step] at hs
    split at hs
    · cases hs; trivial
    · cases hs

end Steps

/-! ## The result -/

/-- **No lost wake-up.**  In a run whose every `close` is heard, the consumer is parked beside a
sample or a closed queue only while a `push` or a `close` is about to notify it. -/
theorem pop_heard {capacity : Nat} {as : List (QueueAction Media)} {s : QueueSystem Media}
    (h : RunWhen Heard QueueSystem.step (QueueSystem.init capacity) as s)
    (hparked : s.consumer = .waiting .parked)
    (hwork : s.queue.buffer ≠ [] ∨ s.queue.closed = true) : s.Notifies := by
  have hinit : Watched (QueueSystem.init capacity : QueueSystem Media) := trivial
  have hwatched : Watched s :=
    h.invariant hinit fun _ _ _ hi hok hs => watched_step hi hok hs
  unfold Watched at hwatched
  rw [hparked] at hwatched
  rcases hwork with hb | hc
  · exact (hwatched.1 hb).notifies
  · exact hwatched.2 hc

/-- No call takes a step while the consumer is about to create its future; then every `close` is
heard. -/
def outsideWindow (s : QueueSystem Media) : QueueAction Media → Bool
  | .produce _ => s.consumer ≠ .createNotified
  | _ => true

theorem heard_of_outsideWindow (s : QueueSystem Media) (a : QueueAction Media)
    (h : outsideWindow s a = true) : Heard s a := by
  match a with
  | .produce id => exact fun _ hc => absurd hc (of_decide_eq_true h)
  | .push _ _ => trivial
  | .close _ => trivial
  | .pop => trivial
  | .consume => trivial
  | .stop => trivial

/-- The consumer parks on an open queue, which is then closed: the wake-up is on its way. -/
theorem pop_heard_closing :
    ∃ s, RunWhen Heard QueueSystem.step (QueueSystem.init 8 : QueueSystem Nat)
        [.pop, .consume, .consume, .consume, .consume, .close 0, .produce 0] s ∧
      s.consumer = .waiting .parked ∧ s.queue.closed = true ∧ s.Notifies := by
  have hrun : ∃ s, RunWhen (fun s a => outsideWindow s a = true) QueueSystem.step
      (QueueSystem.init 8 : QueueSystem Nat)
      [.pop, .consume, .consume, .consume, .consume, .close 0, .produce 0] s ∧
      s.consumer = .waiting .parked ∧ s.queue.closed = true :=
    execWhen_any (by decide)
  obtain ⟨s, hrun, hparked, hclosed⟩ := hrun
  have hheard := hrun.mono heard_of_outsideWindow
  exact ⟨s, hheard, hparked, hclosed, pop_heard hheard hparked (Or.inr hclosed)⟩

/-- **A lost wake-up.**  The consumer finds the queue empty and open, `close` stores and notifies,
and only then is the future created: the consumer parks on a closed queue for good. -/
theorem pop_unheard :
    ∃ s, Run QueueSystem.step (QueueSystem.init 8 : QueueSystem Nat)
        [.pop, .consume, .consume, .close 0, .produce 0, .produce 0, .consume, .consume] s ∧
      s.consumer = .waiting .parked ∧ s.queue.notify.permit = false ∧ s.queue.closed = true ∧
      ¬ s.Notifies := by
  let calls : Nat → Option (Producer Nat) := fun _ => none
  refine ⟨⟨⟨8, true, [], ⟨false, 1⟩⟩, .waiting .parked,
    Function.update (Function.update (Function.update calls 0 (some .storeClosed)) 0
      (some .notifyWaiters)) 0 none⟩, exec_run rfl, rfl, rfl, rfl, ?_⟩
  rintro ⟨id, hid⟩
  simp only [Function.update_idem] at hid
  by_cases h : id = 0
  · subst h
    simp at hid
  · rw [Function.update_of_ne h] at hid
    rcases hid with hid | hid <;> cases hid

end CloudGame.Worker
