import CloudGame.Lib.Prog
import CloudGame.Lib.Run
import CloudGame.Lib.Since
import CloudGame.Worker.VideoSender
import Mathlib.Algebra.GroupWithZero.Nat

/-!
# From the room to the encoder (`VideoControl` in `arcade-worker/src/room.rs`)

Any threads ask for a refresh or a keyframe and record pressure; the video sender takes it all with
`next_sender_update`.  Every atomic operation on a field is one step, so an update is read field by
field while others write.  The two flags are one function here, and so are the two counters.

A call has an `Account` of what it did so far, which no step reads.  `ControlInv` is the invariant:
the accounts balance, and the flags are what the log of operations says.

* `no_update_lost`: what the calls gave is what the updates took and what remains; a flag is taken
  by the first swap after it was set, and by no other.
-/

namespace CloudGame.Worker

open CloudGame.Lib

inductive ControlFlag where
  | refreshEncoder
  | forceIdr
deriving DecidableEq

inductive ControlCounter where
  | congestedEvents
  | droppedFrames
deriving DecidableEq

def VideoPressureSnapshot.count (p : VideoPressureSnapshot) : ControlCounter → Nat
  | .congestedEvents => p.congestedEvents
  | .droppedFrames => p.droppedFrames

def VideoSenderUpdate.flag (u : VideoSenderUpdate) : ControlFlag → Bool
  | .refreshEncoder => u.refreshEncoder
  | .forceIdr => u.forceIdr

structure VideoControl where
  flags : ControlFlag → Bool
  maxQueueLen : Nat
  counters : ControlCounter → Nat

def VideoControl.default : VideoControl := ⟨fun _ => false, 0, fun _ => 0⟩

/-! ## The atomic operations -/

inductive ControlOp where
  /-- `store(true)`. -/
  | store (flag : ControlFlag)
  /-- `swap(false)`. -/
  | swapFlag (flag : ControlFlag)
  | fetchMax (value : Nat)
  /-- `swap(0)`. -/
  | swapMax
  | fetchAdd (counter : ControlCounter) (value : Nat)
  /-- `swap(0)`. -/
  | swapCounter (counter : ControlCounter)

@[reducible] def ControlOp.Reply : ControlOp → Type
  | .swapFlag _ => Bool
  | .swapMax => Nat
  | .swapCounter _ => Nat
  | _ => Unit

def VideoControl.perform (s : VideoControl) : (i : ControlOp) → i.Reply × VideoControl
  | .store flag => ((), { s with flags := Function.update s.flags flag true })
  | .swapFlag flag => (s.flags flag, { s with flags := Function.update s.flags flag false })
  | .fetchMax value => ((), { s with maxQueueLen := max s.maxQueueLen value })
  | .swapMax => (s.maxQueueLen, { s with maxQueueLen := 0 })
  | .fetchAdd counter value =>
    ((), { s with counters :=
      Function.update s.counters counter ((s.counters counter + value) % 2 ^ 64) })
  | .swapCounter counter =>
    (s.counters counter, { s with counters := Function.update s.counters counter 0 })

abbrev ControlM : Type → Type := Prog ControlOp ControlOp.Reply

/-! ## The methods -/

inductive ControlMethod where
  | onSessionRegistered
  | onSessionJoined (needsRefresh : Bool)
  | onKeyframeRequested
  | recordPressure (pressure : VideoPressureSnapshot)
  | nextSenderUpdate

namespace Control

def onSessionRegistered : ControlM Unit := Prog.call (ControlOp.store .refreshEncoder)

def onSessionJoined (needsRefresh : Bool) : ControlM Unit :=
  if needsRefresh then Prog.call (ControlOp.store .refreshEncoder) else pure ()

def onKeyframeRequested : ControlM Unit := Prog.call (ControlOp.store .forceIdr)

def raiseMax (value : Nat) : ControlM Unit :=
  if value > 0 then Prog.call (ControlOp.fetchMax value) else pure ()

def addTo (counter : ControlCounter) (value : Nat) : ControlM Unit :=
  if value > 0 then Prog.call (ControlOp.fetchAdd counter value) else pure ()

def recordPressure (pressure : VideoPressureSnapshot) : ControlM Unit := do
  raiseMax pressure.maxQueueLen
  addTo .congestedEvents pressure.congestedEvents
  addTo .droppedFrames pressure.droppedFrames

def nextSenderUpdate : ControlM VideoSenderUpdate := do
  let refreshEncoder : Bool ← Prog.call (ControlOp.swapFlag .refreshEncoder)
  let forceIdr : Bool ← Prog.call (ControlOp.swapFlag .forceIdr)
  let maxQueueLen : Nat ← Prog.call ControlOp.swapMax
  let congestedEvents : Nat ← Prog.call (ControlOp.swapCounter .congestedEvents)
  let droppedFrames : Nat ← Prog.call (ControlOp.swapCounter .droppedFrames)
  return ⟨refreshEncoder, forceIdr, ⟨maxQueueLen, congestedEvents, droppedFrames⟩⟩

end Control

namespace ControlMethod

/-- A method, and the update it returns if it is the one that does. -/
def prog : ControlMethod → ControlM (Option VideoSenderUpdate)
  | onSessionRegistered => do Control.onSessionRegistered; return none
  | onSessionJoined needsRefresh => do Control.onSessionJoined needsRefresh; return none
  | onKeyframeRequested => do Control.onKeyframeRequested; return none
  | recordPressure pressure => do Control.recordPressure pressure; return none
  | nextSenderUpdate => do let update ← Control.nextSenderUpdate; return some update

/-- The pressure that a call records. -/
def recorded : ControlMethod → Option VideoPressureSnapshot
  | recordPressure pressure => some pressure
  | _ => none

/-- The flag that a call asks for. -/
def request : ControlMethod → Option ControlFlag
  | onSessionRegistered => some .refreshEncoder
  | onSessionJoined needsRefresh => if needsRefresh then some .refreshEncoder else none
  | onKeyframeRequested => some .forceIdr
  | _ => none

end ControlMethod

/-! ## Calls from any threads -/

/-- What a call did so far. -/
structure Account where
  gave : ControlCounter → Nat
  gaveMax : Nat
  took : ControlCounter → Nat
  tookMax : Nat
  stored : ControlFlag → Bool
  /-- The flags it has swapped. -/
  swapped : ControlFlag → Option Bool

namespace Account

def empty : Account := ⟨fun _ => 0, 0, fun _ => 0, 0, fun _ => false, fun _ => none⟩

def next (a : Account) : (i : ControlOp) → i.Reply → Account
  | .store flag, _ => { a with stored := Function.update a.stored flag true }
  | .swapFlag flag, (r : Bool) => { a with swapped := Function.update a.swapped flag (some r) }
  | .fetchMax value, _ => { a with gaveMax := max a.gaveMax value }
  | .swapMax, (r : Nat) => { a with tookMax := max a.tookMax r }
  | .fetchAdd counter value, _ =>
    { a with gave := Function.update a.gave counter (a.gave counter + value) }
  | .swapCounter counter, (r : Nat) =>
    { a with took := Function.update a.took counter (a.took counter + r) }

end Account

structure ControlCall where
  method : ControlMethod
  prog : ControlM (Option VideoSenderUpdate)
  account : Account

/-- The update of a call that has returned one. -/
def ControlCall.returned (c : ControlCall) : Option VideoSenderUpdate :=
  match c.prog with
  | .ret update => update
  | .op _ _ => none

structure ControlState where
  control : VideoControl
  /-- Every call made so far, in progress or returned. -/
  calls : List ControlCall

inductive ControlAction where
  | call (method : ControlMethod)
  /-- Call `n` performs its next operation. -/
  | run (n : Nat)

/-- An operation that call `n` performed. -/
structure ControlEvent where
  call : Nat
  op : ControlOp
  reply : op.Reply

namespace ControlState

def init : ControlState := ⟨.default, []⟩

def start (s : ControlState) (method : ControlMethod) : ControlState :=
  { s with calls := s.calls ++ [⟨method, method.prog, .empty⟩] }

/-- The state after call `n`, which was `c`, performed `i` and went on with `k`. -/
def performed (s : ControlState) (n : Nat) (c : ControlCall) (i : ControlOp)
    (k : i.Reply → ControlM (Option VideoSenderUpdate)) : ControlState :=
  let out := s.control.perform i
  ⟨out.2, s.calls.set n { c with prog := k out.1, account := c.account.next i out.1 }⟩

def step (s : ControlState) : ControlAction → Option ControlState
  | .call method => some (s.start method)
  | .run n =>
    match s.calls[n]? with
    | none => none
    | some c =>
      match c.prog with
      | .ret _ => none
      | .op i k => some (s.performed n c i k)

def events (s : ControlState) : ControlAction → List ControlEvent
  | .call _ => []
  | .run n =>
    match s.calls[n]? with
    | none => []
    | some c =>
      match c.prog with
      | .ret _ => []
      | .op i _ => [⟨n, i, (s.control.perform i).1⟩]

/-- No call is in progress. -/
def Idle (s : ControlState) : Prop := ∀ c ∈ s.calls, c.prog.isDone = true

/-- The updates returned so far. -/
def updates (s : ControlState) : List VideoSenderUpdate := s.calls.filterMap ControlCall.returned

/-- What the calls made so far record. -/
def pressures (s : ControlState) : List VideoPressureSnapshot :=
  s.calls.filterMap (·.method.recorded)

end ControlState

/-! ## What a call does -/

/-- A flag is stored only if the call asks for it, and swapped at most once. -/
def accounting (method : ControlMethod) : Prog.Ghost ControlOp ControlOp.Reply Account where
  ok a i :=
    (∀ f, i = .store f → method.request = some f) ∧ ∀ f, i = .swapFlag f → a.swapped f = none
  adm _ _ _ := True
  next := Account.next

/-- The account of a call that is over. -/
structure Account.Settles (a : Account) (method : ControlMethod)
    (update : Option VideoSenderUpdate) : Prop where
  gave : ∀ k, a.gave k = (method.recorded.map (·.count k)).getD 0
  gaveMax : a.gaveMax = (method.recorded.map (·.maxQueueLen)).getD 0
  took : ∀ k, a.took k = (update.map (·.pressure.count k)).getD 0
  tookMax : a.tookMax = (update.map (·.pressure.maxQueueLen)).getD 0
  stored : ∀ f, a.stored f = true ↔ method.request = some f
  swapped : ∀ f, a.swapped f = update.map (·.flag f)

theorem store_settles {method : ControlMethod} {flag : ControlFlag}
    (hrequest : method.request = some flag) (hrecorded : method.recorded = none) :
    (Prog.op (.store flag) fun _ => .ret none : ControlM (Option VideoSenderUpdate)).Wp
      (accounting method) (fun a update => a.Settles method update) .empty := by
  refine ⟨⟨fun f he => ?_, nofun⟩, fun r _ => ⟨fun k => ?_, ?_, fun _ => rfl, rfl, fun f => ?_,
    fun _ => rfl⟩⟩
  · cases he
    exact hrequest
  · rw [hrecorded]
    rfl
  · rw [hrecorded]
    rfl
  · show Function.update (fun _ => false) flag true f = true ↔ _
    rw [hrequest, Option.some.injEq]
    by_cases hf : f = flag
    · subst hf
      simp
    · rw [Function.update_of_ne hf]
      simp [Ne.symm hf]

theorem raiseMax_wp {method : ControlMethod} (value : Nat) (a : Account) :
    (Control.raiseMax value).Wp (accounting method)
      (fun a' _ => a' = { a with gaveMax := max a.gaveMax value }) a := by
  unfold Control.raiseMax
  split
  · exact ⟨⟨nofun, nofun⟩, fun r _ => rfl⟩
  · next hzero =>
    have hvalue : value = 0 := by omega
    subst hvalue
    show a = { a with gaveMax := max a.gaveMax 0 }
    rw [Nat.max_zero]

theorem addTo_wp {method : ControlMethod} (counter : ControlCounter) (value : Nat) (a : Account) :
    (Control.addTo counter value).Wp (accounting method) (fun a' _ =>
      a' = { a with gave := Function.update a.gave counter (a.gave counter + value) }) a := by
  unfold Control.addTo
  split
  · exact ⟨⟨nofun, nofun⟩, fun r _ => rfl⟩
  · next hzero =>
    have hvalue : value = 0 := by omega
    subst hvalue
    show a = { a with gave := Function.update a.gave counter (a.gave counter + 0) }
    rw [Nat.add_zero, Function.update_eq_self]

/-- **One call.**  Whatever the replies, it ends with the account of what it was called for. -/
theorem prog_settles (method : ControlMethod) :
    method.prog.Wp (accounting method) (fun a update => a.Settles method update) .empty := by
  cases method with
  | onSessionRegistered => exact store_settles rfl rfl
  | onSessionJoined needsRefresh =>
    cases needsRefresh with
    | true => exact store_settles rfl rfl
    | false => exact ⟨fun _ => rfl, rfl, fun _ => rfl, rfl, fun f => by simp [Account.empty,
        ControlMethod.request], fun _ => rfl⟩
  | onKeyframeRequested => exact store_settles rfl rfl
  | recordPressure pressure =>
    refine Prog.Wp.bind ?_
    refine Prog.Wp.bind ((raiseMax_wp _ _).mono fun a₁ _ h₁ => ?_)
    refine Prog.Wp.bind ((addTo_wp _ _ _).mono fun a₂ _ h₂ => ?_)
    refine (addTo_wp _ _ _).mono fun a₃ _ h₃ => ?_
    subst h₁ h₂ h₃
    refine ⟨fun k => ?_, ?_, fun _ => rfl, rfl, fun f => ?_, fun _ => rfl⟩
    · cases k <;> simp [Account.empty, ControlMethod.recorded, VideoPressureSnapshot.count]
    · simp [Account.empty, ControlMethod.recorded]
    · simp [Account.empty, ControlMethod.request]
  | nextSenderUpdate =>
    have hnew : ∀ (a : Account) (flag : ControlFlag), a.swapped flag = none →
        (accounting .nextSenderUpdate).ok a (.swapFlag flag) :=
      fun a flag hnone => ⟨nofun, fun f he => by cases he; exact hnone⟩
    have hother : ∀ (a : Account) (i : ControlOp), (∀ f, i ≠ .store f) → (∀ f, i ≠ .swapFlag f) →
        (accounting .nextSenderUpdate).ok a i :=
      fun a i hs hw => ⟨fun f he => absurd he (hs f), fun f he => absurd he (hw f)⟩
    refine ⟨hnew _ _ rfl, fun (refreshEncoder : Bool) _ => ⟨hnew _ _ rfl, fun (forceIdr : Bool) _ =>
      ⟨hother _ _ nofun nofun, fun (maxQueueLen : Nat) _ => ⟨hother _ _ nofun nofun,
        fun (congested : Nat) _ => ⟨hother _ _ nofun nofun, fun (dropped : Nat) _ => ?_⟩⟩⟩⟩⟩
    refine ⟨fun _ => rfl, rfl, fun k => ?_, ?_, fun f => ?_, fun f => ?_⟩
    · cases k <;> simp [accounting, Account.next, Account.empty, VideoPressureSnapshot.count]
    · simp [accounting, Account.next, Account.empty]
    · simp [accounting, Account.next, Account.empty, ControlMethod.request]
    · cases f <;> rfl

/-! ## The steps -/

/-- What a step can do: a call starts, or one performs its next operation. -/
theorem control_step_cases {s s' : ControlState} {a : ControlAction} (h : s.step a = some s') :
    (∃ method, s' = s.start method ∧ s.events a = []) ∨
    (∃ n c i k, s.calls[n]? = some c ∧ c.prog = .op i k ∧ s' = s.performed n c i k ∧
      s.events a = [⟨n, i, (s.control.perform i).1⟩]) := by
  cases a with
  | call method => exact .inl ⟨method, (Option.some.inj h).symm, rfl⟩
  | run n =>
    simp only [ControlState.step] at h
    split at h
    · cases h
    · next c hc =>
      split at h
      · cases h
      · next i k hprog =>
        refine .inr ⟨n, c, i, k, hc, hprog, (Option.some.inj h).symm, ?_⟩
        simp only [ControlState.events, hc, hprog]

theorem getElem?_start {s : ControlState} {method : ControlMethod} {n : Nat} {c : ControlCall}
    (h : (s.start method).calls[n]? = some c) :
    s.calls[n]? = some c ∨ n = s.calls.length ∧ c = ⟨method, method.prog, .empty⟩ := by
  have hget : (s.calls ++ [(⟨method, method.prog, .empty⟩ : ControlCall)])[n]? = some c := h
  rcases Nat.lt_trichotomy n s.calls.length with hlt | heq | hgt
  · left
    rwa [List.getElem?_append_left hlt] at hget
  · right
    subst heq
    rw [List.getElem?_concat_length] at hget
    exact ⟨rfl, (Option.some.inj hget).symm⟩
  · rw [List.getElem?_append_right (Nat.le_of_lt hgt), List.getElem?_eq_none] at hget
    · cases hget
    · rw [List.length_singleton]
      omega

section Performed

variable {s : ControlState} {n : Nat} {c : ControlCall} {i : ControlOp}
  {k : i.Reply → ControlM (Option VideoSenderUpdate)}

theorem getElem?_performed {m : Nat} {c' : ControlCall}
    (h : (s.performed n c i k).calls[m]? = some c') :
    m ≠ n ∧ s.calls[m]? = some c' ∨ m = n ∧ c' =
      ⟨c.method, k (s.control.perform i).1, c.account.next i (s.control.perform i).1⟩ := by
  have hget : (s.calls.set n _)[m]? = some c' := h
  by_cases hm : m = n
  · subst hm
    rw [List.getElem?_set_self'] at hget
    obtain ⟨-, -, rfl⟩ := Option.map_eq_some_iff.mp hget
    exact .inr ⟨rfl, rfl⟩
  · rw [List.getElem?_set_ne (Ne.symm hm)] at hget
    exact .inl ⟨hm, hget⟩

end Performed

/-- Every call is on its way to settle. -/
theorem control_settles {as : List ControlAction} {s : ControlState}
    (h : Run ControlState.step ControlState.init as s) {n : Nat} {c : ControlCall}
    (hc : s.calls[n]? = some c) :
    c.prog.Wp (accounting c.method) (fun a update => a.Settles c.method update) c.account := by
  refine RunWhen.invariant (I := fun s => ∀ (n : Nat) (c : ControlCall), s.calls[n]? = some c →
    c.prog.Wp (accounting c.method) (fun a update => a.Settles c.method update) c.account)
    (fun n c hc => absurd hc (by simp [ControlState.init]))
    (fun s a s' hi _ hs n' c' hc' => ?_) h n c hc
  rcases control_step_cases hs with ⟨method, rfl, -⟩ | ⟨n, c, i, k, hc, hprog, rfl, -⟩
  · rcases getElem?_start hc' with hold | ⟨-, rfl⟩
    · exact hi n' c' hold
    · exact prog_settles method
  · rcases getElem?_performed hc' with ⟨-, hold⟩ | ⟨-, rfl⟩
    · exact hi n' c' hold
    · have hwp := hi n c hc
      rw [hprog] at hwp
      exact hwp.2 _ trivial

/-! ## The accounts balance -/

/-- Combining the values of a list, one of which is replaced by its combination with `v`. -/
theorem foldr_set {α β : Type} (op : β → β → β) [Std.Associative op] [Std.Commutative op] {e v : β}
    {f : α → β} {a b : α} (hb : f b = op (f a) v) : ∀ {l : List α} {n : Nat}, l[n]? = some a →
    ((l.set n b).map f).foldr op e = op ((l.map f).foldr op e) v := by
  have hassoc : ∀ x y z, op (op x y) z = op x (op y z) := Std.Associative.assoc
  have hcomm : ∀ x y, op x y = op y x := Std.Commutative.comm
  intro l
  induction l with
  | nil => intro n hn; cases hn
  | cons x l ih =>
    intro n hn
    cases n with
    | zero =>
      obtain rfl : x = a := Option.some.inj hn
      show op (f b) ((l.map f).foldr op e) = op (op (f x) ((l.map f).foldr op e)) v
      rw [hb, hassoc, hassoc, hcomm v]
    | succ n =>
      have hrest : ((l.set n b).map f).foldr op e = op ((l.map f).foldr op e) v := ih hn
      show op (f x) (((l.set n b).map f).foldr op e) = op (op (f x) ((l.map f).foldr op e)) v
      rw [hrest, hassoc]

namespace ControlState

def total (s : ControlState) (f : Account → Nat) : Nat :=
  (s.calls.map fun c => f c.account).foldr (· + ·) 0

def largest (s : ControlState) (f : Account → Nat) : Nat :=
  (s.calls.map fun c => f c.account).foldr max 0

/-- What the calls gave is what they took and what remains. -/
structure Balanced (s : ControlState) : Prop where
  counters : ∀ k, (s.total (·.took k) + s.control.counters k) % 2 ^ 64 = s.total (·.gave k) % 2 ^ 64
  queueLen : max (s.largest (·.tookMax)) s.control.maxQueueLen = s.largest (·.gaveMax)

theorem total_start (s : ControlState) (method : ControlMethod) {f : Account → Nat}
    (hf : f .empty = 0) : (s.start method).total f = s.total f := by
  show ((s.calls ++ [_]).map fun c : ControlCall => f c.account).foldr (· + ·) 0 = _
  rw [List.map_append, List.foldr_append]
  show (s.calls.map fun c => f c.account).foldr (· + ·) (f .empty + 0) = _
  rw [hf]
  rfl

theorem largest_start (s : ControlState) (method : ControlMethod) {f : Account → Nat}
    (hf : f .empty = 0) : (s.start method).largest f = s.largest f := by
  show ((s.calls ++ [_]).map fun c : ControlCall => f c.account).foldr max 0 = _
  rw [List.map_append, List.foldr_append]
  show (s.calls.map fun c => f c.account).foldr max (max (f .empty) 0) = _
  rw [hf]
  rfl

theorem Balanced.start {s : ControlState} (h : s.Balanced) (method : ControlMethod) :
    (s.start method).Balanced := by
  refine ⟨fun k => ?_, ?_⟩
  · rw [total_start s method rfl, total_start s method rfl]
    exact h.counters k
  · rw [largest_start s method rfl, largest_start s method rfl]
    exact h.queueLen

section Performed

variable {s : ControlState} {n : Nat} {c : ControlCall} {i : ControlOp}
  {k : i.Reply → ControlM (Option VideoSenderUpdate)} {f : Account → Nat} {v : Nat}

theorem total_performed (hc : s.calls[n]? = some c)
    (hf : f (c.account.next i (s.control.perform i).1) = f c.account + v) :
    (s.performed n c i k).total f = s.total f + v :=
  foldr_set ((· + ·) : Nat → Nat → Nat) (f := fun c : ControlCall => f c.account) (a := c)
    (b := ⟨c.method, k _, c.account.next i _⟩) hf hc

theorem largest_performed (hc : s.calls[n]? = some c)
    (hf : f (c.account.next i (s.control.perform i).1) = max (f c.account) v) :
    (s.performed n c i k).largest f = max (s.largest f) v :=
  foldr_set max (f := fun c : ControlCall => f c.account) (a := c)
    (b := ⟨c.method, k _, c.account.next i _⟩) hf hc

/-- Only two operations change a counter: one moves to it what the call gives, the other from it
what the call takes. -/
theorem Balanced.counters_performed (h : s.Balanced) (hc : s.calls[n]? = some c)
    (counter : ControlCounter) :
    ((s.performed n c i k).total (·.took counter) + (s.performed n c i k).control.counters counter)
      % 2 ^ 64 = (s.performed n c i k).total (·.gave counter) % 2 ^ 64 := by
  have hbefore := h.counters counter
  cases i with
  | fetchAdd other value =>
    rw [total_performed (v := 0) hc rfl]
    by_cases heq : counter = other
    · subst heq
      rw [total_performed (v := value) hc (Function.update_self ..)]
      show (_ + Function.update s.control.counters counter _ counter) % _ = _
      rw [Function.update_self]
      omega
    · rw [total_performed (v := 0) hc (Function.update_of_ne heq ..)]
      show (_ + Function.update s.control.counters other _ counter) % _ = _
      rw [Function.update_of_ne heq]
      exact hbefore
  | swapCounter other =>
    rw [total_performed (v := 0) (f := (·.gave counter)) hc rfl]
    by_cases heq : counter = other
    · subst heq
      rw [total_performed (v := s.control.counters counter) hc (Function.update_self ..)]
      show (_ + Function.update s.control.counters counter 0 counter) % _ = _
      rw [Function.update_self]
      exact hbefore
    · rw [total_performed (v := 0) hc (Function.update_of_ne heq ..)]
      show (_ + Function.update s.control.counters other 0 counter) % _ = _
      rw [Function.update_of_ne heq]
      exact hbefore
  | _ =>
    rw [total_performed (v := 0) hc rfl, total_performed (v := 0) hc rfl]
    exact hbefore

theorem Balanced.queueLen_performed (h : s.Balanced) (hc : s.calls[n]? = some c) :
    max ((s.performed n c i k).largest (·.tookMax)) (s.performed n c i k).control.maxQueueLen =
      (s.performed n c i k).largest (·.gaveMax) := by
  have hbefore := h.queueLen
  cases i with
  | fetchMax value =>
    rw [largest_performed (v := 0) (f := (·.tookMax)) hc (Nat.max_zero _).symm,
      largest_performed (v := value) hc rfl]
    show max (max _ 0) (max s.control.maxQueueLen value) = _
    rw [← hbefore]
    omega
  | swapMax =>
    rw [largest_performed (v := s.control.maxQueueLen) hc rfl,
      largest_performed (v := 0) (f := (·.gaveMax)) hc (Nat.max_zero _).symm]
    show max (max _ s.control.maxQueueLen) 0 = _
    omega
  | _ =>
    rw [largest_performed (v := 0) (f := (·.tookMax)) hc (Nat.max_zero _).symm,
      largest_performed (v := 0) (f := (·.gaveMax)) hc (Nat.max_zero _).symm, Nat.max_zero,
      Nat.max_zero]
    exact hbefore

end Performed

theorem balanced_run {as : List ControlAction} {s : ControlState} (h : Run step init as s) :
    s.Balanced := by
  refine h.invariant ⟨fun _ => rfl, rfl⟩ fun s a s' hi _ hs => ?_
  rcases control_step_cases hs with ⟨method, rfl, -⟩ | ⟨n, c, i, k, hc, -, rfl, -⟩
  · exact hi.start method
  · exact ⟨hi.counters_performed hc, hi.queueLen_performed hc⟩

end ControlState

/-! ## The flags -/

/-- The flag was stored, and not swapped since. -/
def Asked (flag : ControlFlag) (log : List ControlEvent) : Prop :=
  Since (·.op = .store flag) (·.op ≠ .swapFlag flag) log

/-- The reply of a swap of the flag. -/
def ControlOp.swapReply (flag : ControlFlag) : (i : ControlOp) → i.Reply → Option Bool
  | .swapFlag f, (r : Bool) => if f = flag then some r else none
  | _, _ => none

def ControlEvent.swapped (flag : ControlFlag) (e : ControlEvent) : Option Bool :=
  e.op.swapReply flag e.reply

/-- The flags are what the log says, and the accounts are those of the calls on it. -/
structure FlagInv (s : ControlState) (log : List ControlEvent) : Prop where
  calls : ∀ e ∈ log, e.call < s.calls.length
  asked : ∀ f, s.control.flags f = true ↔ Asked f log
  replies : Throughout (fun e older => ∀ f r, e.swapped f = some r → (r = true ↔ Asked f older)) log
  stored : ∀ n c, s.calls[n]? = some c → ∀ f,
    (∃ e ∈ log, e.call = n ∧ e.op = .store f) ↔ c.account.stored f = true
  swapped : ∀ n c, s.calls[n]? = some c → ∀ f r,
    (∃ e ∈ log, e.call = n ∧ e.swapped f = some r) ↔ c.account.swapped f = some r

theorem stored_next (a : Account) (i : ControlOp) (r : i.Reply) (f : ControlFlag) :
    (a.next i r).stored f = true ↔ i = .store f ∨ a.stored f = true := by
  cases i with
  | store flag =>
    show Function.update a.stored flag true f = true ↔ _
    by_cases hf : f = flag
    · subst hf
      simp
    · rw [Function.update_of_ne hf]
      simp [Ne.symm hf]
  | _ => exact ⟨.inr, fun h => h.resolve_left nofun⟩

theorem swapped_next (a : Account) (i : ControlOp) (r : i.Reply) (f : ControlFlag) :
    (a.next i r).swapped f = (i.swapReply f r).or (a.swapped f) := by
  cases i with
  | swapFlag flag =>
    show Function.update a.swapped flag (some _) f = _
    by_cases hf : f = flag
    · subst hf
      simp [ControlOp.swapReply]
    · rw [Function.update_of_ne hf]
      simp [ControlOp.swapReply, Ne.symm hf]
  | _ => rfl

theorem op_of_swapReply {i : ControlOp} {r : i.Reply} {f : ControlFlag} {b : Bool}
    (h : i.swapReply f r = some b) : i = .swapFlag f := by
  cases i with
  | swapFlag flag =>
    simp only [ControlOp.swapReply, Option.ite_none_right_eq_some] at h
    rw [h.1]
  | _ => cases h

theorem flags_perform (s : VideoControl) (i : ControlOp) (f : ControlFlag) :
    (s.perform i).2.flags f = true ↔ i = .store f ∨ (i ≠ .swapFlag f ∧ s.flags f = true) := by
  cases i with
  | store flag =>
    show Function.update s.flags flag true f = true ↔ _
    by_cases hf : f = flag
    · subst hf
      simp
    · rw [Function.update_of_ne hf]
      simp [Ne.symm hf]
  | swapFlag flag =>
    show Function.update s.flags flag false f = true ↔ _
    by_cases hf : f = flag
    · subst hf
      simp
    · rw [Function.update_of_ne hf]
      simp [Ne.symm hf]
  | _ => exact ⟨fun h => .inr ⟨nofun, h⟩, fun h => (h.resolve_left nofun).2⟩

theorem swapReply_perform {s : VideoControl} {i : ControlOp} {f : ControlFlag} {b : Bool}
    (h : i.swapReply f (s.perform i).1 = some b) : s.flags f = b := by
  obtain rfl := op_of_swapReply h
  simpa [ControlOp.swapReply, VideoControl.perform] using h

section FlagInv

variable {s : ControlState} {log : List ControlEvent} {n : Nat} {c : ControlCall} {i : ControlOp}
  {k : i.Reply → ControlM (Option VideoSenderUpdate)}

/-- No event is one of the call that starts. -/
theorem FlagInv.start (h : FlagInv s log) (method : ControlMethod) :
    FlagInv (s.start method) log := by
  have hnew : ∀ e ∈ log, e.call ≠ s.calls.length := fun e he => Nat.ne_of_lt (h.calls e he)
  refine ⟨fun e he => ?_, h.asked, h.replies, fun n c hc f => ?_, fun n c hc f r => ?_⟩
  · show e.call < (s.calls ++ [_]).length
    rw [List.length_append]
    exact Nat.lt_add_right _ (h.calls e he)
  · rcases getElem?_start hc with hold | ⟨rfl, rfl⟩
    · exact h.stored n c hold f
    · exact iff_of_false (fun ⟨e, he, hcall, _⟩ => hnew e he hcall) Bool.false_ne_true
  · rcases getElem?_start hc with hold | ⟨rfl, rfl⟩
    · exact h.swapped n c hold f r
    · exact iff_of_false (fun ⟨e, he, hcall, _⟩ => hnew e he hcall) nofun

/-- An operation, by a call that has not swapped the flag before if it does so now. -/
theorem FlagInv.performed (h : FlagInv s log) (hc : s.calls[n]? = some c)
    (honce : ∀ f, i = .swapFlag f → c.account.swapped f = none) :
    FlagInv (s.performed n c i k) (⟨n, i, (s.control.perform i).1⟩ :: log) := by
  refine ⟨fun e he => ?_, fun f => ?_, throughout_cons.mpr ⟨fun f r hr => ?_, h.replies⟩,
    fun m c' hc' f => ?_, fun m c' hc' f r => ?_⟩
  · show e.call < (s.calls.set n _).length
    rw [List.length_set]
    rcases List.mem_cons.mp he with rfl | hold
    · exact (List.getElem?_eq_some_iff.mp hc).1
    · exact h.calls e hold
  · show (s.control.perform i).2.flags f = true ↔ Asked f _
    rw [flags_perform, h.asked, Asked, Asked, since_cons]
  · rw [← h.asked f, swapReply_perform hr]
  · rw [List.exists_mem_cons_iff]
    rcases getElem?_performed hc' with ⟨hm, hold⟩ | ⟨rfl, rfl⟩
    · rw [h.stored m c' hold f]
      exact or_iff_right fun hnow => hm hnow.1.symm
    · rw [stored_next, h.stored m c hc f]
      exact or_congr_left (and_iff_right rfl)
  · rw [List.exists_mem_cons_iff]
    rcases getElem?_performed hc' with ⟨hm, hold⟩ | ⟨rfl, rfl⟩
    · rw [h.swapped m c' hold f]
      exact or_iff_right fun hnow => hm hnow.1.symm
    · rw [swapped_next, h.swapped m c hc f]
      show (_ ∧ i.swapReply f _ = some r) ∨ _ ↔ _
      cases hr : i.swapReply f (s.control.perform i).1 with
      | none => simp
      | some b => simp [honce f (op_of_swapReply hr)]

end FlagInv

theorem flagInv_run {as : List ControlAction} {s : ControlState} {log : List ControlEvent}
    (h : Run (logged ControlState.step ControlState.events) (ControlState.init, []) as (s, log)) :
    FlagInv s log := by
  refine h.relative (I := fun s => FlagInv s.1 s.2) ?_ fun as s a s' hr hi _ hs => ?_
  · refine ⟨fun e he => absurd he List.not_mem_nil, fun f => ?_, throughout_nil _,
      fun n c hc => absurd hc (by simp [ControlState.init]),
      fun n c hc => absurd hc (by simp [ControlState.init])⟩
    exact iff_of_false Bool.false_ne_true (not_since_nil _ _)
  · obtain ⟨s, log⟩ := s
    obtain ⟨s', log'⟩ := s'
    obtain ⟨hstep, hlog⟩ := withGhost_eq_some hs
    obtain rfl : log' = s.events a ++ log := hlog
    rcases control_step_cases hstep with ⟨method, rfl, he⟩ | ⟨n, c, i, k, hc, hprog, rfl, he⟩
    · rw [he]
      exact hi.start method
    · rw [he]
      have hwp := control_settles (withGhost_run hr) hc
      rw [hprog] at hwp
      exact hi.performed hc hwp.1.2

/-! ## Nothing is lost -/

theorem account_settled {as : List ControlAction} {s : ControlState}
    (h : Run ControlState.step ControlState.init as s) {c : ControlCall} (hc : c ∈ s.calls)
    (hdone : c.prog.isDone = true) : c.account.Settles c.method c.returned := by
  obtain ⟨n, hn⟩ := List.mem_iff_getElem?.mp hc
  have hwp := control_settles h hn
  unfold ControlCall.returned
  cases hprog : c.prog with
  | ret update =>
    rw [hprog] at hwp
    exact hwp
  | op i k =>
    rw [hprog] at hdone
    cases hdone

theorem foldr_filterMap {α β γ : Type} {op : β → β → β} {e : β} (hop : ∀ x, op e x = x) {g : α → β}
    {f : α → Option γ} {v : γ → β} {l : List α} (hg : ∀ a ∈ l, g a = ((f a).map v).getD e) :
    (l.map g).foldr op e = ((l.filterMap f).map v).foldr op e := by
  induction l with
  | nil => rfl
  | cons a l ih =>
    have hrest := ih fun b hb => hg b (List.mem_cons_of_mem _ hb)
    have hhead := hg a (List.mem_cons_self ..)
    show op (g a) ((l.map g).foldr op e) = _
    rw [hhead, hrest, List.filterMap_cons]
    cases f a with
    | none => exact hop _
    | some c => rfl

/-- With no call in progress, what is summed over the accounts is what the calls were for. -/
theorem foldr_account {as : List ControlAction} {s : ControlState}
    (h : Run ControlState.step ControlState.init as s) (hidle : s.Idle) {op : Nat → Nat → Nat}
    (hop : ∀ x, op 0 x = x) {γ : Type} {f : Account → Nat} {g : ControlCall → Option γ}
    {v : γ → Nat} (hg : ∀ c : ControlCall, c.account.Settles c.method c.returned →
      f c.account = ((g c).map v).getD 0) :
    (s.calls.map fun c => f c.account).foldr op 0 = ((s.calls.filterMap g).map v).foldr op 0 :=
  foldr_filterMap hop fun c hc => hg c (account_settled h hc (hidle c hc))

/-- **No update is lost.**  In every interleaving and in every state of it, the calls have taken,
with what remains, what they gave; once they are over that is the pressure of the returned updates
and the pressure recorded.  Every swap of a flag, by an update that returns its reply, finds it set
if and only if it was asked for since it was last swapped. -/
theorem no_update_lost {as : List ControlAction} {s : ControlState} {log : List ControlEvent}
    (h : Run (logged ControlState.step ControlState.events) (ControlState.init, []) as (s, log)) :
    s.Balanced ∧
    (∀ c ∈ s.calls, c.prog.isDone = true → c.account.Settles c.method c.returned) ∧
    (s.Idle →
      (∀ k, ((s.updates.map (·.pressure.count k)).sum + s.control.counters k) % 2 ^ 64 =
        (s.pressures.map (·.count k)).sum % 2 ^ 64) ∧
      max ((s.updates.map (·.pressure.maxQueueLen)).foldr max 0) s.control.maxQueueLen =
        (s.pressures.map (·.maxQueueLen)).foldr max 0) ∧
    Throughout (fun e older => ∀ f r, e.swapped f = some r → (r = true ↔ Asked f older)) log ∧
    (∀ n c, s.calls[n]? = some c → ∀ update, c.returned = some update → ∀ f r,
      (∃ e ∈ log, e.call = n ∧ e.swapped f = some r) ↔ update.flag f = r) ∧
    ∀ n c, s.calls[n]? = some c → c.prog.isDone = true → ∀ f,
      (∃ e ∈ log, e.call = n ∧ e.op = .store f) ↔ c.method.request = some f := by
  have hrun : Run ControlState.step ControlState.init as (s, log).1 := withGhost_run h
  have hbalanced := ControlState.balanced_run hrun
  have hflags := flagInv_run h
  have hsettled := fun c hc hdone => account_settled hrun (c := c) hc hdone
  refine ⟨hbalanced, hsettled, fun hidle => ⟨fun k => ?_, ?_⟩, hflags.replies,
    fun n c hc update hupdate f r => ?_, fun n c hc hdone f => ?_⟩
  · have hgave := foldr_account hrun hidle Nat.zero_add (f := (·.gave k))
      (g := (·.method.recorded)) (v := (·.count k)) fun c hc => hc.gave k
    have htook := foldr_account hrun hidle Nat.zero_add (f := (·.took k))
      (g := ControlCall.returned) (v := (·.pressure.count k)) fun c hc => hc.took k
    have hcounters := hbalanced.counters k
    unfold ControlState.total at hcounters
    rw [hgave, htook] at hcounters
    exact hcounters
  · have hgave := foldr_account hrun hidle Nat.zero_max (f := (·.gaveMax))
      (g := (·.method.recorded)) (v := (·.maxQueueLen)) fun c hc => hc.gaveMax
    have htook := foldr_account hrun hidle Nat.zero_max (f := (·.tookMax))
      (g := ControlCall.returned) (v := (·.pressure.maxQueueLen)) fun c hc => hc.tookMax
    have hqueue := hbalanced.queueLen
    unfold ControlState.largest at hqueue
    rw [hgave, htook] at hqueue
    exact hqueue
  · have hdone : c.prog.isDone = true := by
      unfold ControlCall.returned at hupdate
      cases hprog : c.prog with
      | ret _ => rfl
      | op i k =>
        rw [hprog] at hupdate
        cases hupdate
    have hswapped := (hsettled c (List.mem_of_getElem? hc) hdone).swapped f
    rw [hflags.swapped n c hc f r, hswapped, hupdate, Option.map_some, Option.some.injEq]
  · rw [hflags.stored n c hc f]
    exact (hsettled c (List.mem_of_getElem? hc) hdone).stored f

/-- One pressure is split over two updates. -/
def splitPressure : List ControlAction :=
  [.call (.recordPressure ⟨3, 2, 5⟩), .call .nextSenderUpdate, .run 0, .run 1, .run 1, .run 1,
    .run 1, .run 0, .run 0, .run 1, .call .onSessionRegistered, .run 2, .call .nextSenderUpdate,
    .run 3, .run 3, .run 3, .run 3, .run 3]

theorem no_update_lost_split :
    ∃ s log, Run (logged ControlState.step ControlState.events) (ControlState.init, [])
        splitPressure (s, log) ∧
      s.updates = [⟨false, false, ⟨3, 0, 5⟩⟩, ⟨true, false, ⟨0, 2, 0⟩⟩] ∧ s.Balanced := by
  have heval : ∃ sl, Run (logged ControlState.step ControlState.events) (ControlState.init, [])
      splitPressure sl ∧
      sl.1.updates = [⟨false, false, ⟨3, 0, 5⟩⟩, ⟨true, false, ⟨0, 2, 0⟩⟩] :=
    execWhen_any (by decide +kernel)
  obtain ⟨⟨s, log⟩, hrun, hupdates⟩ := heval
  exact ⟨s, log, hrun, hupdates, (no_update_lost hrun).1⟩

end CloudGame.Worker
