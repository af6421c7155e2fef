import Mathlib.Logic.Basic

/-!
# A notification cell with one waiting future

`Notify` is the state of `tokio::sync::Notify`: at most one stored permit, and the number of
`notify_waiters` calls so far.  A future made by `notified` (`Notified`) remembers that number,
parks when it is polled and finds neither a permit nor a newer `notify_waiters`, and is woken by
either notification while it is parked.  `notify_one` stores a permit when nobody is parked;
`notify_waiters` stores none, so it is lost on a future that is created later.
-/

namespace CloudGame.Lib

structure Notify where
  permit : Bool
  waitersCalls : Nat
deriving DecidableEq

/-- A future of `notified()`: created and not polled yet, parked, or woken. -/
inductive Notified where
  | created (waitersCalls : Nat)
  | parked
  | woken
deriving DecidableEq

namespace Notify

def new : Notify := ⟨false, 0⟩

def notified (n : Notify) : Notified := .created n.waitersCalls

/-- `notify_one`, with the future that may be waiting. -/
def notifyOne (n : Notify) (waiter : Option Notified) : Notify × Option Notified :=
  if waiter = some .parked then (n, some .woken) else ({ n with permit := true }, waiter)

/-- `notify_waiters`, with the future that may be waiting. -/
def notifyWaiters (n : Notify) (waiter : Option Notified) : Notify × Option Notified :=
  ({ n with waitersCalls := n.waitersCalls + 1 },
    if waiter = some .parked then some .woken else waiter)

/-- One poll: `none` when the future is done, else the future. -/
def poll (n : Notify) : Notified → Notify × Option Notified
  | .created calls =>
    if n.permit then ({ n with permit := false }, none)
    else if calls = n.waitersCalls then (n, some .parked)
    else (n, none)
  | .parked => (n, some .parked)
  | .woken => (n, none)

end Notify

end CloudGame.Lib
