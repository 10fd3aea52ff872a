/-
Module: Gateway.Scope
Layer: Scope
Purpose: Cancellable, time-bounded scopes for the work on one request.
Main exports: Instant, Scope, Scope.ofTimeout, Scope.remaining, Scope.isDone, Scope.cancel
-/
namespace Gateway

/-!
A scope ends when it is cancelled or when its deadline passes, and only the former marks it as
cancelled.  A timeout of zero means *no deadline*, not an immediate one.  Timers have whole
milliseconds: work that waits for a deadline is woken at the deadline rounded up.
-/

/-- Nanoseconds since the clock started. -/
abbrev Instant := Nat

/-- Nanoseconds in a millisecond. -/
def millisecond : Nat := 1000000

/-- The first whole millisecond that is not before an instant. -/
def roundUp (t : Instant) : Instant :=
  (t + (millisecond - 1)) / millisecond * millisecond

/-- A cancellable scope with an optional deadline. -/
structure Scope where
  deadline : Option Instant
  cancelled : Bool
deriving Repr, DecidableEq, Inhabited

namespace Scope

/-- A scope without a deadline. -/
def unbounded : Scope := ⟨none, false⟩

/-- A scope that expires at an instant. -/
def endingAt (deadline : Instant) : Scope := ⟨some deadline, false⟩

/-- The scope of a timeout that starts now; zero stands for no deadline. -/
def ofTimeout (now : Instant) (timeout : Nat) : Scope :=
  if timeout = 0 then unbounded else endingAt (now + timeout)

/-- Marks the scope as cancelled. -/
def cancel (scope : Scope) : Scope :=
  { scope with cancelled := true }

/-- The time left before the deadline; nothing is left of a deadline that has passed. -/
def remaining (scope : Scope) (now : Instant) : Option Nat :=
  scope.deadline.map (· - now)

/-- The time left in whole milliseconds. -/
def remainingMs (scope : Scope) (now : Instant) : Option Nat :=
  (scope.remaining now).map (· / millisecond)

/-- Whether work that waits for the scope's deadline has been woken. -/
def expired (scope : Scope) (now : Instant) : Bool :=
  scope.deadline.any fun deadline => roundUp deadline ≤ now

/-- Whether work that waits for the scope to end has been woken. -/
def isDone (scope : Scope) (now : Instant) : Bool :=
  scope.cancelled || scope.expired now

end Scope

end Gateway
