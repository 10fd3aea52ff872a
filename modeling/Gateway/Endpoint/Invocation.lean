/-
Module: Gateway.Endpoint.Invocation
Layer: Endpoint
Purpose: Waiting for a pipeline: its answer, the deadline or the client's departure, whichever is
  first.
Main exports: Endpoint.Invocation, Endpoint.Invocation.stop, Endpoint.Invocation.conclusion,
  Endpoint.Conclusion
-/
import Gateway.Pipeline.Program
import Gateway.Endpoint.Outcome

namespace Gateway.Endpoint

/-!
A pipeline runs on its own and leaves its answer in a slot.  Whoever waits for it looks at two
things only: the slot, and the clock.  A cancellation of the scope is no reason to stop waiting.
Once the wait is over, however that came about, the scope is cancelled, and an answer that comes
later is dropped.
-/

/-- How a wait came to its end. -/
inductive Conclusion where
  | ended (instant : Instant) (outcome : Outcome)
  /-- The client went away. -/
  | abandoned (instant : Instant)
  /-- Nothing ever happens. -/
  | unending

/-- A pipeline at work on a request. -/
structure Invocation where
  start : Instant
  scope : Scope
  /-- When the client goes away, if it does not wait for ever. -/
  leaves : Option Instant
  program : Pipeline.Program

namespace Invocation

/-- When the deadline is noticed. -/
def deadline (inv : Invocation) : Option Instant :=
  inv.scope.deadline.map roundUp

/-- When the wait ends at the latest. -/
def stop (inv : Invocation) : Option Instant :=
  Pipeline.sooner inv.deadline inv.leaves

/-- What the pipeline does. -/
def trace (inv : Invocation) : Pipeline.Trace :=
  inv.program.trace inv.stop inv.start inv.scope

/-- What the end of a program means to whoever waits for it. -/
def outcomeOf : Pipeline.Ending → Outcome
  | .returned answer => .ofAnswer answer
  | .crashed => .failed .aborted

/-- The end of a wait that the pipeline did not end. -/
def givenUp (inv : Invocation) : Conclusion :=
  match inv.deadline, inv.leaves with
  | none, none => .unending
  | some deadline, none => .ended deadline .timeout
  | none, some leaves => .abandoned leaves
  | some deadline, some leaves =>
    if deadline ≤ leaves then .ended deadline .timeout else .abandoned leaves

/-- The end of the pipeline, if it comes while someone waits for it. -/
def inTime? (inv : Invocation) : Option (Instant × Pipeline.Ending) :=
  inv.trace.ending.filter fun e => inv.stop.all (e.1 < ·)

/-- The end of the pipeline, if it comes after the wait is over. -/
def late? (inv : Invocation) : Option (Instant × Pipeline.Ending) :=
  inv.trace.ending.filter fun e => inv.stop.any (· ≤ e.1)

/-- How the wait ends. -/
def conclusion (inv : Invocation) : Conclusion :=
  match inv.inTime? with
  | some (instant, ending) => .ended instant (outcomeOf ending)
  | none => inv.givenUp

end Invocation

end Gateway.Endpoint
