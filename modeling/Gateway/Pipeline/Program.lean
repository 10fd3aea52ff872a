/-
Module: Gateway.Pipeline.Program
Layer: Pipeline
Purpose: What a pipeline does while it works on a request.
Main exports: Pipeline.Program, Pipeline, Pipeline.Ending, Pipeline.Trace, Pipeline.Program.trace
-/
import Gateway.Pipeline
import Gateway.Scope

namespace Gateway

/-!
A pipeline shares nothing with its caller but the scope of the request: it may look at the scope and
at the clock, wait, cancel the scope, and at last answer or break down.  Its caller can do one thing
to it, which is to cancel the scope once it stops waiting for the answer.

So the course of a program is settled by the instant at which the caller stops waiting.  At that
very instant the caller comes first: a program that looks at the scope then finds it cancelled.
-/

namespace Pipeline

/-- What a pipeline sees when it looks at its scope. -/
structure Glimpse where
  now : Instant
  scope : Scope
deriving Repr, DecidableEq

/-- What a pipeline does, one thing after the other. -/
inductive Program where
  /-- Answers, which ends the program. -/
  | answer (answer : Answer)
  /-- Breaks down without an answer. -/
  | crash
  /-- Does nothing any more, for ever. -/
  | stall
  /-- Leaves a note for whoever watches. -/
  | note (label : String) (next : Program)
  /-- Cancels the scope. -/
  | cancel (next : Program)
  /-- Sleeps until an instant; one that has passed does not delay the program. -/
  | sleepUntil (instant : Instant) (next : Program)
  /-- Waits for the scope to end. -/
  | awaitEnd (next : Program)
  /-- Waits for what comes at an instant, unless the scope ends before.  No timer takes part in
  that, so the instant need not be a whole millisecond. -/
  | sleepOrEnd (instant : Instant) (slept ended : Program)
  /-- Looks at the clock and the scope. -/
  | inspect (next : Glimpse → Program)

/-- How a program comes to its end. -/
inductive Ending where
  | returned (answer : Answer)
  | crashed
deriving Repr

/-- The course of a program: its notes, and the end if there is one. -/
structure Trace where
  notes : List (Instant × String)
  ending : Option (Instant × Ending)

/-- The earlier of two instants, either of which may never come. -/
def sooner : Option Instant → Option Instant → Option Instant
  | some s, some t => some (min s t)
  | some s, none => some s
  | none, t => t

/-- The scope at an instant, its program's caller having stopped waiting at `stop`. -/
def scopeAt (stop : Option Instant) (now : Instant) (scope : Scope) : Scope :=
  if stop.any (· ≤ now) then scope.cancel else scope

/-- When the scope ends for a program that waits for it from now on. -/
def endOf (stop : Option Instant) (now : Instant) (scope : Scope) : Option Instant :=
  if (scopeAt stop now scope).isDone now then some now
  else sooner stop (scope.deadline.map roundUp)

namespace Program

/-- The course of a program whose caller stops waiting at `stop`. -/
def trace (stop : Option Instant) : Program → Instant → Scope → Trace
  | .answer given, now, _ => ⟨[], some (now, .returned given)⟩
  | .crash, now, _ => ⟨[], some (now, .crashed)⟩
  | .stall, _, _ => ⟨[], none⟩
  | .note label next, now, scope =>
    let rest := next.trace stop now scope
    { rest with notes := (now, label) :: rest.notes }
  | .cancel next, now, scope => next.trace stop now scope.cancel
  | .sleepUntil instant next, now, scope => next.trace stop (max now (roundUp instant)) scope
  | .awaitEnd next, now, scope =>
    match endOf stop now scope with
    | some ended => next.trace stop ended scope
    | none => ⟨[], none⟩
  | .sleepOrEnd instant slept ended, now, scope =>
    let wake := max now instant
    match endOf stop now scope with
    | some done =>
      if done ≤ wake then ended.trace stop done scope else slept.trace stop wake scope
    | none => slept.trace stop wake scope
  | .inspect next, now, scope => (next ⟨now, scopeAt stop now scope⟩).trace stop now scope

end Program

end Pipeline

/-- A pipeline: what it does for each request. -/
abbrev Pipeline := Pipeline.Request → Pipeline.Program

/-- The pipeline of an endpoint without a backend: it answers at once, with no payload. -/
def Pipeline.idle : Pipeline :=
  fun _ => .answer (.ok none)

end Gateway
