/-
Module: Gateway.Endpoint.Race
Layer: Endpoint
Purpose: A pipeline and the one who waits for it, step by step and in any order.
Main exports: Endpoint.Race, Endpoint.Race.Move, Endpoint.Race.step, Endpoint.Race.run,
  Endpoint.Race.course, Endpoint.Crowd, Endpoint.Crowd.step
-/
import Gateway.Endpoint.Invocation

namespace Gateway.Endpoint

/-!
The pipeline and the one who waits run side by side, and nothing orders their steps but the clock:
it moves on only when neither can take a step.  When both can, either may be first.

The one who waits looks at the slot before looking at the clock, so an answer that is already there
wins over a deadline that has passed.  However the wait ends, the scope is cancelled in the same
step.  An answer that finds nobody waiting is dropped and counted; a breakdown that finds nobody
waiting leaves no trace.
-/

/-- Where a pipeline leaves its answer. -/
inductive Slot where
  | empty
  | filled (answer : Pipeline.Answer)
  /-- The pipeline broke down: there will be no answer. -/
  | lost

/-- The one who waits. -/
inductive Waiter where
  | waiting
  | ended (instant : Instant) (outcome : Outcome)
  /-- The client went away. -/
  | gone (instant : Instant)

/-- How the wait ended, if it has. -/
def Waiter.conclusion? : Waiter → Option Conclusion
  | .waiting => none
  | .ended instant outcome => some (.ended instant outcome)
  | .gone instant => some (.abandoned instant)

/-- A pipeline and the one who waits for it. -/
structure Race where
  now : Instant
  scope : Scope
  /-- What the pipeline still has to do; `none` once it has ended. -/
  task : Option Pipeline.Program
  slot : Slot
  waiter : Waiter
  notes : List (Instant × String)
  /-- How many answers found nobody waiting. -/
  dropped : Nat

namespace Race

/-- The race that an invocation begins with. -/
def ofInvocation (inv : Invocation) : Race where
  now := inv.start
  scope := inv.scope
  task := some inv.program
  slot := .empty
  waiter := .waiting
  notes := []
  dropped := 0

/-- What can happen next. -/
inductive Move where
  /-- The pipeline goes on.  If it both slept enough and saw its scope end, the flag tells which of
  the two it follows. -/
  | task (followsEnd : Bool)
  /-- The one who waits looks at the slot and at the clock. -/
  | look
  /-- The client goes away. -/
  | leave
  /-- A nanosecond passes. -/
  | tick
deriving Repr, DecidableEq

/-- The pipeline's next step. -/
def stepTask (r : Race) (followsEnd : Bool) : Pipeline.Program → Option Race
  | .answer answer =>
    match r.waiter with
    | .waiting => some { r with task := none, slot := .filled answer }
    | _ => some { r with task := none, dropped := r.dropped + 1 }
  | .crash =>
    match r.waiter with
    | .waiting => some { r with task := none, slot := .lost }
    | _ => some { r with task := none }
  | .stall => none
  | .note label next => some { r with task := some next, notes := r.notes ++ [(r.now, label)] }
  | .cancel next => some { r with task := some next, scope := r.scope.cancel }
  | .sleepUntil instant next =>
    if roundUp instant ≤ r.now then some { r with task := some next } else none
  | .awaitEnd next =>
    if r.scope.isDone r.now then some { r with task := some next } else none
  | .sleepOrEnd instant slept ended =>
    let awake : Bool := instant ≤ r.now
    if r.scope.isDone r.now && (followsEnd || !awake) then some { r with task := some ended }
    else if awake then some { r with task := some slept }
    else none
  | .inspect next => some { r with task := some (next ⟨r.now, r.scope⟩) }

/-- The end of the wait, the scope being cancelled with it. -/
def finish (r : Race) (waiter : Waiter) : Race :=
  { r with waiter, scope := r.scope.cancel }

/-- The next step of the one who waits. -/
def stepWaiter (r : Race) : Option Race :=
  match r.waiter with
  | .waiting =>
    match r.slot with
    | .filled answer => some (r.finish (.ended r.now (.ofAnswer answer)))
    | .lost => some (r.finish (.ended r.now (.failed .aborted)))
    | .empty =>
      if r.scope.expired r.now then some (r.finish (.ended r.now .timeout)) else none
  | _ => none

/-- Whether the pipeline or the one who waits can take a step. -/
def isBusy (r : Race) : Bool :=
  (r.task.bind (r.stepTask false)).isSome || r.stepWaiter.isSome

/-- What a move leads to, if it can be made. -/
def step (r : Race) : Move → Option Race
  | .task followsEnd => r.task.bind (r.stepTask followsEnd)
  | .look => r.stepWaiter
  | .leave =>
    match r.waiter with
    | .waiting => some (r.finish (.gone r.now))
    | _ => none
  | .tick => if r.isBusy then none else some { r with now := r.now + 1 }

/-- What moves lead to, one after the other. -/
def run (r : Race) : List Move → Option Race
  | [] => some r
  | move :: moves => (r.step move).bind fun r => r.run moves

/-- Whether the next step of the pipeline is to cancel its scope. -/
def aboutToCancel (r : Race) : Bool :=
  match r.task with
  | some (.cancel _) => true
  | _ => false

/-- Whether the pipeline itself cancels its scope in the course of some moves. -/
def cancelsItself (r : Race) : List Move → Bool
  | [] => false
  | move :: moves =>
    match move, r.aboutToCancel with
    | .task _, true => true
    | _, _ => (r.step move).any fun r => r.cancelsItself moves

/-! ### A client with a time to leave -/

/-- Whether someone waits who has to leave now. -/
def mustLeave (leaves : Option Instant) (r : Race) : Bool :=
  r.waiter.conclusion?.isNone && leaves == some r.now

/-- Whether a client that leaves at an instant lets a move happen: it leaves at no other instant,
and the clock does not pass that instant before it has left. -/
def permits (leaves : Option Instant) (r : Race) : Move → Bool
  | .leave => leaves == some r.now
  | .tick => !r.mustLeave leaves
  | _ => true

/-- What moves lead to, one after the other, if the client lets them happen. -/
def course (leaves : Option Instant) (r : Race) : List Move → Option Race
  | [] => some r
  | move :: moves =>
    if r.permits leaves move then (r.step move).bind fun r => r.course leaves moves else none

end Race

/-! ### Many at once -/

/-- Races under one clock. -/
structure Crowd where
  now : Instant
  races : List Race

namespace Crowd

/-- What can happen next in a crowd. -/
inductive Move where
  /-- A request reaches its pipeline; its scope counts from now. -/
  | arrive (timeout : Nat) (program : Pipeline.Program)
  /-- Something other than the clock moves in one of the races. -/
  | within (index : Nat) (move : Race.Move)
  | tick

/-- A race that begins now. -/
def newRace (now : Instant) (timeout : Nat) (program : Pipeline.Program) : Race :=
  .ofInvocation ⟨now, .ofTimeout now timeout, none, program⟩

/-- What a move leads to, if it can be made: the clock moves only when it can move in all races. -/
def step (c : Crowd) : Move → Option Crowd
  | .arrive timeout program =>
    some { c with races := c.races ++ [newRace c.now timeout program] }
  | .within index move =>
    if move = .tick then none
    else do
      let race ← c.races[index]?
      let moved ← race.step move
      return { c with races := c.races.set index moved }
  | .tick => do
    let races ← c.races.mapM (·.step .tick)
    return ⟨c.now + 1, races⟩

/-- What moves lead to, one after the other. -/
def run (c : Crowd) : List Move → Option Crowd
  | [] => some c
  | move :: moves => (c.step move).bind fun c => c.run moves

end Crowd

end Gateway.Endpoint
