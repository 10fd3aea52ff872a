/-
Module: Gateway.Endpoint.Holding
Layer: Endpoint
Purpose: The scope of a request together with everyone who holds it.
Main exports: Endpoint.Holding, Endpoint.Holding.Move, Endpoint.Holding.begin,
  Endpoint.Holding.step, Endpoint.Holding.run, Endpoint.Holding.pipelineCancels
-/
import Gateway.Endpoint.Race
import Gateway.Scope.Table

namespace Gateway.Endpoint

/-!
The one who waits makes the scope, makes a guard of it, and passes a clone to the pipeline.  When
the deadline is noticed it cancels the scope; however its wait ends, the client's departure
included, its guard and its handle are dropped.  The pipeline's handle is dropped when the pipeline
ends.  Meanwhile the pipeline may pass clones on, and whoever has one may clone it, watch it, cancel
it, drop it, or make a guard of it, also long after the pipeline has ended.

Nothing but these handles and guards cancels the scope here; what the race looks at is what they
have made of it.
-/

/-- A race, and the table of the handles on its scope. -/
structure Holding where
  race : Race
  table : ScopeTable

namespace Holding

/-- The handle of the one who waits. -/
def ownHandle : Nat := 0

/-- The guard of the one who waits. -/
def ownGuard : Nat := 0

/-- The handle that is passed to the pipeline. -/
def passedHandle : Nat := 1

/-- The scope that the handles refer to: the first family. -/
def scopeOf (table : ScopeTable) : Scope :=
  table.families[0]?.getD .unbounded

/-- A race whose scope is as the handles have left it. -/
def after (race : Race) (table : ScopeTable) : Holding :=
  ⟨{ race with scope := scopeOf table }, table⟩

/-- The table that an invocation begins with. -/
def firstTable (start : Instant) (timeout : Nat) : ScopeTable :=
  ScopeTable.after ⟨start, [], [], [], []⟩
    [.fromTimeout timeout, .guard ownHandle, .clone ownHandle]

/-- A request reaches its pipeline; its scope counts from now. -/
def begin (start : Instant) (timeout : Nat) (program : Pipeline.Program) : Holding :=
  let table := firstTable start timeout
  ⟨.ofInvocation ⟨start, scopeOf table, none, program⟩, table⟩

/-- What can happen next. -/
inductive Move where
  /-- A move of the race. -/
  | race (move : Race.Move)
  /-- Something is done with a handle or a guard that the pipeline made. -/
  | hold (action : ScopeTable.Action)
deriving Repr, DecidableEq

/-- What a move of the race does with handles and guards. -/
def actionsOf (r : Race) : Race.Move → List ScopeTable.Action
  | .task _ =>
    match r.task with
    | some (.cancel _) => [.cancel passedHandle]
    | some (.answer _) => [.drop passedHandle]
    | some .crash => [.drop passedHandle]
    | _ => []
  | .look =>
    match r.slot with
    | .empty => [.cancel ownHandle, .dropGuard ownGuard, .drop ownHandle]
    | _ => [.dropGuard ownGuard, .drop ownHandle]
  | .leave => [.dropGuard ownGuard, .drop ownHandle]
  | .tick => [.advance 1]

/-- Whether the pipeline, or whoever it gave a handle, can do a thing: what the one who waits keeps
is out of reach, and the handle that was passed stays with the pipeline to its end. -/
def isPermitted : ScopeTable.Action → Bool
  | .clone handle | .cancel handle | .guard handle | .watch handle => handle != ownHandle
  | .drop handle => handle != ownHandle && handle != passedHandle
  | .dropGuard guard => guard != ownGuard
  | _ => false

/-- What a move leads to, if it can be made. -/
def step (h : Holding) : Move → Option Holding
  | .race move => (h.race.step move).map fun r => after r (h.table.after (actionsOf h.race move))
  | .hold action => if isPermitted action then some (after h.race (h.table.step action)) else none

/-- What moves lead to, one after the other. -/
def run (h : Holding) : List Move → Option Holding
  | [] => some h
  | move :: moves => (h.step move).bind fun h => h.run moves

/-- Whether an action cancels the scope that it refers to. -/
def ends (table : ScopeTable) : ScopeTable.Action → Bool
  | .cancel handle => (table.family? handle).isSome
  | .dropGuard guard => table.guards[guard]?.isSome
  | _ => false

/-- Whether a move is one by which the pipeline, or whoever it gave a handle, cancels the scope. -/
def cancels (h : Holding) : Move → Bool
  | .race (.task _) => h.race.aboutToCancel
  | .hold action => isPermitted action && ends h.table action
  | _ => false

/-- Whether the pipeline, or whoever it gave a handle, cancels the scope in the course of some
moves. -/
def pipelineCancels (h : Holding) : List Move → Bool
  | [] => false
  | move :: moves => h.cancels move || (h.step move).any fun h => h.pipelineCancels moves

end Holding

end Gateway.Endpoint
