/-
Module: Gateway.Scope.Table
Layer: Scope
Purpose: Scopes shared through handles, with guards, watchers and a clock.
Main exports: ScopeTable, ScopeTable.Action, ScopeTable.step, ScopeTable.after, ScopeTable.view,
  ScopeTable.run
-/
import Gateway.Scope

namespace Gateway

/-!
Handles made by cloning share one scope, their *family*.  Dropping a handle ends nothing; dropping a
guard cancels the family that it was made from.  A watcher keeps its own handle, so it is woken by
its family whatever happens to the handle that it was started from.
-/

/-- Families of scopes, and what refers to them. -/
structure ScopeTable where
  now : Instant
  families : List Scope
  /-- The family of each handle; `none` once the handle is dropped. -/
  handles : List (Option Nat)
  /-- The family of each guard. -/
  guards : List Nat
  /-- The family of each watcher. -/
  watchers : List Nat
deriving Repr, DecidableEq

namespace ScopeTable

/-- A table without scopes, at the start of the clock. -/
def empty : ScopeTable := ⟨0, [], [], [], []⟩

/-- What can be done with scopes.  Handles and guards are numbered in the order of their making, and
times are in nanoseconds.  A deadline may be past already. -/
inductive Action where
  | fromTimeout (timeout : Nat)
  | unbounded
  | endingAt (deadline : Instant)
  | clone (handle : Nat)
  | cancel (handle : Nat)
  | drop (handle : Nat)
  | guard (handle : Nat)
  | dropGuard (guard : Nat)
  | watch (handle : Nat)
  | advance (time : Nat)
deriving Repr, DecidableEq

/-- The family behind a handle. -/
def family? (t : ScopeTable) (handle : Nat) : Option Nat :=
  t.handles[handle]?.join

/-- Adds a family with one handle. -/
def addFamily (t : ScopeTable) (scope : Scope) : ScopeTable :=
  { t with families := t.families ++ [scope], handles := t.handles ++ [some t.families.length] }

/-- Cancels a family. -/
def cancelFamily (t : ScopeTable) (family : Option Nat) : ScopeTable :=
  match family with
  | some f => { t with families := t.families.modify f Scope.cancel }
  | none => t

/-- Performs an action.  An action on a handle that is gone does nothing; cloning it yields a handle
that is gone as well. -/
def step (t : ScopeTable) : Action → ScopeTable
  | .fromTimeout timeout => t.addFamily (Scope.ofTimeout t.now timeout)
  | .unbounded => t.addFamily Scope.unbounded
  | .endingAt deadline => t.addFamily (Scope.endingAt deadline)
  | .clone handle => { t with handles := t.handles ++ [t.family? handle] }
  | .cancel handle => t.cancelFamily (t.family? handle)
  | .drop handle => { t with handles := t.handles.set handle none }
  | .guard handle => { t with guards := t.guards ++ (t.family? handle).toList }
  | .dropGuard guard => t.cancelFamily t.guards[guard]?
  | .watch handle => { t with watchers := t.watchers ++ (t.family? handle).toList }
  | .advance time => { t with now := t.now + time }

/-- What can be seen of a handle. -/
structure HandleView where
  bounded : Bool
  remainingMs : Option Nat
  cancelled : Bool
  done : Bool
deriving Repr, DecidableEq

/-- What can be seen of a table: its handles, and whether each watcher has been woken. -/
structure View where
  handles : List (Option HandleView)
  watchers : List Bool
deriving Repr, DecidableEq

/-- What can be seen of a scope. -/
def viewScope (now : Instant) (scope : Scope) : HandleView where
  bounded := scope.deadline.isSome
  remainingMs := scope.remainingMs now
  cancelled := scope.cancelled
  done := scope.isDone now

/-- What can be seen now. -/
def view (t : ScopeTable) : View where
  handles := t.handles.map fun h => (h.bind (t.families[·]?)).map (viewScope t.now)
  watchers := t.watchers.map fun f => (t.families[f]?).any (·.isDone t.now)

/-- The table after a list of actions. -/
def after (t : ScopeTable) (actions : List Action) : ScopeTable :=
  actions.foldl step t

/-- The views after each of a list of actions. -/
def run (t : ScopeTable) : List Action → List View
  | [] => []
  | action :: actions => (t.step action).view :: (t.step action).run actions

end ScopeTable

end Gateway
