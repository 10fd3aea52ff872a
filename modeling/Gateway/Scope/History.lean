/-
Module: Gateway.Scope.History
Layer: Scope
Purpose: What has become of a scope, read off the actions alone.
Main exports: ScopeTable.Refers, ScopeTable.GuardOf, ScopeTable.WatcherOf, ScopeTable.OpenedWith,
  ScopeTable.CancelledIn, ScopeTable.DoneIn
-/
import Gateway.Scope.Table

namespace Gateway.ScopeTable

/-!
A scope is known by its number, and whose it is follows from how the handles were made: a clone is
of the scope of the handle that it was cloned from, and so are guards and watchers.  Nothing here
looks at what a table keeps of its scopes; only the numbers of new handles, guards and watchers, and
of new scopes, are those that the table gives out.
-/

/-- How much time an action takes. -/
def duration : Action → Nat
  | .advance time => time
  | _ => 0

/-- How much time actions take, all in all. -/
def elapsed : List Action → Nat
  | [] => 0
  | action :: actions => duration action + elapsed actions

/-- The deadline of the scope that an action opens at a moment, if it opens one.  A timeout of zero
stands for no deadline. -/
def opening? (now : Instant) : Action → Option (Option Instant)
  | .fromTimeout timeout => some (if timeout = 0 then none else some (now + timeout))
  | .unbounded => some none
  | .endingAt deadline => some (some deadline)
  | _ => none

/-- Among the actions there is one of a kind, given the actions before it. -/
def Happened (kind : List Action → Action → Prop) (actions : List Action) : Prop :=
  ∃ past action rest, actions = past ++ action :: rest ∧ kind past action

/-- The scope of this number was opened with this deadline. -/
def OpenedWith (actions : List Action) (scope : Nat) (deadline : Option Instant) : Prop :=
  Happened (fun past action => opening? (elapsed past) action = some deadline ∧
    scope = (empty.after past).families.length) actions

/-- The handle is there, and it was made for the scope or cloned from a handle of the scope. -/
inductive Refers : List Action → Nat → Nat → Prop where
  | opened {past : List Action} {action : Action} {deadline : Option Instant} :
      opening? (elapsed past) action = some deadline →
      Refers (past ++ [action]) (empty.after past).handles.length (empty.after past).families.length
  | cloned {past : List Action} {handle scope : Nat} :
      Refers past handle scope →
      Refers (past ++ [.clone handle]) (empty.after past).handles.length scope
  | kept {past : List Action} {action : Action} {handle scope : Nat} :
      Refers past handle scope → action ≠ .drop handle → Refers (past ++ [action]) handle scope

/-- The guard was made from a handle of the scope. -/
def GuardOf (actions : List Action) (guard scope : Nat) : Prop :=
  Happened (fun past action => ∃ handle, action = .guard handle ∧ Refers past handle scope ∧
    guard = (empty.after past).guards.length) actions

/-- The watcher was started from a handle of the scope. -/
def WatcherOf (actions : List Action) (watcher scope : Nat) : Prop :=
  Happened (fun past action => ∃ handle, action = .watch handle ∧ Refers past handle scope ∧
    watcher = (empty.after past).watchers.length) actions

/-- The action cancels the scope, through one of its handles or by dropping one of its guards. -/
def Cancels (scope : Nat) (past : List Action) (action : Action) : Prop :=
  (∃ handle, action = .cancel handle ∧ Refers past handle scope) ∨
    ∃ guard, action = .dropGuard guard ∧ GuardOf past guard scope

/-- The scope has been cancelled. -/
def CancelledIn (actions : List Action) (scope : Nat) : Prop :=
  Happened (Cancels scope) actions

/-- The scope has been cancelled, or the whole millisecond is there that its deadline is rounded
up to. -/
def DoneIn (actions : List Action) (scope : Nat) : Prop :=
  CancelledIn actions scope ∨
    ∃ deadline, OpenedWith actions scope (some deadline) ∧ roundUp deadline ≤ elapsed actions

end Gateway.ScopeTable
