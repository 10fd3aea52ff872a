/-
Module: Gateway.Proofs.Cancellation
Layer: Proofs
Purpose: Who can see when that the wait for a pipeline is over.  Everything that refers to the scope
  of a request refers to one family (`ScopeTable.Sole`), and that stays so whoever does what
  (`Holding.Shared.step`).  The end of the wait cancels this family and nothing but the pipeline's
  side cancels it before, so whoever holds the scope sees it cancelled if and only if the wait is
  over or the pipeline's side cancelled it (`Handler.scope_told_at_every_moment`).
Main exports: ScopeTable.Sole, ScopeTable.Sole.step, Holding.Shared, Holding.Shared.step,
  Holding.Shared.run, Holding.Told, Holding.exists_run_of_race, Race.cancelled_iff_of_run,
  Handler.scope_told_at_every_moment
-/
import Gateway.Endpoint.Handler
import Gateway.Endpoint.Holding
import Gateway.Proofs.Race
import Gateway.Proofs.Scopes

namespace Gateway

@[simp] theorem Scope.cancelled_cancel (scope : Scope) : scope.cancel.cancelled = true := rfl
@[simp] theorem Scope.cancel_cancel (scope : Scope) : scope.cancel.cancel = scope.cancel := rfl

/-- A cancelled scope is one that has ended. -/
theorem Scope.isDone_of_cancelled {scope : Scope} (h : scope.cancelled = true) (now : Instant) :
    scope.isDone now = true := by
  rw [isDone, h, Bool.true_or]

/-! ### One family -/

namespace ScopeTable

variable {t : ScopeTable} {scope : Scope}

/-- There is one scope, and all handles, guards and watchers are of this scope. -/
structure Sole (t : ScopeTable) (scope : Scope) : Prop where
  families_eq : t.families = [scope]
  of_handle : ∀ {f}, some f ∈ t.handles → f = 0
  of_guard : ∀ {f}, f ∈ t.guards → f = 0
  of_watcher : ∀ {f}, f ∈ t.watchers → f = 0

/-- Whether an action makes a new scope. -/
def opens : Action → Bool
  | .fromTimeout _ | .unbounded | .endingAt _ => true
  | _ => false

theorem some_mem_handles {handle f : Nat} (h : t.family? handle = some f) :
    some f ∈ t.handles := by
  rw [family?, Option.join_eq_some_iff] at h
  exact List.mem_of_getElem? h

theorem Sole.family_eq (h : t.Sole scope) {handle f : Nat} (hf : t.family? handle = some f) :
    f = 0 :=
  h.of_handle (some_mem_handles hf)

/-- Cancelling the family behind a handle or a guard cancels the scope; if there is none nothing
happens. -/
theorem Sole.cancelFamily (h : t.Sole scope) {family : Option Nat}
    (hf : ∀ f, family = some f → f = 0) :
    (t.cancelFamily family).Sole (if family.isSome then scope.cancel else scope) := by
  cases family with
  | none => exact h
  | some f =>
      obtain rfl := hf f rfl
      exact
        { families_eq := by simp [ScopeTable.cancelFamily, h.families_eq]
          of_handle := h.of_handle
          of_guard := h.of_guard
          of_watcher := h.of_watcher }

/-- An action that makes no new scope leaves it at one, and cancels it or leaves it as it is. -/
theorem Sole.step (h : t.Sole scope) {action : Action} (hopens : opens action = false) :
    (t.step action).Sole (if Endpoint.Holding.ends t action then scope.cancel else scope) := by
  cases action with
  | fromTimeout | unbounded | endingAt => cases hopens
  | clone handle =>
      refine { h with of_handle := ?_ }
      intro f hf
      rcases List.mem_append.1 hf with hf | hf
      · exact h.of_handle hf
      · exact h.family_eq (List.mem_singleton.1 hf).symm
  | cancel handle => exact h.cancelFamily fun _ => h.family_eq
  | drop handle =>
      refine { h with of_handle := ?_ }
      intro f hf
      rcases List.mem_or_eq_of_mem_set hf with hf | hf
      · exact h.of_handle hf
      · cases hf
  | guard handle =>
      refine { h with of_guard := ?_ }
      intro f hf
      rcases List.mem_append.1 hf with hf | hf
      · exact h.of_guard hf
      · exact h.family_eq (Option.mem_toList.1 hf)
  | dropGuard guard => exact h.cancelFamily fun _ hf => h.of_guard (List.mem_of_getElem? hf)
  | watch handle =>
      refine { h with of_watcher := ?_ }
      intro f hf
      rcases List.mem_append.1 hf with hf | hf
      · exact h.of_watcher hf
      · exact h.family_eq (Option.mem_toList.1 hf)
  | advance time => exact { h with }

/-- Guards stay where they are. -/
theorem guards_step {guard f : Nat} (h : t.guards[guard]? = some f) (action : Action) :
    (t.step action).guards[guard]? = some f :=
  guards_step_iff.2 (Or.inl h)

/-- A handle stays where it is until it is dropped. -/
theorem family?_step {handle f : Nat} (h : t.family? handle = some f) {action : Action}
    (hdrop : action ≠ .drop handle) : (t.step action).family? handle = some f :=
  family?_step_iff.2 (Or.inr ⟨h, hdrop⟩)

theorem now_step {action : Action} (h : ∀ time, action ≠ .advance time) :
    (t.step action).now = t.now := by
  rw [now_step_eq]
  cases action with
  | advance time => exact absurd rfl (h time)
  | _ => rfl

/-- Whoever has a handle sees the one scope. -/
theorem Sole.view_eq (h : t.Sole scope) {handle : Nat} {seen : HandleView}
    (hseen : t.view.handles[handle]? = some (some seen)) : seen = viewScope t.now scope := by
  simp only [view, List.getElem?_map, Option.map_eq_some_iff] at hseen
  obtain ⟨held, hheld, f, hf, rfl⟩ := hseen
  obtain ⟨g, rfl, hg⟩ := Option.bind_eq_some_iff.1 hf
  obtain rfl := h.of_handle (List.mem_of_getElem? hheld)
  rw [h.families_eq] at hg
  cases hg
  rfl

theorem Sole.exists_view (h : t.Sole scope) {handle f : Nat} (hf : t.family? handle = some f) :
    t.view.handles[handle]? = some (some (viewScope t.now scope)) := by
  obtain rfl := h.family_eq hf
  have hget : t.handles[handle]? = some (some 0) := Option.join_eq_some_iff.1 hf
  simp [view, hget, h.families_eq]

/-- Once the scope has ended every watcher has been woken. -/
theorem Sole.woken_of_isDone (h : t.Sole scope) (hdone : scope.isDone t.now = true) {woken : Bool}
    (hmem : woken ∈ t.view.watchers) : woken = true := by
  simp only [view, List.mem_map] at hmem
  obtain ⟨f, hf, rfl⟩ := hmem
  obtain rfl := h.of_watcher hf
  simp [h.families_eq, hdone]

end ScopeTable

namespace Endpoint

open ScopeTable (opens)

/-! ### The race alone -/

theorem Race.aboutToCancel_of_ending {r : Race} {e : Pipeline.Ending} (h : r.ending? = some e) :
    r.aboutToCancel = false := by
  unfold ending? at h
  unfold aboutToCancel
  split at h <;> simp_all

/-- The scope is cancelled if and only if the wait is over or someone else cancelled it. -/
def Race.Told (r : Race) (otherwise : Bool) : Prop :=
  r.scope.cancelled = true ↔ r.waiter ≠ .waiting ∨ otherwise = true

theorem Race.Told.finish (r : Race) {waiter : Waiter} (h : waiter ≠ .waiting) (otherwise : Bool) :
    (r.finish waiter).Told otherwise :=
  iff_of_true rfl (Or.inl h)

theorem Race.Told.cancel_if {r : Race} {otherwise : Bool} (h : r.Told otherwise) (cancels : Bool) :
    Race.Told { r with scope := if cancels then r.scope.cancel else r.scope }
      (otherwise || cancels) := by
  cases cancels with
  | true => simp [Told]
  | false => simpa [Told] using h

/-- Only the end of the wait and the pipeline cancel the scope of a race. -/
theorem Race.Told.step {r s : Race} {otherwise : Bool} (h : r.Told otherwise) {move : Race.Move}
    (hstep : r.step move = some s) (table : ScopeTable) :
    s.Told (otherwise || Holding.cancels ⟨r, table⟩ (.race move)) := by
  cases move with
  | task followsEnd =>
      rcases Race.task_inv hstep with ⟨e, he, rfl⟩ | ⟨_, _, _, _, _, _, rfl⟩
      · simpa [Holding.cancels, aboutToCancel_of_ending he, Told] using h
      · exact h.cancel_if r.aboutToCancel
  | look =>
      obtain ⟨_, outcome, _, rfl⟩ := Race.look_inv hstep
      have hended : Waiter.ended r.now outcome ≠ .waiting := nofun
      exact .finish r hended _
  | leave =>
      obtain ⟨_, rfl⟩ := Race.leave_inv hstep
      have hgone : Waiter.gone r.now ≠ .waiting := nofun
      exact .finish r hgone _
  | tick =>
      obtain ⟨rfl, _⟩ := Race.tick_inv hstep
      have hkeeps : Holding.cancels ⟨r, table⟩ (.race .tick) = false := rfl
      rw [hkeeps, Bool.or_false]
      exact h

namespace Holding

/-! ### Steps -/

/-- A table that knows one scope only, and of it the guard of the one who waits and, while the
pipeline runs, the handle that was passed to it. -/
structure Kept (table : ScopeTable) (scope : Scope) (now : Instant) (running : Bool) : Prop where
  sole : table.Sole scope
  now_eq : table.now = now
  guard_eq : table.guards[ownGuard]? = some 0
  passed : running = true → table.family? passedHandle = some 0

variable {table : ScopeTable} {scope : Scope} {now : Instant} {running : Bool}

theorem Kept.step (h : Kept table scope now running) (action : ScopeTable.Action)
    (hopens : opens action = false) (hclock : ∀ time, action ≠ .advance time)
    (hpassed : action ≠ .drop passedHandle) :
    Kept (table.step action) (if ends table action then scope.cancel else scope) now running where
  sole := h.sole.step hopens
  now_eq := (ScopeTable.now_step hclock).trans h.now_eq
  guard_eq := ScopeTable.guards_step h.guard_eq action
  passed hrunning := ScopeTable.family?_step (h.passed hrunning) hpassed

/-- The pipeline's end lets go of what was passed to it. -/
theorem Kept.end_task (h : Kept table scope now running) :
    Kept (table.step (.drop passedHandle)) scope now false where
  sole := h.sole.step rfl
  now_eq := h.now_eq
  guard_eq := h.guard_eq
  passed := nofun

/-- The end of the wait lets go of the guard, and that cancels the scope. -/
theorem Kept.end_wait (h : Kept table scope now running) :
    Kept ((table.step (.dropGuard ownGuard)).step (.drop ownHandle)) scope.cancel now running := by
  have hends : ends table (.dropGuard ownGuard) = true := by simp [ends, h.guard_eq]
  have hguard := h.step (.dropGuard ownGuard) rfl nofun nofun
  rw [if_pos hends] at hguard
  exact hguard.step (.drop ownHandle) rfl nofun (by decide)

theorem Kept.tick (h : Kept table scope now running) :
    Kept (table.step (.advance 1)) scope (now + 1) running where
  sole := h.sole.step rfl
  now_eq := congrArg (· + 1) h.now_eq
  guard_eq := h.guard_eq
  passed := h.passed

/-- What the pipeline's side can do leaves the clock, and what others keep, as it is. -/
theorem Kept.hold (h : Kept table scope now running) {action : ScopeTable.Action}
    (hpermitted : isPermitted action = true) :
    Kept (table.step action) (if ends table action then scope.cancel else scope) now running := by
  cases action with
  | fromTimeout | unbounded | endingAt | advance => cases hpermitted
  | drop handle =>
      refine h.step (.drop handle) rfl nofun ?_
      intro heq
      cases heq
      revert hpermitted
      decide
  | clone | cancel | guard | dropGuard | watch => exact h.step _ rfl nofun nofun

theorem actionsOf_task (r : Race) (followsEnd : Bool) :
    actionsOf r (.task followsEnd) =
      if r.aboutToCancel then [.cancel passedHandle]
      else if r.ending?.isSome then [.drop passedHandle] else [] := by
  unfold actionsOf Race.aboutToCancel Race.ending?
  cases r.task with
  | none => rfl
  | some program => cases program <;> rfl

/-- What a move of the race does with handles and guards leaves the table at the scope of the
race. -/
theorem Kept.race {r s : Race} (h : Kept table r.scope r.now r.task.isSome) {move : Race.Move}
    (hstep : r.step move = some s) :
    Kept (table.after (actionsOf r move)) s.scope s.now s.task.isSome := by
  cases move with
  | task followsEnd =>
      rw [actionsOf_task]
      rcases Race.task_inv hstep with ⟨e, he, rfl⟩ | ⟨he, program, next, notes, htask, _, rfl⟩
      · simpa [Race.aboutToCancel_of_ending he, he, ScopeTable.after] using h.end_task
      · have hheld : table.family? passedHandle = some 0 := h.passed (by simp [htask])
        rw [htask] at h
        cases hcancels : r.aboutToCancel with
        | true =>
            have hkept := h.step (.cancel passedHandle) rfl (by simp) (by simp)
            simpa [ends, hheld, ScopeTable.after] using hkept
        | false => simpa [he, ScopeTable.after] using h
  | look =>
      obtain ⟨_, outcome, _, rfl⟩ := Race.look_inv hstep
      cases hslot : r.slot with
      | empty =>
          have hkept := (h.step (.cancel ownHandle) rfl (by simp) (by simp)).end_wait
          simp only [actionsOf, hslot, ScopeTable.after, List.foldl]
          split at hkept <;> exact hkept
      | filled | lost =>
          simp only [actionsOf, hslot]
          exact h.end_wait
  | leave =>
      obtain ⟨_, rfl⟩ := Race.leave_inv hstep
      exact h.end_wait
  | tick =>
      obtain ⟨rfl, _⟩ := Race.tick_inv hstep
      exact h.tick

/-! ### Runs -/

/-- What holds at every moment: all share the scope of the race, and it is cancelled if and only if
the wait is over or the pipeline's side cancelled it. -/
structure Shared (itself : Bool) (s : Holding) : Prop where
  kept : Kept s.table s.race.scope s.race.now s.race.task.isSome
  told : s.race.Told itself

variable {itself : Bool} {s t : Holding}

theorem after_eq (r : Race) (h : table.Sole scope) : after r table = ⟨{ r with scope }, table⟩ := by
  rw [after, scopeOf, h.families_eq]
  rfl

/-- An invocation begins with the scope of its timeout. -/
theorem begin_race (start : Instant) (timeout : Nat) (program : Pipeline.Program) :
    (begin start timeout program).race =
      .ofInvocation ⟨start, .ofTimeout start timeout, none, program⟩ := rfl

theorem begin_shared (start : Instant) (timeout : Nat) (program : Pipeline.Program) :
    Shared false (begin start timeout program) where
  kept :=
    { sole :=
        { families_eq := rfl
          of_handle := by simp [begin, firstTable, ScopeTable.after, ScopeTable.step,
            ScopeTable.addFamily, ScopeTable.family?, ownHandle]
          of_guard := by simp [begin, firstTable, ScopeTable.after, ScopeTable.step,
            ScopeTable.addFamily, ScopeTable.family?, ownHandle]
          of_watcher := nofun }
      now_eq := rfl
      guard_eq := rfl
      passed := fun _ => rfl }
  told := by
    have hscope : (Scope.ofTimeout start timeout).cancelled = false := by
      unfold Scope.ofTimeout
      split <;> rfl
    simp [begin_race, Race.Told, Race.ofInvocation, hscope]

/-- The table follows the race, whatever its moves are. -/
theorem Shared.step_race (h : Shared itself s) {move : Race.Move} {r : Race}
    (hstep : s.race.step move = some r) :
    s.step (.race move) = some ⟨r, s.table.after (actionsOf s.race move)⟩ ∧
    Shared (itself || s.cancels (.race move)) ⟨r, s.table.after (actionsOf s.race move)⟩ := by
  have hkept := h.kept.race hstep
  refine ⟨?_, hkept, h.told.step hstep s.table⟩
  rw [step, hstep, Option.map_some, after_eq r hkept.sole]

theorem Shared.step_hold (h : Shared itself s) {action : ScopeTable.Action}
    (hstep : s.step (.hold action) = some t) :
    t.race.waiter = s.race.waiter ∧ Shared (itself || s.cancels (.hold action)) t := by
  rw [Holding.step] at hstep
  split at hstep
  · rename_i hpermitted
    have hkept := h.kept.hold hpermitted
    rw [after_eq s.race hkept.sole] at hstep
    cases hstep
    rw [cancels, hpermitted, Bool.true_and]
    exact ⟨rfl, hkept, h.told.cancel_if (ends s.table action)⟩
  · cases hstep

/-- A move of the race is one that the race itself has: what the table says of its scope is what the
race says. -/
theorem Shared.race_of_step (h : Shared itself s) {move : Race.Move}
    (hstep : s.step (.race move) = some t) : s.race.step move = some t.race := by
  obtain ⟨r, hr, _⟩ := Option.map_eq_some_iff.1 hstep
  rw [(h.step_race hr).1] at hstep
  cases hstep
  exact hr

theorem Shared.step (h : Shared itself s) {move : Move} (hstep : s.step move = some t) :
    Shared (itself || s.cancels move) t := by
  cases move with
  | race move =>
      obtain ⟨hstep', hshared⟩ := h.step_race (h.race_of_step hstep)
      have heq := Option.some.inj (hstep'.symm.trans hstep)
      rw [← heq]
      exact hshared
  | hold action => exact (h.step_hold hstep).2

/-- Whoever does what, the scope is told of the end of the wait and of nothing else. -/
theorem Shared.run (h : Shared itself s) {moves : List Move} (hrun : s.run moves = some t) :
    Shared (itself || s.pipelineCancels moves) t := by
  induction moves generalizing s itself with
  | nil => cases hrun; simpa [pipelineCancels] using h
  | cons move moves ih =>
      obtain ⟨u, hstep, hrest⟩ := Option.bind_eq_some_iff.1 hrun
      have hshared := ih (h.step hstep) hrest
      simpa [pipelineCancels, hstep, Bool.or_assoc] using hshared

/-- Once the wait is over nothing changes how it ended. -/
theorem Shared.waiter_of_run (h : Shared itself s) (hw : s.race.waiter ≠ .waiting)
    {moves : List Move} (hrun : s.run moves = some t) : t.race.waiter = s.race.waiter := by
  induction moves generalizing s itself with
  | nil => cases hrun; rfl
  | cons move moves ih =>
      obtain ⟨u, hstep, hrest⟩ := Option.bind_eq_some_iff.1 hrun
      have hu : u.race.waiter = s.race.waiter := by
        cases move with
        | race move => exact Race.waiter_of_step (h.race_of_step hstep) hw
        | hold action => exact (h.step_hold hstep).1
      rw [ih (h.step hstep) (hu ▸ hw) hrest, hu]

end Holding

/-! ### The race with and without its holders -/

theorem Race.cancelsItself_cons (r : Race) (table : ScopeTable) (move : Move) (moves : List Move) :
    r.cancelsItself (move :: moves) = (Holding.cancels ⟨r, table⟩ (.race move) ||
      (r.step move).any fun r => r.cancelsItself moves) := by
  cases move with
  | task followsEnd =>
      simp only [cancelsItself, Holding.cancels]
      cases r.aboutToCancel <;> rfl
  | look | leave | tick => rfl

/-- Every run of the race is one of the race with its holders. -/
theorem Holding.exists_run_of_race {itself : Bool} {s : Holding} (h : Shared itself s)
    {moves : List Race.Move} {r : Race} (hrun : s.race.run moves = some r) :
    ∃ table, s.run (moves.map .race) = some ⟨r, table⟩ ∧
      s.pipelineCancels (moves.map .race) = s.race.cancelsItself moves := by
  induction moves generalizing s itself with
  | nil => cases hrun; exact ⟨s.table, rfl, rfl⟩
  | cons move moves ih =>
      obtain ⟨u, hstep, hrest⟩ := Option.bind_eq_some_iff.1 hrun
      obtain ⟨hstep', hshared⟩ := h.step_race hstep
      obtain ⟨table, hrun', hcancels⟩ := ih hshared hrest
      refine ⟨table, by rw [List.map_cons, run, hstep', Option.bind_some, hrun'], ?_⟩
      rw [List.map_cons, pipelineCancels, hstep', Option.any_some, hcancels,
        Race.cancelsItself_cons s.race s.table, hstep, Option.any_some]

/-- Without holders beside the pipeline, the scope is cancelled if and only if the wait is over or
the pipeline cancelled it. -/
theorem Race.cancelled_iff_of_run {start : Instant} {timeout : Nat} {program : Pipeline.Program}
    {moves : List Move} {r : Race}
    (hrun : (ofInvocation ⟨start, .ofTimeout start timeout, none, program⟩).run moves = some r) :
    r.scope.cancelled = true ↔ r.waiter ≠ .waiting ∨
      (ofInvocation ⟨start, .ofTimeout start timeout, none, program⟩).cancelsItself moves := by
  have hbegin := Holding.begin_shared start timeout program
  obtain ⟨table, hrun', hcancels⟩ := Holding.exists_run_of_race hbegin hrun
  have hshared := hbegin.run hrun'
  rw [Bool.false_or, hcancels] at hshared
  exact hshared.told

/-! ### What the holders are told -/

/-- What a scope tells those who hold it, the pipeline's side having cancelled it or not. -/
structure Holding.Tells (itself : Bool) (s : Holding) : Prop where
  /-- All handles agree, and they tell of the end of the wait or of the pipeline's own doing. -/
  cancelled_iff : ∀ (handle : Nat) (seen : ScopeTable.HandleView),
    s.table.view.handles[handle]? = some (some seen) →
      (seen.cancelled = true ↔ s.race.waiter ≠ .waiting ∨ itself = true)
  /-- Once the wait is over, waiting for the end of the scope is over too. -/
  done : s.race.waiter ≠ .waiting → ∀ (handle : Nat) (seen : ScopeTable.HandleView),
    s.table.view.handles[handle]? = some (some seen) → seen.done = true
  woken : s.race.waiter ≠ .waiting → ∀ {woken}, woken ∈ s.table.view.watchers → woken = true
  /-- The pipeline keeps its handle to its end. -/
  held : s.race.task.isSome → ∃ seen,
    s.table.view.handles[Holding.passedHandle]? = some (some seen)
  /-- What the pipeline sees when it looks at its scope. -/
  glimpse : ∀ {next followsEnd}, s.race.task = some (.inspect next) →
    ∃ (seen : Pipeline.Glimpse) (t : Holding),
      s.step (.race (.task followsEnd)) = some t ∧ t.race.task = some (next seen) ∧
      (seen.scope.cancelled = true ↔ s.race.waiter ≠ .waiting ∨ itself = true)
  /-- Nothing that the race can do is kept from it; the client can leave at any moment. -/
  follows : ∀ {move r}, s.race.step move = some r → ∃ t, s.step (.race move) = some t ∧ t.race = r
  leaves : s.race.waiter = .waiting → ∃ t, s.step (.race .leave) = some t ∧
    t.race.waiter = .gone s.race.now
  /-- A wait that is over stays over. -/
  final : s.race.waiter ≠ .waiting → ∀ {later t}, s.run later = some t →
    t.race.waiter = s.race.waiter

theorem Holding.Shared.tells {itself : Bool} {s : Holding} (h : Shared itself s) :
    s.Tells itself where
  cancelled_iff handle seen hseen := by
    rw [h.kept.sole.view_eq hseen]
    exact h.told
  done hw := by
    intro handle seen hseen
    have hcancelled : s.race.scope.cancelled = true := h.told.2 (Or.inl hw)
    rw [h.kept.sole.view_eq hseen]
    exact Scope.isDone_of_cancelled hcancelled _
  woken hw := by
    intro woken hmem
    have hcancelled : s.race.scope.cancelled = true := h.told.2 (Or.inl hw)
    exact h.kept.sole.woken_of_isDone (Scope.isDone_of_cancelled hcancelled _) hmem
  held hrunning := ⟨_, h.kept.sole.exists_view (h.kept.passed hrunning)⟩
  glimpse := by
    intro next followsEnd htask
    have hlook : s.race.step (.task followsEnd) =
        some { s.race with task := some (next ⟨s.race.now, s.race.scope⟩) } := by
      rw [Race.step, htask, Option.bind_some, Race.stepTask]
    exact ⟨⟨s.race.now, s.race.scope⟩, _, (h.step_race hlook).1, rfl, h.told⟩
  follows hstep := ⟨_, (h.step_race hstep).1, rfl⟩
  leaves hw := by
    have hleave : s.race.step .leave = some (s.race.finish (.gone s.race.now)) := by
      rw [Race.step, hw]
    exact ⟨_, (h.step_race hleave).1, rfl⟩
  final hw := fun hrun => h.waiter_of_run hw hrun

namespace Handler

/-- For every request that reaches the pipeline of an endpoint, with or without a deadline, and
whatever its pipeline, its client and everyone who holds its scope do: the scope is cancelled, for
all of them, from the moment on at which nobody waits any more, and before that only if the
pipeline's side cancels it. -/
theorem scope_told_at_every_moment (h : Handler) (start : Instant) (leaves : Option Instant)
    (forwarded : Pipeline.Request) (moves : List Holding.Move) (s : Holding)
    (hrun : (Holding.begin start h.timeout (h.pipeline forwarded)).run moves = some s) :
    let begun := Holding.begin start h.timeout (h.pipeline forwarded)
    begun.race = .ofInvocation (h.invoke start leaves forwarded) ∧
    s.Tells (begun.pipelineCancels moves) := by
  intro begun
  have hshared := (Holding.begin_shared start h.timeout (h.pipeline forwarded)).run hrun
  rw [Bool.false_or] at hshared
  exact ⟨Holding.begin_race start h.timeout (h.pipeline forwarded), hshared.tells⟩

/-- An endpoint without a deadline whose pipeline never answers. -/
def stalledHandler : Handler where
  endpoint := { endpoint := "/wait" }
  maxBodySize := 0
  pipeline := fun _ => .stall

/-- A clone of the scope of a request to it is cancelled when the client goes away. -/
theorem stalledHandler_departure :
    ∃ (s : Holding) (seen : ScopeTable.HandleView),
      (Holding.begin 0 stalledHandler.timeout (stalledHandler.pipeline default)).run
        [.hold (.clone Holding.passedHandle), .race .tick, .race .leave] = some s ∧
      s.table.view.handles[2]? = some (some seen) ∧ seen.bounded = false ∧
      seen.cancelled = true ∧ seen.done = true := by
  have hrun : (Holding.begin 0 stalledHandler.timeout (stalledHandler.pipeline default)).run
      [.hold (.clone Holding.passedHandle), .race .tick, .race .leave] = some _ := rfl
  obtain ⟨_, tells⟩ := scope_told_at_every_moment stalledHandler 0 (some 1) default _ _ hrun
  refine ⟨_, _, hrun, rfl, rfl, ?_, ?_⟩
  · exact (tells.cancelled_iff 2 _ rfl).2 (Or.inl nofun)
  · exact tells.done nofun 2 _ rfl

end Handler

end Endpoint

end Gateway
