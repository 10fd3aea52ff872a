/-
Module: Gateway.Proofs.Course
Layer: Proofs
Purpose: A race has but one course.  A step of the pipeline is a step of its program's trace
  (`trace_of_step`), and a tick that nothing stands in the way of leaves the trace as it is
  (`trace_of_tick`).  So a race whose moves keep to the order of the clock stays on the course that
  its invocation tells of (`Follows.of_course`), and keeping to that order is no choice when no two
  things that happen to a request fall into one instant (`Untied.orderly`).
Main exports: Race.trace_of_step, Race.trace_of_tick, Race.InTurn, Race.Orderly,
  Race.Tied, Race.Untied, Race.Follows, Race.Follows.of_course, Race.Follows.conclusion_eq
-/
import Gateway.Proofs.Conclusions
import Gateway.Proofs.Waiting

namespace Gateway.Endpoint.Race

open Pipeline (Ending Program Trace)

variable {inv : Invocation} {r s : Race} {stop leaves : Option Instant} {scope : Scope}
  {program : Program}

/-! ### The end of a scope -/

/-- The scope has ended if it is cancelled, or its caller does not wait any more, or its deadline
has passed. -/
theorem isDone_scopeAt_iff (stop : Option Instant) (now : Instant) (scope : Scope) :
    (Pipeline.scopeAt stop now scope).isDone now = true ↔ scope.cancelled = true ∨
      ∃ t, Pipeline.sooner stop (scope.deadline.map roundUp) = some t ∧ t ≤ now := by
  have hexpired := any_le_iff roundUp scope.deadline now
  change scope.expired now = true ↔ _ at hexpired
  by_cases hstop : ∃ s, stop = some s ∧ s ≤ now
  · obtain ⟨s, rfl, hle⟩ := hstop
    obtain ⟨t, ht, hle'⟩ := Pipeline.exists_sooner_le_left rfl (scope.deadline.map roundUp) (t := s)
    simp [Pipeline.scopeAt, hle, Scope.isDone, Scope.cancel, ht, Nat.le_trans hle' hle]
  · have hlt : ∀ t, stop = some t → now < t :=
      fun t ht => Nat.lt_of_not_le fun hle => hstop ⟨t, ht, hle⟩
    rw [scopeAt_of_lt hlt, Scope.isDone, Bool.or_eq_true, hexpired]
    refine or_congr_right ⟨?_, ?_⟩
    · rintro ⟨d, hd, hle⟩
      obtain ⟨t, ht, hle'⟩ := Pipeline.exists_sooner_le_right hd stop
      exact ⟨t, ht, Nat.le_trans hle' hle⟩
    · rintro ⟨t, ht, hle⟩
      rcases Pipeline.mem_of_sooner ht with hs | hd
      · exact absurd hle (Nat.not_le.2 (hlt t hs))
      · exact ⟨t, hd, hle⟩

/-- When a scope ends that has not ended yet. -/
theorem endOf_of_not_done {now : Instant}
    (h : (Pipeline.scopeAt stop now scope).isDone now = false) :
    Pipeline.endOf stop now scope = Pipeline.sooner stop (scope.deadline.map roundUp) ∧
    scope.cancelled = false ∧
    ∀ t, Pipeline.sooner stop (scope.deadline.map roundUp) = some t → now < t := by
  have hnot := h
  rw [← Bool.not_eq_true, isDone_scopeAt_iff, not_or] at hnot
  refine ⟨by rw [Pipeline.endOf, h, if_neg Bool.false_ne_true], by simpa using hnot.1, ?_⟩
  intro t ht
  exact Nat.lt_of_not_le fun hle => hnot.2 ⟨t, ht, hle⟩

theorem endOf_of_done {now : Instant} (h : (Pipeline.scopeAt stop now scope).isDone now = true) :
    Pipeline.endOf stop now scope = some now := by
  rw [Pipeline.endOf, if_pos h]

/-- The end of a scope that has not ended does not move with the clock. -/
theorem endOf_succ {now : Instant} (h : (Pipeline.scopeAt stop now scope).isDone now = false) :
    Pipeline.endOf stop (now + 1) scope = Pipeline.endOf stop now scope := by
  obtain ⟨hend, hcancelled, hlt⟩ := endOf_of_not_done h
  rw [hend]
  cases hdone : (Pipeline.scopeAt stop (now + 1) scope).isDone (now + 1) with
  | false => exact (endOf_of_not_done hdone).1
  | true =>
      rw [endOf_of_done hdone]
      rcases (isDone_scopeAt_iff stop (now + 1) scope).1 hdone with hc | ⟨t, ht, hle⟩
      · rw [hcancelled] at hc
        cases hc
      · rw [ht, Nat.le_antisymm hle (hlt t ht)]

/-! ### A race and the trace of its program -/

/-- A trace after some notes. -/
def afterNotes (notes : List (Instant × String)) (rest : Trace) : Trace :=
  { rest with notes := notes ++ rest.notes }

@[simp] theorem afterNotes_nil (rest : Trace) : afterNotes [] rest = rest := rfl

theorem afterNotes_append (notes more : List (Instant × String)) (rest : Trace) :
    afterNotes (notes ++ more) rest = afterNotes notes (afterNotes more rest) := by
  simp [afterNotes]

/-- The pipeline has slept enough, and its scope has ended. -/
def WakesAtEnd (r : Race) : Prop :=
  ∃ instant slept ended, r.task = some (.sleepOrEnd instant slept ended) ∧
    instant ≤ r.now ∧ r.scope.isDone r.now = true

/-- A pipeline goes on as its trace tells. -/
inductive GoesOn (stop : Option Instant) (scope : Scope) (program : Program) (r s : Race) :
    Prop where
  | ends (e : Ending) : s = r.endTask e →
      program.trace stop r.now scope = ⟨[], some (r.now, e)⟩ → GoesOn stop scope program r s
  | continues (next : Program) (notes : List (Instant × String)) (left : Scope) :
      s = { r with
        task := some next
        notes := r.notes ++ notes
        scope := Pipeline.scopeAt stop r.now left } →
      left.deadline = scope.deadline →
      program.trace stop r.now scope = afterNotes notes (next.trace stop r.now left) →
      GoesOn stop scope program r s

theorem GoesOn.of_trace_eq {next : Program}
    (hs : s = { r with task := some next }) (hscope : r.scope = Pipeline.scopeAt stop r.now scope)
    (h : program.trace stop r.now scope = next.trace stop r.now scope) :
    GoesOn stop scope program r s := by
  refine .continues next [] scope ?_ rfl h
  rw [hs, List.append_nil, ← hscope]

/-- A step of the pipeline is a step of its trace.  If it both slept enough and saw its scope end,
it has to follow the latter, because the trace does. -/
theorem trace_of_step (htask : r.task = some program)
    (hscope : r.scope = Pipeline.scopeAt stop r.now scope) {followsEnd : Bool}
    (hturn : r.WakesAtEnd → followsEnd = true) (hstep : r.step (.task followsEnd) = some s) :
    GoesOn stop scope program r s := by
  rw [step, htask, Option.bind_some] at hstep
  cases program with
  | answer answer =>
      refine .ends (.returned answer) ?_ rfl
      cases hw : r.waiter <;> simp_all [stepTask, endTask, slotOf]
  | crash =>
      refine .ends .crashed ?_ rfl
      cases hw : r.waiter <;> simp_all [stepTask, endTask, slotOf]
  | stall => cases hstep
  | note label next =>
      cases hstep
      refine .continues next [(r.now, label)] scope ?_ rfl rfl
      rw [← hscope]
  | cancel next =>
      cases hstep
      refine .continues next [] scope.cancel ?_ rfl rfl
      rw [List.append_nil, hscope, Pipeline.scopeAt, Pipeline.scopeAt]
      split <;> rfl
  | sleepUntil instant next =>
      rw [stepTask] at hstep
      split at hstep <;> cases hstep
      rename_i hawake
      apply GoesOn.of_trace_eq rfl hscope
      rw [Program.trace, Nat.max_eq_left hawake]
  | awaitEnd next =>
      rw [stepTask] at hstep
      split at hstep <;> cases hstep
      rename_i hdone
      apply GoesOn.of_trace_eq rfl hscope
      rw [Program.trace, endOf_of_done (hscope ▸ hdone)]
  | sleepOrEnd instant slept ended =>
      simp only [stepTask] at hstep
      cases hdone : r.scope.isDone r.now with
      | true =>
          have hended : s = { r with task := some ended } := by
            by_cases hawake : instant ≤ r.now
            · have hfollows := hturn ⟨instant, slept, ended, htask, hawake, hdone⟩
              simpa [hdone, hfollows, eq_comm] using hstep
            · simpa [hdone, hawake, eq_comm] using hstep
          apply GoesOn.of_trace_eq hended hscope
          simp only [Program.trace, endOf_of_done (hscope ▸ hdone)]
          rw [if_pos (Nat.le_max_left _ _)]
      | false =>
          obtain ⟨hawake, hslept⟩ : instant ≤ r.now ∧ s = { r with task := some slept } := by
            simpa [hdone, eq_comm] using hstep
          apply GoesOn.of_trace_eq hslept hscope
          obtain ⟨hend, _, hlt⟩ := endOf_of_not_done (hscope ▸ hdone)
          simp only [Program.trace, hend, Nat.max_eq_left hawake]
          split
          · rename_i done hdone'
            rw [if_neg (Nat.not_le.2 (hlt done hdone'))]
          · rfl
  | inspect next =>
      cases hstep
      apply GoesOn.of_trace_eq rfl hscope
      rw [Program.trace, ← hscope]

/-- What the pipeline cannot do now it cannot do a nanosecond earlier than its trace tells. -/
theorem trace_of_tick (htask : r.task = some program)
    (hscope : r.scope = Pipeline.scopeAt stop r.now scope) (hrests : r.Rests) :
    program.trace stop (r.now + 1) scope = program.trace stop r.now scope := by
  have hnone : r.stepTask false program = none := by simpa [Rests, htask] using hrests
  cases program with
  | answer given => cases hw : r.waiter <;> simp [stepTask, hw] at hnone
  | crash => cases hw : r.waiter <;> simp [stepTask, hw] at hnone
  | stall => rfl
  | note | cancel | inspect => cases hnone
  | sleepUntil instant next =>
      have hasleep : r.now < roundUp instant := by simpa [stepTask] using hnone
      rw [Program.trace, Program.trace, Nat.max_eq_right hasleep,
        Nat.max_eq_right (Nat.le_of_lt hasleep)]
  | awaitEnd next =>
      have hdone : r.scope.isDone r.now = false := by simpa [stepTask] using hnone
      rw [Program.trace, Program.trace, endOf_succ (hscope ▸ hdone)]
  | sleepOrEnd instant slept ended =>
      obtain ⟨hdone, hasleep⟩ : r.scope.isDone r.now = false ∧ r.now < instant := by
        by_cases hawake : instant ≤ r.now <;>
          cases hdone : r.scope.isDone r.now <;> simp_all [stepTask]
      rw [Program.trace, Program.trace, endOf_succ (hscope ▸ hdone), Nat.max_eq_right hasleep,
        Nat.max_eq_right (Nat.le_of_lt hasleep)]

/-! ### Things that happen at once -/

/-- A move keeps to the order of the clock: of several things that are due for one request, its
deadline comes first, then its client's departure, and then the pipeline, which follows the end of
its scope rather than its own waking. -/
def InTurn (leaves : Option Instant) (r : Race) : Move → Prop
  | .task followsEnd =>
    (r.waiter = .waiting → r.scope.expired r.now = false ∧ leaves ≠ some r.now) ∧
      (r.WakesAtEnd → followsEnd = true)
  | .leave => r.scope.expired r.now = false
  | _ => True

/-- All of some moves keep to the order of the clock. -/
def Orderly (leaves : Option Instant) (r : Race) : List Move → Prop
  | [] => True
  | move :: moves => r.InTurn leaves move ∧ ∀ s, r.step move = some s → s.Orderly leaves moves

/-- Two things are due at once. -/
inductive Tied (leaves : Option Instant) (r : Race) : Prop where
  | deadlineAndLeave : r.waiter = .waiting → r.scope.expired r.now = true →
      leaves = some r.now → Tied leaves r
  | deadlineAndTask : r.waiter = .waiting → r.scope.expired r.now = true → ¬ r.Rests →
      Tied leaves r
  | leaveAndTask : r.waiter = .waiting → leaves = some r.now → ¬ r.Rests → Tied leaves r
  | wakingAndEnd : r.WakesAtEnd → Tied leaves r

/-- No two things are due at once in the course of a race. -/
def Untied (leaves : Option Instant) (r : Race) : Prop :=
  ∀ moves s, r.course leaves moves = some s → ¬ s.Tied leaves

theorem not_rests_of_step {followsEnd : Bool} (h : r.step (.task followsEnd) = some s) :
    ¬ r.Rests := by
  intro hrests
  obtain ⟨program, htask, hstep⟩ := Option.bind_eq_some_iff.1 h
  rw [Rests, htask, Option.bind_some] at hrests
  cases program with
  | sleepOrEnd instant slept ended =>
      simp only [stepTask] at hrests hstep
      cases hdone : r.scope.isDone r.now <;> by_cases hawake : instant ≤ r.now <;>
        simp_all
  | _ =>
      have hsome := hrests.symm.trans hstep
      cases hsome

theorem course_cons {move : Move} {moves : List Move}
    (h : r.course leaves (move :: moves) = some s) :
    r.permits leaves move = true ∧ ∃ t, r.step move = some t ∧ t.course leaves moves = some s := by
  rw [course] at h
  split at h
  · rename_i hpermits
    exact ⟨hpermits, Option.bind_eq_some_iff.1 h⟩
  · cases h

theorem course_append (before after : List Move) :
    r.course leaves (before ++ after) =
      (r.course leaves before).bind (·.course leaves after) := by
  induction before generalizing r with
  | nil => rfl
  | cons move moves ih =>
      rw [List.cons_append, course, course]
      split
      · cases r.step move with
        | none => rfl
        | some s => exact ih
      · rfl

/-- What can happen when nothing is tied keeps to the order of the clock. -/
theorem inTurn_of_not_tied (h : ¬ r.Tied leaves) {move : Move}
    (hpermits : r.permits leaves move = true) (hstep : r.step move = some s) :
    r.InTurn leaves move := by
  cases move with
  | task followsEnd =>
      have hmoves := not_rests_of_step hstep
      refine ⟨?_, fun hboth => absurd (.wakingAndEnd hboth) h⟩
      intro hw
      refine ⟨?_, fun hleave => h (.leaveAndTask hw hleave hmoves)⟩
      rw [← Bool.not_eq_true]
      exact fun hexpired => h (.deadlineAndTask hw hexpired hmoves)
  | leave =>
      have hleaves : leaves = some r.now := by simpa [permits] using hpermits
      change r.scope.expired r.now = false
      rw [← Bool.not_eq_true]
      exact fun hexpired => h (.deadlineAndLeave (leave_inv hstep).1 hexpired hleaves)
  | look | tick => trivial

/-- Without ties there is no choice but to keep to the order of the clock. -/
theorem Untied.orderly (h : r.Untied leaves) {moves : List Move}
    (hcourse : r.course leaves moves = some s) : r.Orderly leaves moves := by
  induction moves generalizing r with
  | nil => trivial
  | cons move moves ih =>
      obtain ⟨hpermits, t, hstep, hrest⟩ := course_cons hcourse
      refine ⟨inTurn_of_not_tied (h [] r rfl) hpermits hstep, ?_⟩
      intro u hu
      rw [hstep] at hu
      cases hu
      refine ih ?_ hrest
      intro later v hv
      apply h (move :: later) v
      rw [course, if_pos hpermits, hstep, Option.bind_some, hv]

/-! ### The invariant -/

/-- How many answers an end is that finds nobody waiting: a breakdown is none. -/
def answerCount : Ending → Nat
  | .returned _ => 1
  | .crashed => 0

theorem endTask_dropped (r : Race) (e : Ending) :
    (r.endTask e).dropped =
      r.dropped + if r.waiter.conclusion?.isNone then 0 else answerCount e := by
  cases hw : r.waiter <;> cases e <;> simp [endTask, hw, Waiter.conclusion?, answerCount]

theorem waiting_of_conclusion?_eq_none {w : Waiter} (h : w.conclusion? = none) : w = .waiting := by
  cases w with
  | waiting => rfl
  | ended | gone => cases h

/-- A race is on the course that its invocation tells of. -/
inductive Follows (inv : Invocation) (r : Race) : Prop where
  /-- The pipeline is at work, and someone waits. -/
  | waiting (program : Program) : r.task = some program → r.waiter = .waiting → r.slot = .empty →
      r.dropped = 0 → r.deadline = inv.deadline → (∀ t, inv.stop = some t → r.now ≤ t) →
      inv.trace = afterNotes r.notes (program.trace inv.stop r.now r.scope) → Follows inv r
  /-- The pipeline is at work, and nobody waits any more. -/
  | forsaken (program : Program) (scope : Scope) : r.task = some program →
      r.waiter.conclusion? = some inv.givenUp → r.dropped = 0 → r.scope = scope.cancel →
      (∃ t, inv.stop = some t ∧ t ≤ r.now) →
      inv.trace = afterNotes r.notes (program.trace inv.stop r.now scope) → Follows inv r
  /-- The pipeline ended just now, and someone waits. -/
  | ended (e : Ending) : r.task = none → r.waiter = .waiting → r.slot = slotOf e →
      r.dropped = 0 → (∀ t, inv.stop = some t → r.now < t) →
      inv.trace = ⟨r.notes, some (r.now, e)⟩ → Follows inv r
  /-- The pipeline's end was noticed at once. -/
  | noticed (instant : Instant) (e : Ending) : r.task = none →
      r.waiter = .ended instant (Invocation.outcomeOf e) → r.dropped = 0 → instant ≤ r.now →
      (∀ t, inv.stop = some t → instant < t) → inv.trace = ⟨r.notes, some (instant, e)⟩ →
      Follows inv r
  /-- The pipeline ended when nobody waited any more. -/
  | late (instant : Instant) (e : Ending) : r.task = none →
      r.waiter.conclusion? = some inv.givenUp →
      r.dropped = answerCount e →
      (∃ t, inv.stop = some t ∧ t ≤ instant) → instant ≤ r.now →
      inv.trace = ⟨r.notes, some (instant, e)⟩ → Follows inv r

theorem Follows.ofInvocation (inv : Invocation)
    (hstart : ∀ t, inv.stop = some t → inv.start ≤ t) : Follows inv (.ofInvocation inv) :=
  .waiting inv.program rfl rfl rfl rfl rfl hstart rfl

/-- While someone waits and neither the deadline nor the client's departure is due, both are still
to come. -/
theorem lt_stop (hdeadline : r.deadline = inv.deadline)
    (hstop : ∀ t, inv.stop = some t → r.now ≤ t) (hexpired : r.scope.expired r.now = false)
    (hleaves : inv.leaves ≠ some r.now) : ∀ t, inv.stop = some t → r.now < t := by
  intro t ht
  apply Nat.lt_of_le_of_ne (hstop t ht)
  intro heq
  subst heq
  rcases Pipeline.mem_of_sooner ht with hd | hl
  · have hexp := expired_iff.2 ⟨r.now, hdeadline.trans hd, Nat.le_refl _⟩
    rw [hexp] at hexpired
    cases hexpired
  · exact hleaves hl

theorem scopeAt_of_le {now t : Instant} (h : stop = some t) (hle : t ≤ now) (scope : Scope) :
    Pipeline.scopeAt stop now scope = scope.cancel := by
  subst h
  simp [Pipeline.scopeAt, hle]

theorem Follows.task (h : Follows inv r) {followsEnd : Bool}
    (hturn : r.InTurn inv.leaves (.task followsEnd)) (hstep : r.step (.task followsEnd) = some s) :
    Follows inv s := by
  have hnone : r.task ≠ none := by
    intro htask
    rw [step, htask] at hstep
    cases hstep
  cases h with
  | waiting program htask hw hslot hdropped hdeadline hstop htrace =>
      obtain ⟨hexpired, hleaves⟩ := hturn.1 hw
      have hlt := lt_stop hdeadline hstop hexpired hleaves
      have hscope : r.scope = Pipeline.scopeAt inv.stop r.now r.scope := (scopeAt_of_lt hlt).symm
      cases trace_of_step htask hscope hturn.2 hstep with
      | ends e hs hends =>
          subst hs
          rw [hends] at htrace
          have hwaiter : (r.endTask e).waiter = .waiting := (endTask_waiter r e).trans hw
          refine .ended e (endTask_task r e) hwaiter (endTask_slot hw e) ?_ ?_ ?_
          · simp [endTask_dropped, hw, Waiter.conclusion?, hdropped]
          · simpa using hlt
          · simpa [afterNotes] using htrace
      | continues next notes left hs hleft hnext =>
          subst hs
          rw [scopeAt_of_lt hlt]
          refine .waiting next rfl hw hslot hdropped ?_ hstop ?_
          · rw [← hdeadline, deadline, deadline, hleft]
          · rw [htrace, hnext, afterNotes_append]
  | forsaken program scope htask hw hdropped hscope hstop htrace =>
      obtain ⟨t, ht, hle⟩ := hstop
      have hscope' : r.scope = Pipeline.scopeAt inv.stop r.now scope :=
        hscope.trans (scopeAt_of_le ht hle scope).symm
      cases trace_of_step htask hscope' hturn.2 hstep with
      | ends e hs hends =>
          subst hs
          rw [hends] at htrace
          refine .late r.now e (endTask_task r e) ?_ ?_ ⟨t, ht, hle⟩ ?_ ?_
          · rw [endTask_waiter, hw]
          · simp [endTask_dropped, hw, hdropped]
          · simp
          · simpa [afterNotes] using htrace
      | continues next notes left hs hleft hnext =>
          subst hs
          refine .forsaken next left rfl hw hdropped (scopeAt_of_le ht hle left) ⟨t, ht, hle⟩ ?_
          rw [htrace, hnext, afterNotes_append]
  | ended _ htask | noticed _ _ htask | late _ _ htask => exact absurd htask hnone

theorem Follows.look (h : Follows inv r) (hstep : r.step .look = some s) : Follows inv s := by
  obtain ⟨hw, outcome, hn, rfl⟩ := look_inv hstep
  cases h with
  | waiting program htask _ hslot hdropped hdeadline hstop htrace =>
      rw [noticed?_of_empty hslot] at hn
      split at hn <;> cases hn
      rename_i hexpired
      obtain ⟨d, hd, hle⟩ := expired_iff.1 hexpired
      have hd' : inv.deadline = some d := hdeadline ▸ hd
      obtain ⟨t, ht, htd⟩ := Pipeline.exists_sooner_le_left hd' inv.leaves
      have hnow : r.now = d := Nat.le_antisymm (Nat.le_trans (hstop t ht) htd) hle
      subst hnow
      have hleaves : ∀ u, inv.leaves = some u → r.now ≤ u := by
        intro u hu
        obtain ⟨v, hv, hvu⟩ := Pipeline.exists_sooner_le_right hu inv.deadline
        exact Nat.le_trans (hstop v hv) hvu
      have hgiven := Invocation.givenUp_of_deadline hd' hleaves
      exact .forsaken program r.scope htask (congrArg some hgiven.symm) hdropped rfl
        ⟨t, ht, htd⟩ htrace
  | forsaken _ _ _ hgone | late _ _ _ hgone =>
      rw [hw] at hgone
      cases hgone
  | ended e htask _ hslot hdropped hlt htrace =>
      rw [noticed?_of_slotOf hslot] at hn
      cases hn
      exact .noticed r.now e htask rfl hdropped (Nat.le_refl _) hlt htrace
  | noticed _ _ _ hended =>
      rw [hw] at hended
      cases hended

theorem Follows.leave (h : Follows inv r) (hpermits : r.permits inv.leaves .leave = true)
    (hturn : r.InTurn inv.leaves .leave) (hstep : r.step .leave = some s) : Follows inv s := by
  obtain ⟨hw, rfl⟩ := leave_inv hstep
  have hleaves : inv.leaves = some r.now := by simpa [permits] using hpermits
  obtain ⟨t, ht, hle⟩ := Pipeline.exists_sooner_le_right hleaves inv.deadline
  cases h with
  | waiting program htask _ hslot hdropped hdeadline hstop htrace =>
      have hearly : ∀ d, inv.deadline = some d → r.now < d := by
        intro d hd
        apply Nat.lt_of_not_le
        intro hpast
        have hexp := expired_iff.2 ⟨d, hdeadline.trans hd, hpast⟩
        rw [show r.scope.expired r.now = false from hturn] at hexp
        cases hexp
      have hgiven := Invocation.givenUp_of_leaves hleaves hearly
      exact .forsaken program r.scope htask (congrArg some hgiven.symm) hdropped rfl
        ⟨t, ht, hle⟩ htrace
  | forsaken _ _ _ hgone | late _ _ _ hgone =>
      rw [hw] at hgone
      cases hgone
  | ended _ _ _ _ _ hlt => exact absurd hle (Nat.not_le.2 (hlt t ht))
  | noticed _ _ _ hended =>
      rw [hw] at hended
      cases hended

theorem rests_of_tick (h : r.step .tick = some s) : r.Rests := by
  rw [step] at h
  split at h
  · cases h
  · rename_i hbusy
    simp only [isBusy, Bool.or_eq_true, not_or, Option.not_isSome_iff_eq_none] at hbusy
    exact hbusy.1

theorem Follows.tick (h : Follows inv r) (hpermits : r.permits inv.leaves .tick = true)
    (hstep : r.step .tick = some s) : Follows inv s := by
  obtain ⟨rfl, hquiet⟩ := tick_inv hstep
  have hrests := rests_of_tick hstep
  cases h with
  | waiting program htask hw hslot hdropped hdeadline hstop htrace =>
      have hexpired : r.scope.expired r.now = false := by
        have hn := hquiet hw
        rw [noticed?_of_empty hslot] at hn
        by_contra hexp
        simp [hexp] at hn
      have hleaves : inv.leaves ≠ some r.now := by
        simpa [permits, mustLeave, hw, Waiter.conclusion?] using hpermits
      have hlt := lt_stop hdeadline hstop hexpired hleaves
      have hscope : r.scope = Pipeline.scopeAt inv.stop r.now r.scope := (scopeAt_of_lt hlt).symm
      refine .waiting program htask hw hslot hdropped hdeadline hlt ?_
      rw [htrace, trace_of_tick htask hscope hrests]
  | forsaken program scope htask hgone hdropped hscope hstop htrace =>
      obtain ⟨t, ht, hle⟩ := hstop
      have hscope' : r.scope = Pipeline.scopeAt inv.stop r.now scope :=
        hscope.trans (scopeAt_of_le ht hle scope).symm
      refine .forsaken program scope htask hgone hdropped hscope ⟨t, ht, Nat.le_succ_of_le hle⟩ ?_
      rw [htrace, trace_of_tick htask hscope' hrests]
  | ended e _ hw hslot =>
      have hn := hquiet hw
      rw [noticed?_of_slotOf hslot] at hn
      cases hn
  | noticed instant e htask hended hdropped hle hlt htrace =>
      exact .noticed instant e htask hended hdropped (Nat.le_succ_of_le hle) hlt htrace
  | late instant e htask hgone hdropped hstop hle htrace =>
      exact .late instant e htask hgone hdropped hstop (Nat.le_succ_of_le hle) htrace

theorem Follows.step (h : Follows inv r) {move : Move}
    (hpermits : r.permits inv.leaves move = true) (hturn : r.InTurn inv.leaves move)
    (hstep : r.step move = some s) : Follows inv s := by
  cases move with
  | task followsEnd => exact h.task hturn hstep
  | look => exact h.look hstep
  | leave => exact h.leave hpermits hturn hstep
  | tick => exact h.tick hpermits hstep

/-- A race that keeps to the order of the clock stays on its course. -/
theorem Follows.of_course (h : Follows inv r) {moves : List Move}
    (hcourse : r.course inv.leaves moves = some s) (hturn : r.Orderly inv.leaves moves) :
    Follows inv s := by
  induction moves generalizing r with
  | nil => cases hcourse; exact h
  | cons move moves ih =>
      obtain ⟨hpermits, t, hstep, hrest⟩ := course_cons hcourse
      exact ih (h.step hpermits hturn.1 hstep) hrest (hturn.2 t hstep)

/-! ### What the course tells -/

/-- When a wait ends, if it does. -/
def instantOf : Conclusion → Option Instant
  | .ended instant _ => some instant
  | .abandoned instant => some instant
  | .unending => none

/-- A wait that is given up ends when it ends at the latest. -/
theorem instantOf_givenUp (inv : Invocation) : instantOf inv.givenUp = inv.stop := by
  rw [Invocation.givenUp, Invocation.stop]
  cases inv.deadline with
  | none => cases inv.leaves <;> rfl
  | some d =>
      cases inv.leaves with
      | none => rfl
      | some t =>
          simp only [Pipeline.sooner]
          split
          · rename_i hle
            rw [instantOf, Nat.min_eq_left hle]
          · rename_i hle
            rw [instantOf, Nat.min_eq_right (Nat.le_of_lt (Nat.lt_of_not_le hle))]

/-- A wait ends with the end of the pipeline or when it ends at the latest. -/
theorem instantOf_conclusion {t : Instant} (h : instantOf inv.conclusion = some t) :
    (∃ e, inv.trace.ending = some (t, e)) ∨ inv.stop = some t := by
  rw [Invocation.conclusion] at h
  split at h
  · rename_i instant e hin
    cases h
    exact Or.inl ⟨e, (Invocation.inTime?_eq_some_iff.1 hin).1⟩
  · exact Or.inr ((instantOf_givenUp inv).symm.trans h)

/-- A wait that is over ended as the invocation concludes. -/
theorem Follows.conclusion_eq (h : Follows inv r) {conclusion : Conclusion}
    (hover : r.waiter.conclusion? = some conclusion) : conclusion = inv.conclusion := by
  cases h with
  | waiting _ _ hw | ended _ _ hw =>
      rw [hw] at hover
      cases hover
  | forsaken program scope _ hgone _ _ hstop htrace =>
      obtain ⟨t, ht, hle⟩ := hstop
      have hlate : ∀ u e, inv.trace.ending = some (u, e) → t ≤ u := by
        intro u e he
        rw [htrace] at he
        exact Nat.le_trans hle (le_of_trace_ending he)
      rw [Invocation.conclusion_of_late ht hlate]
      exact Option.some.inj (hover.symm.trans hgone)
  | noticed instant e _ hended _ _ hlt htrace =>
      rw [hended] at hover
      cases hover
      exact (Invocation.conclusion_of_inTime (by rw [htrace]) hlt).symm
  | late instant e _ hgone _ hstop _ htrace =>
      obtain ⟨t, ht, hle⟩ := hstop
      have hlate : ∀ u e', inv.trace.ending = some (u, e') → t ≤ u := by
        intro u e' he
        rw [htrace] at he
        cases he
        exact hle
      rw [Invocation.conclusion_of_late ht hlate]
      exact Option.some.inj (hover.symm.trans hgone)

/-- Nobody waits longer than the invocation concludes. -/
theorem Follows.now_le (h : Follows inv r) (hw : r.waiter = .waiting) {t : Instant}
    (ht : instantOf inv.conclusion = some t) : r.now ≤ t := by
  cases h with
  | waiting _ _ _ _ _ _ hstop htrace =>
      rcases instantOf_conclusion ht with ⟨e, he⟩ | hs
      · rw [htrace] at he
        exact le_of_trace_ending he
      · exact hstop t hs
  | ended e _ _ _ _ hlt htrace =>
      rw [Invocation.conclusion_of_inTime (by rw [htrace]) hlt] at ht
      cases ht
      exact Nat.le_refl _
  | forsaken _ _ _ hgone | late _ _ _ hgone =>
      rw [hw] at hgone
      cases hgone
  | noticed _ _ _ hended =>
      rw [hw] at hended
      cases hended

/-- The notes so far are the first notes of the trace, and what is missing is not yet due. -/
theorem Follows.notes (h : Follows inv r) :
    ∃ rest, inv.trace.notes = r.notes ++ rest ∧ (∀ note ∈ rest, r.now ≤ note.1) ∧
      (r.task = none → rest = []) := by
  cases h with
  | waiting program htask _ _ _ _ _ htrace | forsaken program _ htask _ _ _ _ htrace =>
      refine ⟨_, by rw [htrace]; rfl, (traceFrom_trace _ _ _ _).notes, ?_⟩
      intro hnone
      rw [htask] at hnone
      cases hnone
  | ended _ _ _ _ _ _ htrace | noticed _ _ _ _ _ _ _ htrace | late _ _ _ _ _ _ _ htrace =>
      exact ⟨[], by rw [htrace, List.append_nil], nofun, fun _ => rfl⟩

/-! ### The rest of an instant -/

/-- Moves within the instant lead from one race to another. -/
def WithinInstant (leaves : Option Instant) (r s : Race) : Prop :=
  ∃ moves, Move.tick ∉ moves ∧ r.course leaves moves = some s

theorem WithinInstant.trans {t : Race} (h : WithinInstant leaves r s)
    (h' : WithinInstant leaves s t) : WithinInstant leaves r t := by
  obtain ⟨before, hb, hcourse⟩ := h
  obtain ⟨after, ha, hcourse'⟩ := h'
  refine ⟨before ++ after, by simp [hb, ha], ?_⟩
  rw [course_append, hcourse]
  exact hcourse'

theorem WithinInstant.of_step {move : Move} (hstep : r.step move = some s)
    (hmove : move ≠ .tick) (hpermits : r.permits leaves move = true) :
    WithinInstant leaves r s := by
  refine ⟨[move], by simpa using hmove.symm, ?_⟩
  rw [course, if_pos hpermits, hstep, Option.bind_some, course]

theorem Works.withinInstant (h : Works r s) (leaves : Option Instant) :
    WithinInstant leaves r s := by
  induction h with
  | refl r => exact ⟨[], List.not_mem_nil, rfl⟩
  | step hstep _ ih => exact (WithinInstant.of_step hstep nofun rfl).trans ih

/-- Nothing stands in the way of the clock. -/
structure Ready (leaves : Option Instant) (r : Race) : Prop where
  permits : r.permits leaves .tick = true
  step : r.step .tick = some { r with now := r.now + 1 }

theorem ready_of_rests (hrests : r.Rests)
    (hw : r.waiter = .waiting → r.noticed? = none ∧ leaves ≠ some r.now) : r.Ready leaves where
  permits := by
    cases hwaiter : r.waiter with
    | waiting => simp [Race.permits, mustLeave, (hw hwaiter).2]
    | ended | gone => simp [Race.permits, mustLeave, hwaiter, Waiter.conclusion?]
  step := by
    rw [Race.step, isBusy_eq_false hrests fun h => (hw h).1]
    rfl

/-- When nobody waits any more, the pipeline alone can hold up the clock, and it comes to rest. -/
theorem exists_ready_of_over (leaves : Option Instant) (h : r.waiter ≠ .waiting) :
    ∃ s, WithinInstant leaves r s ∧ s.now = r.now ∧ s.Ready leaves := by
  obtain ⟨s, hworks, hrests⟩ := exists_rests r
  obtain ⟨hnow, hwaiter, _⟩ := hworks.frame
  refine ⟨s, hworks.withinInstant leaves, hnow, ready_of_rests hrests ?_⟩
  exact fun hw => absurd (hwaiter ▸ hw) h

/-- Within the instant a race comes to where it does not hold up the clock. -/
theorem exists_ready (leaves : Option Instant) (r : Race) :
    ∃ s, WithinInstant leaves r s ∧ s.now = r.now ∧ s.Ready leaves := by
  obtain ⟨s, hworks, hrests⟩ := exists_rests r
  have hwithin := hworks.withinInstant leaves
  have hnow := hworks.frame.1
  have onceOver : ∀ {u}, WithinInstant leaves s u → u.now = s.now → u.waiter ≠ .waiting →
      ∃ v, WithinInstant leaves r v ∧ v.now = r.now ∧ v.Ready leaves := by
    intro u hends hu hw
    obtain ⟨v, hwithin', hnow', hready⟩ := exists_ready_of_over leaves hw
    exact ⟨v, (hwithin.trans hends).trans hwithin', (hnow'.trans hu).trans hnow, hready⟩
  by_cases hw : s.waiter = .waiting
  · cases hn : s.noticed? with
    | some outcome =>
        have hpermits : s.permits leaves .look = true := rfl
        have hends := WithinInstant.of_step (step_look_of_noticed hw hn) (by simp) hpermits
        exact onceOver hends rfl (by simp [finish])
    | none =>
        by_cases hleaves : leaves = some s.now
        · have hleave : s.step .leave = some (s.finish (.gone s.now)) := by rw [step, hw]
          have hpermits : s.permits leaves .leave = true := by simp [permits, hleaves]
          have hends := WithinInstant.of_step hleave (by simp) hpermits
          exact onceOver hends rfl (by simp [finish])
        · exact ⟨s, hwithin, hnow, ready_of_rests hrests fun _ => ⟨hn, hleaves⟩⟩
  · exact ⟨s, hwithin, hnow, ready_of_rests hrests fun h => absurd h hw⟩

end Gateway.Endpoint.Race
