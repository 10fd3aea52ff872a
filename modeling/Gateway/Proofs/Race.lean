/-
Module: Gateway.Proofs.Race
Layer: Proofs
Purpose: What a single move of a race can do, and what therefore holds at every moment of every
  race, whatever the order of its moves.  The pipeline never ends the wait; the one who waits looks
  at nothing but the slot and the clock; and the clock stands still while either of them can move.
  From these three facts `Agrees` follows by induction on the moves (`Agrees.run`): a wait comes to
  its end with the pipeline or at the deadline, whichever is first, and at that very instant.
Main exports: Race.endingIn, Race.noticed?, Race.Settles, Race.Agrees, Race.Agrees.run,
  Race.run_append, Race.run_ticks, Race.waiter_of_run
-/
import Mathlib.Tactic.ByContra
import Gateway.Endpoint.Race

namespace Gateway.Endpoint.Race

open Pipeline (Ending Program)

/-! ### The pipeline's end -/

/-- What the end of a program leaves in the slot. -/
def slotOf : Ending → Slot
  | .returned answer => .filled answer
  | .crashed => .lost

/-- How the pipeline ends with its next step, if that step is its last. -/
def ending? (r : Race) : Option Ending :=
  match r.task with
  | some (.answer answer) => some (.returned answer)
  | some .crash => some .crashed
  | _ => none

/-- When and how the pipeline ends with a move. -/
def endingAt (r : Race) : Move → Option (Instant × Ending)
  | .task _ => r.ending?.map (r.now, ·)
  | _ => none

@[simp] theorem endingAt_look (r : Race) : r.endingAt .look = none := rfl
@[simp] theorem endingAt_leave (r : Race) : r.endingAt .leave = none := rfl
@[simp] theorem endingAt_tick (r : Race) : r.endingAt .tick = none := rfl

/-- When and how the pipeline ends in the course of some moves. -/
def endingIn (r : Race) : List Move → Option (Instant × Ending)
  | [] => none
  | move :: moves => (r.endingAt move).or ((r.step move).bind (·.endingIn moves))

/-- When the deadline is noticed. -/
def deadline (r : Race) : Option Instant :=
  r.scope.deadline.map roundUp

/-- What the one who waits makes of the slot and the clock, the slot first. -/
def noticed? (r : Race) : Option Outcome :=
  match r.slot with
  | .filled answer => some (.ofAnswer answer)
  | .lost => some (.failed .aborted)
  | .empty => if r.scope.expired r.now then some .timeout else none

/-- The race after the pipeline's last step: what it leaves is for the slot as long as someone
waits, and an answer that comes later is counted. -/
def endTask (r : Race) (e : Ending) : Race :=
  match r.waiter, e with
  | .waiting, _ => { r with task := none, slot := slotOf e }
  | _, .returned _ => { r with task := none, dropped := r.dropped + 1 }
  | _, .crashed => { r with task := none }

@[simp] theorem endTask_task (r : Race) (e : Ending) : (r.endTask e).task = none := by
  unfold endTask; split <;> rfl

@[simp] theorem endTask_now (r : Race) (e : Ending) : (r.endTask e).now = r.now := by
  unfold endTask; split <;> rfl

@[simp] theorem endTask_waiter (r : Race) (e : Ending) : (r.endTask e).waiter = r.waiter := by
  unfold endTask; split <;> rfl

@[simp] theorem endTask_scope (r : Race) (e : Ending) : (r.endTask e).scope = r.scope := by
  unfold endTask; split <;> rfl

@[simp] theorem endTask_notes (r : Race) (e : Ending) : (r.endTask e).notes = r.notes := by
  unfold endTask; split <;> rfl

theorem endTask_slot {r : Race} (h : r.waiter = .waiting) (e : Ending) :
    (r.endTask e).slot = slotOf e := by
  simp [endTask, h]

-- Stated for any rounding, because evaluating `roundUp` on a variable instant is expensive.
theorem any_le_iff (round : Instant → Instant) (o : Option Instant) (now : Instant) :
    (o.any fun d => round d ≤ now) = true ↔ ∃ d, o.map round = some d ∧ d ≤ now := by
  cases o <;> simp

theorem forall_of_eq_some {o : Option Instant} {t : Instant} {P : Instant → Prop} (h : o = some t)
    (ht : P t) : ∀ u, o = some u → P u := by
  intro u hu
  rw [h] at hu
  cases hu
  exact ht

theorem expired_iff {r : Race} :
    r.scope.expired r.now = true ↔ ∃ d, r.deadline = some d ∧ d ≤ r.now :=
  any_le_iff roundUp r.scope.deadline r.now

theorem noticed?_of_slotOf {r : Race} {e : Ending} (h : r.slot = slotOf e) :
    r.noticed? = some (Invocation.outcomeOf e) := by
  cases e <;> simp [noticed?, h, slotOf, Invocation.outcomeOf]

theorem noticed?_of_empty {r : Race} (h : r.slot = .empty) :
    r.noticed? = if r.scope.expired r.now then some .timeout else none := by
  simp [noticed?, h]

/-! ### Single moves -/

/-- A program goes on with another. -/
inductive Continues : Program → Program → Prop where
  | note {label next} : Continues (.note label next) next
  | cancel {next} : Continues (.cancel next) next
  | sleepUntil {instant next} : Continues (.sleepUntil instant next) next
  | awaitEnd {next} : Continues (.awaitEnd next) next
  | slept {instant slept ended} : Continues (.sleepOrEnd instant slept ended) slept
  | ended {instant slept ended} : Continues (.sleepOrEnd instant slept ended) ended
  | inspect {next seen} : Continues (.inspect next) (next seen)

/-- A program goes on only so often. -/
theorem continues_wellFounded : WellFounded fun next program => Continues program next := by
  refine ⟨fun program => ?_⟩
  induction program with
  | answer | crash | stall => exact .intro _ nofun
  | note _ _ ih | cancel _ ih | sleepUntil _ _ ih | awaitEnd _ ih =>
      exact .intro _ fun _ h => by cases h; exact ih
  | sleepOrEnd _ _ _ ihSlept ihEnded =>
      refine .intro _ fun _ h => ?_
      cases h with
      | slept => exact ihSlept
      | ended => exact ihEnded
  | inspect _ ih => exact .intro _ fun _ h => by cases h; exact ih _

/-- Everything that a step of the pipeline can do.  It ends the pipeline, or it goes on to the next
thing and at most cancels the scope; the clock, the slot and the one who waits stay as they are. -/
theorem task_inv {r s : Race} {followsEnd : Bool} (h : r.step (.task followsEnd) = some s) :
    (∃ e, r.ending? = some e ∧ s = r.endTask e) ∨
    (r.ending? = none ∧ ∃ program next notes, r.task = some program ∧ Continues program next ∧
      s = { r with
        task := some next
        notes := notes
        scope := if r.aboutToCancel then r.scope.cancel else r.scope }) := by
  obtain ⟨program, hp, hstep⟩ := Option.bind_eq_some_iff.1 h
  simp only [ending?, aboutToCancel, hp]
  cases program with
  | answer answer =>
      refine Or.inl ⟨_, rfl, ?_⟩
      cases hw : r.waiter <;> simp_all [stepTask, endTask, slotOf]
  | crash =>
      refine Or.inl ⟨_, rfl, ?_⟩
      cases hw : r.waiter <;> simp_all [stepTask, endTask, slotOf]
  | stall => cases hstep
  | note label next => cases hstep; exact Or.inr ⟨rfl, _, next, _, rfl, .note, rfl⟩
  | cancel next => cases hstep; exact Or.inr ⟨rfl, _, next, _, rfl, .cancel, rfl⟩
  | sleepUntil instant next =>
      simp only [stepTask] at hstep
      split at hstep <;> cases hstep
      exact Or.inr ⟨rfl, _, next, _, rfl, .sleepUntil, rfl⟩
  | awaitEnd next =>
      simp only [stepTask] at hstep
      split at hstep <;> cases hstep
      exact Or.inr ⟨rfl, _, next, _, rfl, .awaitEnd, rfl⟩
  | sleepOrEnd instant slept ended =>
      simp only [stepTask] at hstep
      split at hstep
      · cases hstep
        exact Or.inr ⟨rfl, _, ended, _, rfl, .ended, rfl⟩
      · split at hstep <;> cases hstep
        exact Or.inr ⟨rfl, _, slept, _, rfl, .slept, rfl⟩
  | inspect next => cases hstep; exact Or.inr ⟨rfl, _, _, _, rfl, .inspect, rfl⟩

/-- The last step of a pipeline leaves what its end is. -/
theorem eq_endTask_of_step {r s : Race} {e : Ending} (hending : r.ending? = some e)
    {followsEnd : Bool} (hstep : r.step (.task followsEnd) = some s) : s = r.endTask e := by
  rcases task_inv hstep with ⟨last, hlast, hs⟩ | ⟨hnone, _⟩
  · rw [hending] at hlast
    cases hlast
    exact hs
  · rw [hending] at hnone
    cases hnone

/-- A step of the pipeline leaves the one who waits alone: not even a pipeline that cancels its
scope ends the wait by that. -/
theorem task_frame {r s : Race} {followsEnd : Bool} (h : r.step (.task followsEnd) = some s) :
    s.now = r.now ∧ s.waiter = r.waiter ∧ s.deadline = r.deadline := by
  rcases task_inv h with ⟨e, _, rfl⟩ | ⟨_, _, next, notes, _, _, rfl⟩
  · simp [deadline]
  · refine ⟨rfl, rfl, ?_⟩
    simp only [deadline]
    split <;> rfl

theorem stepWaiter_of_waiting {r : Race} (h : r.waiter = .waiting) :
    r.stepWaiter = r.noticed?.map fun outcome => r.finish (.ended r.now outcome) := by
  simp only [stepWaiter, h, noticed?]
  cases r.slot with
  | filled answer => rfl
  | lost => rfl
  | empty => by_cases he : r.scope.expired r.now <;> simp [he]

theorem step_look_of_noticed {r : Race} (h : r.waiter = .waiting) {outcome : Outcome}
    (hn : r.noticed? = some outcome) :
    r.step .look = some (r.finish (.ended r.now outcome)) := by
  rw [step, stepWaiter_of_waiting h, hn]
  rfl

theorem stepWaiter_of_not_waiting {r : Race} (h : r.waiter ≠ .waiting) : r.stepWaiter = none := by
  unfold stepWaiter
  split
  · rename_i hw
    exact absurd hw h
  · rfl

/-- A look that ends the wait ends it now, with what was noticed. -/
theorem look_inv {r s : Race} (h : r.step .look = some s) :
    r.waiter = .waiting ∧ ∃ outcome, r.noticed? = some outcome ∧
      s = r.finish (.ended r.now outcome) := by
  have hw : r.waiter = .waiting := by
    by_contra hw
    simp [step, stepWaiter_of_not_waiting hw] at h
  simp only [step, stepWaiter_of_waiting hw] at h
  obtain ⟨outcome, hn, rfl⟩ := Option.map_eq_some_iff.1 h
  exact ⟨hw, outcome, hn, rfl⟩

theorem leave_inv {r s : Race} (h : r.step .leave = some s) :
    r.waiter = .waiting ∧ s = r.finish (.gone r.now) := by
  simp only [step] at h
  cases hw : r.waiter <;> simp_all

/-- The clock moves only when there is nothing to notice. -/
theorem tick_inv {r s : Race} (h : r.step .tick = some s) :
    s = { r with now := r.now + 1 } ∧ (r.waiter = .waiting → r.noticed? = none) := by
  simp only [step] at h
  split at h
  · cases h
  · rename_i hbusy
    cases h
    refine ⟨rfl, ?_⟩
    intro hw
    simp only [isBusy, stepWaiter_of_waiting hw, Bool.or_eq_true, not_or] at hbusy
    simpa using hbusy.2

/-- Only its own steps take the pipeline further. -/
theorem task_of_step {r s : Race} {move : Move} (hstep : r.step move = some s)
    (hmove : ∀ followsEnd, move ≠ .task followsEnd) : s.task = r.task := by
  cases move with
  | task followsEnd => exact absurd rfl (hmove followsEnd)
  | look => obtain ⟨_, _, _, rfl⟩ := look_inv hstep; rfl
  | leave => obtain ⟨_, rfl⟩ := leave_inv hstep; rfl
  | tick => rw [(tick_inv hstep).1]

/-- Once the pipeline is over nothing brings it back. -/
theorem task_eq_none_of_step {r s : Race} {move : Move} (htask : r.task = none)
    (h : r.step move = some s) : s.task = none := by
  cases move with
  | task followsEnd =>
      rw [step, htask] at h
      cases h
  | look | leave | tick => exact (task_of_step h (by simp)).trans htask

/-! ### Runs -/

theorem run_append (r : Race) (before after : List Move) :
    r.run (before ++ after) = (r.run before).bind (·.run after) := by
  induction before generalizing r with
  | nil => rfl
  | cons move moves ih =>
      simp only [List.cons_append, run, ih]
      cases r.step move <;> rfl

/-- The clock runs on for as long as nothing can be done. -/
theorem run_ticks (r : Race) (n : Nat)
    (idle : ∀ k < n, ({ r with now := r.now + k } : Race).isBusy = false) :
    r.run (List.replicate n .tick) = some { r with now := r.now + n } := by
  induction n generalizing r with
  | zero => rfl
  | succ n ih =>
      have first : r.step .tick = some { r with now := r.now + 1 } := by
        have hidle : r.isBusy = false := by simpa using idle 0 (Nat.succ_pos n)
        simp [step, hidle]
      have rest := ih { r with now := r.now + 1 } fun k hk => by
        have := idle (k + 1) (Nat.succ_lt_succ hk)
        rwa [Nat.add_comm k 1, ← Nat.add_assoc] at this
      rw [List.replicate_succ, run, first]
      simp only [Option.bind_some, rest, Nat.add_assoc, Nat.add_comm 1 n]

/-- Once the wait is over nothing changes how it ended. -/
theorem waiter_of_step {r s : Race} {move : Move} (h : r.step move = some s)
    (hw : r.waiter ≠ .waiting) : s.waiter = r.waiter := by
  cases move with
  | task followsEnd => exact (task_frame h).2.1
  | look => exact absurd (look_inv h).1 hw
  | leave => exact absurd (leave_inv h).1 hw
  | tick => rw [(tick_inv h).1]

theorem waiter_of_run {r s : Race} {moves : List Move} (h : r.run moves = some s)
    (hw : r.waiter ≠ .waiting) : s.waiter = r.waiter := by
  induction moves generalizing r with
  | nil => cases h; rfl
  | cons move moves ih =>
      obtain ⟨t, hstep, hrest⟩ := Option.bind_eq_some_iff.1 h
      have ht := waiter_of_step hstep hw
      rw [ih hrest (ht ▸ hw), ht]

/-! ### The ends of a run -/

/-- The pipeline ends with the first move, or later. -/
theorem endingIn_cons_inv {r : Race} {move : Move} {moves : List Move} {t : Instant} {e : Ending}
    (h : r.endingIn (move :: moves) = some (t, e)) :
    (r.ending? = some e ∧ t = r.now) ∨
    ∃ s, r.step move = some s ∧ s.endingIn moves = some (t, e) := by
  rw [endingIn, Option.or_eq_some_iff] at h
  rcases h with hnow | ⟨_, hlater⟩
  · cases move with
    | task followsEnd =>
        obtain ⟨last, hlast, heq⟩ := Option.map_eq_some_iff.1 hnow
        cases heq
        exact Or.inl ⟨hlast, rfl⟩
    | look | leave | tick => cases hnow
  · exact Or.inr (Option.bind_eq_some_iff.1 hlater)

/-- A pipeline that is over does not end again. -/
theorem endingIn_of_task_eq_none {r : Race} {moves : List Move} (h : r.task = none) :
    r.endingIn moves = none := by
  rw [← Option.not_isSome_iff_eq_none, Option.isSome_iff_exists]
  rintro ⟨⟨t, e⟩, hending⟩
  induction moves generalizing r with
  | nil => cases hending
  | cons move moves ih =>
      rcases endingIn_cons_inv hending with ⟨hlast, _⟩ | ⟨s, hstep, hlater⟩
      · rw [ending?, h] at hlast
        cases hlast
      · exact ih (task_eq_none_of_step h hstep) hlater

/-! ### The invariant -/

/-- How a wait may end: by the pipeline's end if that is not after the deadline, and at the deadline
if the pipeline's end is not before it. -/
inductive Settles (deadline : Option Instant) (ending : Option (Instant × Ending)) :
    Instant → Outcome → Prop where
  | byPipeline {instant e} : ending = some (instant, e) → (∀ d, deadline = some d → instant ≤ d) →
      Settles deadline ending instant (Invocation.outcomeOf e)
  | byClock {d} : deadline = some d → (∀ instant e, ending = some (instant, e) → d ≤ instant) →
      Settles deadline ending d .timeout

/-- What holds at every moment of a race, its pipeline having ended as told. -/
structure Agrees (deadline : Option Instant) (ending : Option (Instant × Ending)) (r : Race) :
    Prop where
  deadline_eq : r.deadline = deadline
  task_eq_none : r.task = none ↔ ending.isSome
  past : ∀ {instant e}, ending = some (instant, e) → instant ≤ r.now
  /-- While someone waits, the slot tells of the pipeline's end, which was just now. -/
  slot_eq : r.waiter = .waiting → r.slot = (ending.map fun e => slotOf e.2).getD .empty
  prompt : r.waiter = .waiting → ∀ {instant e}, ending = some (instant, e) → r.now = instant
  early : r.waiter = .waiting → ∀ {d}, deadline = some d → r.now ≤ d
  settled : ∀ {instant outcome}, r.waiter = .ended instant outcome →
    instant ≤ r.now ∧ Settles deadline ending instant outcome

variable {deadline : Option Instant} {ending : Option (Instant × Ending)} {r s : Race}

/-- What is noticed settles the wait. -/
theorem Agrees.settles_noticed (h : Agrees deadline ending r) (hw : r.waiter = .waiting)
    {outcome : Outcome} (hn : r.noticed? = some outcome) :
    Settles deadline ending r.now outcome := by
  have hslot := h.slot_eq hw
  cases hend : ending with
  | some last =>
      obtain ⟨instant, e⟩ := last
      have hnow : r.now = instant := h.prompt hw hend
      have hfull : r.slot = slotOf e := by rw [hslot, hend]; rfl
      rw [noticed?_of_slotOf hfull] at hn
      cases hn
      subst hnow
      exact .byPipeline rfl fun d hd => h.early hw hd
  | none =>
      have hempty : r.slot = .empty := by rw [hslot, hend]; rfl
      rw [noticed?_of_empty hempty] at hn
      split at hn
      · rename_i hexp
        cases hn
        obtain ⟨d, hd, hle⟩ := expired_iff.1 hexp
        have hd' : deadline = some d := h.deadline_eq ▸ hd
        obtain rfl : r.now = d := Nat.le_antisymm (h.early hw hd') hle
        exact .byClock hd' fun _ _ he => by cases he
      · cases hn

/-- While there is nothing to notice the pipeline goes on and the deadline is still to come. -/
theorem Agrees.of_noticed_eq_none (h : Agrees deadline ending r) (hw : r.waiter = .waiting)
    (hn : r.noticed? = none) : ending = none ∧ ∀ d, deadline = some d → r.now < d := by
  have hslot := h.slot_eq hw
  cases hend : ending with
  | some last =>
      have hfull : r.slot = slotOf last.2 := by rw [hslot, hend]; rfl
      rw [noticed?_of_slotOf hfull] at hn
      cases hn
  | none =>
      have hempty : r.slot = .empty := by rw [hslot, hend]; rfl
      rw [noticed?_of_empty hempty] at hn
      refine ⟨rfl, ?_⟩
      intro d hd
      apply Nat.lt_of_not_le
      intro hle
      have hexp : r.scope.expired r.now = true := expired_iff.2 ⟨d, h.deadline_eq.trans hd, hle⟩
      simp [hexp] at hn

/-- What a wait may end with at an instant that has come stays so when the pipeline ends now. -/
theorem Settles.of_later {instant now : Instant} {outcome : Outcome} {e : Ending}
    (h : Settles deadline none instant outcome) (hle : instant ≤ now) :
    Settles deadline (some (now, e)) instant outcome := by
  cases h with
  | byPipeline he _ => cases he
  | byClock hd _ => exact .byClock hd fun _ _ he => by cases he; exact hle

/-- The invariant survives the pipeline's last step. -/
theorem Agrees.endTask (h : Agrees deadline none r) (e : Ending) :
    Agrees deadline (some (r.now, e)) (r.endTask e) where
  deadline_eq := by simpa [Race.deadline] using h.deadline_eq
  task_eq_none := by simp
  past := by
    intro _ _ he
    cases he
    simp
  slot_eq hw := by
    rw [endTask_waiter] at hw
    simp [endTask_slot hw]
  prompt _ := by
    intro _ _ he
    cases he
    simp
  early hw := by
    rw [endTask_waiter] at hw
    intro d hd
    simpa using h.early hw hd
  settled hw := by
    rw [endTask_waiter] at hw
    obtain ⟨hle, hs⟩ := h.settled hw
    exact ⟨by simpa using hle, hs.of_later hle⟩

/-- The invariant survives every step of the pipeline. -/
theorem Agrees.task (h : Agrees deadline ending r) {followsEnd : Bool}
    (hstep : r.step (.task followsEnd) = some s) :
    Agrees deadline (ending.or (r.endingAt (.task followsEnd))) s := by
  obtain ⟨program, hp, _⟩ := Option.bind_eq_some_iff.1 hstep
  obtain rfl : ending = none := by
    have hnone : ¬ r.task = none := by simp [hp]
    simpa [h.task_eq_none] using hnone
  obtain ⟨hnow, hwaiter, hdeadline⟩ := task_frame hstep
  rcases task_inv hstep with ⟨e, he, rfl⟩ | ⟨he, _, next, notes, _, _, hs⟩
  · simpa [endingAt, he] using h.endTask e
  · have hslot : s.slot = r.slot := by rw [hs]
    have htask : s.task = some next := by rw [hs]
    simp only [endingAt, he, Option.map_none, Option.or_none]
    exact
      { deadline_eq := hdeadline.trans h.deadline_eq
        task_eq_none := by simp [htask]
        past := nofun
        slot_eq := fun hw => hslot.trans (h.slot_eq (hwaiter ▸ hw))
        prompt := fun _ => nofun
        early := fun hw => hnow ▸ h.early (hwaiter ▸ hw)
        settled := fun hw => hnow ▸ h.settled (hwaiter ▸ hw) }

/-- The invariant survives the end of the wait. -/
theorem Agrees.finish (h : Agrees deadline ending r) {w : Waiter} (hw : w ≠ .waiting)
    (hs : ∀ {instant outcome}, w = .ended instant outcome →
      instant ≤ r.now ∧ Settles deadline ending instant outcome) :
    Agrees deadline ending (r.finish w) where
  deadline_eq := h.deadline_eq
  task_eq_none := h.task_eq_none
  past := h.past
  slot_eq h' := absurd h' hw
  prompt h' := absurd h' hw
  early h' := absurd h' hw
  settled := hs

/-- The invariant survives every move. -/
theorem Agrees.step (h : Agrees deadline ending r) {move : Move} (hstep : r.step move = some s) :
    Agrees deadline (ending.or (r.endingAt move)) s := by
  cases move with
  | task followsEnd => exact h.task hstep
  | look =>
      obtain ⟨hw, outcome, hn, rfl⟩ := look_inv hstep
      rw [endingAt_look, Option.or_none]
      refine h.finish nofun fun heq => ?_
      cases heq
      exact ⟨Nat.le_refl _, h.settles_noticed hw hn⟩
  | leave =>
      obtain ⟨_, rfl⟩ := leave_inv hstep
      rw [endingAt_leave, Option.or_none]
      exact h.finish nofun nofun
  | tick =>
      obtain ⟨rfl, hidle⟩ := tick_inv hstep
      rw [endingAt_tick, Option.or_none]
      exact
        { deadline_eq := h.deadline_eq
          task_eq_none := h.task_eq_none
          past := fun he => Nat.le_succ_of_le (h.past he)
          slot_eq := h.slot_eq
          prompt := fun hw _ _ he => by
            rw [(h.of_noticed_eq_none hw (hidle hw)).1] at he
            cases he
          early := fun hw _ hd => (h.of_noticed_eq_none hw (hidle hw)).2 _ hd
          settled := fun hw => ⟨Nat.le_succ_of_le (h.settled hw).1, (h.settled hw).2⟩ }

/-- The invariant survives every run. -/
theorem Agrees.run (h : Agrees deadline ending r) {moves : List Move}
    (hrun : r.run moves = some s) : Agrees deadline (ending.or (r.endingIn moves)) s := by
  induction moves generalizing r ending with
  | nil => cases hrun; simpa [endingIn] using h
  | cons move moves ih =>
      obtain ⟨t, hstep, hrest⟩ := Option.bind_eq_some_iff.1 hrun
      have := ih (h.step hstep) hrest
      simpa [endingIn, hstep, Option.or_assoc] using this

/-- A race begins with the invariant, its deadline being no earlier than its start. -/
theorem Agrees.ofInvocation (inv : Invocation)
    (hstart : ∀ d, inv.deadline = some d → inv.start ≤ d) :
    Agrees inv.deadline none (.ofInvocation inv) where
  deadline_eq := rfl
  task_eq_none := by simp [Race.ofInvocation]
  past := nofun
  slot_eq _ := rfl
  prompt _ := nofun
  early _ := hstart _
  settled := nofun

end Gateway.Endpoint.Race
