/-
Module: Gateway.Proofs.Results
Layer: Proofs
Purpose: What becomes of a pipeline's result.  A move is counted as dropping one exactly if the
  pipeline returns with it and nobody waits any more (`dropped_of_step`), which happens once at the
  most, so the count of a race tells whether it happened (`dropped_of_course`).  A result that comes
  while someone waits is in the slot until the wait ends, in the same instant (`Handed.of_course`).
Main exports: Race.unheard, Race.returnsUnheard, Race.dropped_of_step, Race.dropped_of_course,
  Race.Handed, Race.Handed.of_course, Race.Disposed, Race.Missed, Race.disposed_of_course
-/
import Gateway.Proofs.Course

namespace Gateway.Endpoint.Race

open Pipeline (Ending)

variable {inv : Invocation} {r s : Race} {leaves : Option Instant} {move : Move}
  {moves : List Move} {ending : Option (Instant × Ending)}

/-! ### Results that nobody waits for -/

/-- Whether the pipeline returns with a move when nobody waits any more. -/
def unheard (r : Race) : Move → Bool
  | .task _ =>
    match r.ending? with
    | some (.returned _) => r.waiter.conclusion?.isSome
    | _ => false
  | _ => false

/-- Whether the pipeline returns in the course of some moves when nobody waits any more. -/
def returnsUnheard (r : Race) : List Move → Bool
  | [] => false
  | move :: moves => r.unheard move || (r.step move).any (·.returnsUnheard moves)

theorem dropped_of_step (h : r.step move = some s) :
    s.dropped = r.dropped + (r.unheard move).toNat := by
  cases move with
  | task followsEnd =>
      rcases task_inv h with ⟨e, he, rfl⟩ | ⟨he, _, _, _, _, _, rfl⟩
      · rw [endTask_dropped, unheard, he]
        cases e <;> cases r.waiter <;> rfl
      · rw [unheard, he]
        rfl
  | look =>
      obtain ⟨_, _, _, rfl⟩ := look_inv h
      rfl
  | leave =>
      obtain ⟨_, rfl⟩ := leave_inv h
      rfl
  | tick =>
      rw [(tick_inv h).1]
      rfl

theorem task_eq_none_of_unheard (hunheard : r.unheard move = true) (h : r.step move = some s) :
    s.task = none := by
  cases move with
  | task followsEnd =>
      rcases task_inv h with ⟨e, _, rfl⟩ | ⟨he, _⟩
      · exact endTask_task r e
      · rw [unheard, he] at hunheard
        cases hunheard
  | look | leave | tick => cases hunheard

/-- A pipeline that has ended does not return again. -/
theorem returnsUnheard_of_task_eq_none (htask : r.task = none) (moves : List Move) :
    r.returnsUnheard moves = false := by
  induction moves generalizing r with
  | nil => rfl
  | cons move moves ih =>
      have hnow : r.unheard move = false := by
        cases move with
        | task followsEnd => simp only [unheard, ending?, htask]
        | look | leave | tick => rfl
      rw [returnsUnheard, hnow, Bool.false_or]
      cases hstep : r.step move with
      | none => rfl
      | some s => exact ih (task_eq_none_of_step htask hstep)

/-- The count of a race grows by one if the pipeline returns when nobody waits any more, and not
otherwise. -/
theorem dropped_of_course (h : r.course leaves moves = some s) :
    s.dropped = r.dropped + (r.returnsUnheard moves).toNat := by
  induction moves generalizing r with
  | nil =>
      cases h
      rfl
  | cons move moves ih =>
      obtain ⟨_, t, hstep, hrest⟩ := course_cons h
      rw [ih hrest, dropped_of_step hstep, returnsUnheard, hstep, Option.any_some]
      cases hunheard : r.unheard move with
      | false => rfl
      | true =>
          have htask := task_eq_none_of_unheard hunheard hstep
          rw [returnsUnheard_of_task_eq_none htask, Bool.or_false]
          rfl

/-! ### From the pipeline to the one who waits -/

/-- A wait that ended without a result. -/
def Resultless (conclusion : Conclusion) : Prop :=
  ∀ {instant outcome}, conclusion = .ended instant outcome → outcome = .timeout

/-- Where the end of a pipeline is, the client leaving at an instant, and what has been counted. -/
inductive Handed (leaves : Option Instant) (r : Race) : Option (Instant × Ending) → Prop
  /-- The pipeline is at work. -/
  | working : r.dropped = 0 → (r.waiter = .waiting → r.slot = .empty) →
      (∀ {conclusion}, r.waiter.conclusion? = some conclusion → Resultless conclusion) →
      Handed leaves r none
  /-- Its end is in the slot. -/
  | inSlot {e : Ending} : r.task = none → r.waiter = .waiting → r.slot = slotOf e →
      r.dropped = 0 → Handed leaves r (some (r.now, e))
  /-- Its end ended the wait. -/
  | noticed {t : Instant} {e : Ending} : r.task = none →
      r.waiter = .ended t (Invocation.outcomeOf e) → r.dropped = 0 → Handed leaves r (some (t, e))
  /-- The client left without looking at the slot again. -/
  | missed {t : Instant} {e : Ending} : r.task = none → r.waiter = .gone t → leaves = some t →
      r.dropped = 0 → Handed leaves r (some (t, e))
  /-- Its end came when nobody waited any more. -/
  | late {t : Instant} {e : Ending} {conclusion : Conclusion} : r.task = none →
      r.waiter.conclusion? = some conclusion → Resultless conclusion →
      r.dropped = answerCount e → Handed leaves r (some (t, e))

theorem Handed.ofInvocation (leaves : Option Instant) (inv : Invocation) :
    Handed leaves (.ofInvocation inv) none :=
  .working rfl (fun _ => rfl) nofun

theorem Handed.task (h : Handed leaves r ending) {followsEnd : Bool}
    (hstep : r.step (.task followsEnd) = some s) :
    Handed leaves s (ending.or (r.endingAt (.task followsEnd))) := by
  have hnone : r.task ≠ none := by
    intro htask
    rw [step, htask] at hstep
    cases hstep
  cases h with
  | inSlot htask | noticed htask | missed htask | late htask => exact absurd htask hnone
  | working hdropped hslot hresultless =>
      rcases task_inv hstep with ⟨e, he, rfl⟩ | ⟨he, _, _, _, _, _, rfl⟩
      · simp only [endingAt, he, Option.map_some, Option.none_or]
        have hcount := endTask_dropped r e
        rw [hdropped, Nat.zero_add] at hcount
        cases hover : r.waiter.conclusion? with
        | none =>
            have hw := waiting_of_conclusion?_eq_none hover
            rw [← endTask_now r e]
            refine .inSlot (endTask_task r e) ((endTask_waiter r e).trans hw) (endTask_slot hw e) ?_
            rw [hcount, hover]
            rfl
        | some conclusion =>
            have hover' : (r.endTask e).waiter.conclusion? = some conclusion := by
              rw [endTask_waiter, hover]
            refine .late (endTask_task r e) hover' (hresultless hover) ?_
            rw [hcount, hover]
            rfl
      · simp only [endingAt, he, Option.map_none, Option.or_none]
        exact .working hdropped hslot hresultless

theorem Handed.look (h : Handed leaves r ending) (hstep : r.step .look = some s) :
    Handed leaves s ending := by
  obtain ⟨hw, outcome, hn, rfl⟩ := look_inv hstep
  cases h with
  | working hdropped hslot _ =>
      rw [noticed?_of_empty (hslot hw)] at hn
      split at hn <;> cases hn
      refine .working hdropped nofun ?_
      intro conclusion hover instant outcome heq
      cases hover
      cases heq
      rfl
  | inSlot htask _ hslot hdropped =>
      rw [noticed?_of_slotOf hslot] at hn
      cases hn
      exact .noticed htask rfl hdropped
  | noticed _ hover | missed _ hover | late _ hover =>
      rw [hw] at hover
      cases hover

theorem Handed.leave (h : Handed leaves r ending) (hpermits : r.permits leaves .leave = true)
    (hstep : r.step .leave = some s) : Handed leaves s ending := by
  obtain ⟨hw, rfl⟩ := leave_inv hstep
  cases h with
  | working hdropped =>
      refine .working hdropped nofun ?_
      intro conclusion hover instant outcome heq
      cases hover
      cases heq
  | inSlot htask _ _ hdropped =>
      have hleaves : leaves = some r.now := by simpa [permits] using hpermits
      exact .missed htask rfl hleaves hdropped
  | noticed _ hover | missed _ hover | late _ hover =>
      rw [hw] at hover
      cases hover

theorem Handed.tick (h : Handed leaves r ending) (hstep : r.step .tick = some s) :
    Handed leaves s ending := by
  obtain ⟨rfl, hquiet⟩ := tick_inv hstep
  cases h with
  | working hdropped hslot hresultless => exact .working hdropped hslot hresultless
  | inSlot _ hw hslot =>
      -- The clock stands still while the slot is full.
      have hn := hquiet hw
      rw [noticed?_of_slotOf hslot] at hn
      cases hn
  | noticed htask hended hdropped => exact .noticed htask hended hdropped
  | missed htask hgone hleaves hdropped => exact .missed htask hgone hleaves hdropped
  | late htask hover hresultless hdropped => exact .late htask hover hresultless hdropped

theorem Handed.step (h : Handed leaves r ending) (hpermits : r.permits leaves move = true)
    (hstep : r.step move = some s) : Handed leaves s (ending.or (r.endingAt move)) := by
  cases move with
  | task followsEnd => exact h.task hstep
  | look =>
      rw [endingAt_look, Option.or_none]
      exact h.look hstep
  | leave =>
      rw [endingAt_leave, Option.or_none]
      exact h.leave hpermits hstep
  | tick =>
      rw [endingAt_tick, Option.or_none]
      exact h.tick hstep

theorem Handed.of_course (h : Handed leaves r ending) (hcourse : r.course leaves moves = some s) :
    Handed leaves s (ending.or (r.endingIn moves)) := by
  induction moves generalizing r ending with
  | nil =>
      cases hcourse
      simpa [endingIn] using h
  | cons move moves ih =>
      obtain ⟨hpermits, t, hstep, hrest⟩ := course_cons hcourse
      have hthen := ih (h.step hpermits hstep) hrest
      simpa [endingIn, hstep, Option.or_assoc] using hthen

/-! ### Each result once -/

/-- What becomes of a result that comes at an instant: the wait ends with it, or it is dropped, and
not both. -/
inductive Disposed (instant : Instant) (answer : Pipeline.Answer) (conclusion : Conclusion)
    (dropped : Bool) : Prop where
  | answered : conclusion = .ended instant (.ofAnswer answer) → dropped = false →
      Disposed instant answer conclusion dropped
  | dropped : Resultless conclusion → dropped = true → Disposed instant answer conclusion dropped

/-- A result comes in the very instant in which the client leaves, and lies in the slot by then: the
client is not answered with it, and it is not dropped either. -/
structure Missed (leaves : Option Instant) (instant : Instant) (conclusion : Conclusion)
    (dropped : Bool) : Prop where
  leaves_eq : leaves = some instant
  conclusion_eq : conclusion = .abandoned instant
  dropped_eq : dropped = false

theorem Missed.not_disposed {instant : Instant} {conclusion : Conclusion} {dropped : Bool}
    (h : Missed leaves instant conclusion dropped) (answer : Pipeline.Answer) :
    ¬ Disposed instant answer conclusion dropped := by
  intro hdisposed
  cases hdisposed with
  | answered hended _ =>
      rw [h.conclusion_eq] at hended
      cases hended
  | dropped _ hdropped =>
      rw [h.dropped_eq] at hdropped
      cases hdropped

/-- Whatever the order of the moves, a result is disposed of, unless the client leaves in the very
instant in which it comes and misses it. -/
theorem disposed_of_course (h : (ofInvocation inv).course leaves moves = some s) {instant : Instant}
    {answer : Pipeline.Answer}
    (hreturned : (ofInvocation inv).endingIn moves = some (instant, .returned answer))
    {conclusion : Conclusion} (hover : s.waiter.conclusion? = some conclusion) :
    Disposed instant answer conclusion ((ofInvocation inv).returnsUnheard moves) ∨
      Missed leaves instant conclusion ((ofInvocation inv).returnsUnheard moves) := by
  have hcount : s.dropped = ((ofInvocation inv).returnsUnheard moves).toNat :=
    (dropped_of_course h).trans (Nat.zero_add _)
  have hhanded := (Handed.ofInvocation leaves inv).of_course h
  rw [hreturned, Option.none_or] at hhanded
  cases hhanded with
  | inSlot _ hw =>
      rw [hw] at hover
      cases hover
  | noticed _ hended hdropped =>
      rw [hended] at hover
      cases hover
      have hheard := Bool.toNat_eq_zero.1 (hcount.symm.trans hdropped)
      exact Or.inl (.answered rfl hheard)
  | missed _ hgone hleaves hdropped =>
      rw [hgone] at hover
      cases hover
      have hheard := Bool.toNat_eq_zero.1 (hcount.symm.trans hdropped)
      exact Or.inr ⟨hleaves, rfl, hheard⟩
  | late _ hover' hresultless hdropped =>
      rw [hover'] at hover
      cases hover
      have hunheard := Bool.toNat_eq_one.1 (hcount.symm.trans hdropped)
      exact Or.inl (.dropped hresultless hunheard)

end Gateway.Endpoint.Race
