/-
Module: Gateway.Proofs.Conclusions
Layer: Proofs
Purpose: How a wait concludes.  It concludes with the pipeline's end if that comes before the wait
  ends at the latest (`conclusion_of_inTime`), and is given up otherwise (`conclusion_of_late`): at
  the deadline, or with the client's departure, whichever is first.
Main exports: Pipeline.mem_of_sooner, Invocation.lt_stop_iff, Invocation.inTime?_eq_some_iff,
  Invocation.conclusion_of_inTime, Invocation.conclusion_of_late, Invocation.givenUp_eq_ended_inv
-/
import Gateway.Endpoint.Invocation

namespace Gateway

namespace Pipeline

theorem mem_of_sooner {a b : Option Instant} {t : Instant} (h : sooner a b = some t) :
    a = some t ∨ b = some t := by
  cases a with
  | none => exact Or.inr h
  | some s =>
      cases b with
      | none => exact Or.inl h
      | some u =>
          cases h
          rcases Nat.le_total s u with hle | hle
          · exact Or.inl (by rw [Nat.min_eq_left hle])
          · exact Or.inr (by rw [Nat.min_eq_right hle])

theorem exists_sooner_le_left {a : Option Instant} {t : Instant} (h : a = some t)
    (b : Option Instant) : ∃ u, sooner a b = some u ∧ u ≤ t := by
  subst h
  cases b with
  | none => exact ⟨t, rfl, Nat.le_refl t⟩
  | some u => exact ⟨_, rfl, Nat.min_le_left t u⟩

theorem exists_sooner_le_right {b : Option Instant} {t : Instant} (h : b = some t)
    (a : Option Instant) : ∃ u, sooner a b = some u ∧ u ≤ t := by
  subst h
  cases a with
  | none => exact ⟨t, rfl, Nat.le_refl t⟩
  | some s => exact ⟨_, rfl, Nat.min_le_right s t⟩

end Pipeline

namespace Endpoint.Invocation

open Pipeline (Ending)

variable {inv : Invocation} {t : Instant} {e : Ending}

/-- The wait is not over at an instant if the deadline and the client's departure are still to
come. -/
theorem lt_stop_iff : (∀ u, inv.stop = some u → t < u) ↔
    (∀ d, inv.deadline = some d → t < d) ∧ ∀ l, inv.leaves = some l → t < l := by
  constructor
  · intro h
    constructor
    · intro d hd
      obtain ⟨u, hu, hle⟩ := Pipeline.exists_sooner_le_left hd inv.leaves
      exact Nat.lt_of_lt_of_le (h u hu) hle
    · intro l hl
      obtain ⟨u, hu, hle⟩ := Pipeline.exists_sooner_le_right hl inv.deadline
      exact Nat.lt_of_lt_of_le (h u hu) hle
  · rintro ⟨hdeadline, hleaves⟩ u hu
    rcases Pipeline.mem_of_sooner hu with hd | hl
    · exact hdeadline u hd
    · exact hleaves u hl

theorem inTime?_eq_some_iff : inv.inTime? = some (t, e) ↔
    inv.trace.ending = some (t, e) ∧ ∀ u, inv.stop = some u → t < u := by
  rw [inTime?, Option.filter_eq_some_iff]
  cases inv.stop <;> simp

/-- An end that comes while someone waits is the conclusion. -/
theorem conclusion_of_inTime (he : inv.trace.ending = some (t, e))
    (hlt : ∀ u, inv.stop = some u → t < u) : inv.conclusion = .ended t (outcomeOf e) := by
  rw [conclusion, inTime?_eq_some_iff.2 ⟨he, hlt⟩]

/-- If the end does not come while someone waits, the wait is given up. -/
theorem conclusion_of_late {u : Instant} (hstop : inv.stop = some u)
    (hlate : ∀ t e, inv.trace.ending = some (t, e) → u ≤ t) : inv.conclusion = inv.givenUp := by
  rw [conclusion]
  cases hin : inv.inTime? with
  | none => rfl
  | some last =>
      obtain ⟨hending, hlt⟩ := inTime?_eq_some_iff.1 hin
      exact absurd (hlt u hstop) (Nat.not_lt.2 (hlate _ _ hending))

theorem givenUp_of_deadline {d : Instant} (hd : inv.deadline = some d)
    (hleaves : ∀ l, inv.leaves = some l → d ≤ l) : inv.givenUp = .ended d .timeout := by
  rw [givenUp, hd]
  cases hl : inv.leaves with
  | none => rfl
  | some l => exact if_pos (hleaves l hl)

theorem givenUp_of_leaves {l : Instant} (hl : inv.leaves = some l)
    (hdeadline : ∀ d, inv.deadline = some d → l < d) : inv.givenUp = .abandoned l := by
  rw [givenUp, hl]
  cases hd : inv.deadline with
  | none => rfl
  | some d => exact if_neg (Nat.not_le.2 (hdeadline d hd))

/-- A wait that is given up comes to no outcome but a timeout, at the deadline. -/
theorem givenUp_eq_ended_inv {outcome : Outcome} (h : inv.givenUp = .ended t outcome) :
    inv.deadline = some t ∧ outcome = .timeout ∧ ∀ l, inv.leaves = some l → t ≤ l := by
  rw [givenUp] at h
  split at h
  · cases h
  · rename_i d hdeadline hleaves
    cases h
    refine ⟨hdeadline, rfl, ?_⟩
    intro l hl
    rw [hleaves] at hl
    cases hl
  · cases h
  · rename_i d l hdeadline hleaves
    split at h
    · rename_i hle
      cases h
      refine ⟨hdeadline, rfl, ?_⟩
      intro l' hl
      rw [hleaves] at hl
      cases hl
      exact hle
    · cases h

end Endpoint.Invocation

end Gateway
