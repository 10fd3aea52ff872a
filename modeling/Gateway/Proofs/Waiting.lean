/-
Module: Gateway.Proofs.Waiting
Layer: Proofs
Purpose: How the wait for a pipeline ends.  Every run of a race ends the wait with the pipeline's
  answer or with the deadline, whichever comes first, and at that instant
  (`wait_ends_with_first_event`).  A wait with a deadline always can end (`exists_ended`), and what
  an invocation reports as its conclusion is what one of its runs comes to
  (`exists_run_to_conclusion`).
Main exports: Invocation.underTimeout, Race.due, Race.exists_ended, Race.comesTo_trace,
  Race.exists_run_to_conclusion, Race.FirstDecides, Race.wait_ends_with_first_event
-/
import Gateway.Proofs.Race

namespace Gateway

/-! ### Rounding -/

theorem le_roundUp (t : Nat) : t ≤ roundUp t := by
  change t ≤ (t + 999999) / 1000000 * 1000000
  omega

theorem roundUp_lt (t : Nat) : roundUp t < t + millisecond := by
  change (t + 999999) / 1000000 * 1000000 < t + 1000000
  omega

theorem roundUp_of_dvd {t : Nat} (h : millisecond ∣ t) : roundUp t = t := by
  change 1000000 ∣ t at h
  change (t + 999999) / 1000000 * 1000000 = t
  omega

namespace Endpoint

open Pipeline (Ending Program)

/-- The invocation of a program under a timeout in milliseconds, for a client that stays. -/
def Invocation.underTimeout (start timeoutMs : Nat) (program : Program) : Invocation :=
  ⟨start, .ofTimeout start (timeoutMs * millisecond), none, program⟩

/-- Zero stands for no deadline; any other timeout is noticed at the first whole millisecond. -/
theorem Invocation.deadline_underTimeout (start timeoutMs : Nat) (program : Program) :
    (underTimeout start timeoutMs program).deadline =
      if timeoutMs = 0 then none else some (roundUp (start + timeoutMs * millisecond)) := by
  have hms : millisecond ≠ 0 := by decide
  by_cases h : timeoutMs = 0
  · simp [underTimeout, deadline, Scope.ofTimeout, Scope.unbounded, h]
  · simp only [underTimeout, deadline, Scope.ofTimeout, Scope.endingAt, Nat.mul_eq_zero, h, hms,
      or_self, if_false, Option.map_some]

theorem Invocation.start_le_deadline {start timeoutMs : Nat} {program : Program} {d : Instant}
    (h : (underTimeout start timeoutMs program).deadline = some d) :
    start + timeoutMs * millisecond ≤ d := by
  rw [deadline_underTimeout] at h
  split at h
  · cases h
  · cases h
    exact le_roundUp _

namespace Race

variable {r s : Race}

/-! ### What is due -/

/-- The end that a wait must come to: the pipeline's if that is before the deadline, and otherwise
the deadline. -/
def due (deadline : Option Instant) : Option (Instant × Ending) → Option (Instant × Outcome)
  | some (instant, e) =>
    if deadline.all (instant < ·) then some (instant, Invocation.outcomeOf e)
    else deadline.map (·, .timeout)
  | none => deadline.map (·, .timeout)

/-- Without a tie there is one way for the wait to end. -/
theorem Settles.eq_due {deadline : Option Instant} {ending : Option (Instant × Ending)}
    {instant : Instant} {outcome : Outcome} (h : Settles deadline ending instant outcome)
    (untied : ∀ t e, ending = some (t, e) → deadline ≠ some t) :
    due deadline ending = some (instant, outcome) := by
  cases h with
  | byPipeline he hle =>
      subst he
      cases deadline with
      | none => simp [due]
      | some d =>
          have hne : d ≠ instant := fun h => untied _ _ rfl (by rw [h])
          have hlt : instant < d := Nat.lt_of_le_of_ne (hle d rfl) (Ne.symm hne)
          simp [due, hlt]
  | byClock hd hle =>
      subst hd
      cases ending with
      | none => rfl
      | some last =>
          have hnot : ¬ last.1 < instant := Nat.not_lt.2 (hle _ _ rfl)
          simp [due, hnot]

/-- No one waits longer than until what is due. -/
theorem Agrees.now_le_due {deadline : Option Instant} {ending : Option (Instant × Ending)}
    (h : Agrees deadline ending r) (hw : r.waiter = .waiting) {instant : Instant}
    {outcome : Outcome} (hdue : due deadline ending = some (instant, outcome)) :
    r.now ≤ instant := by
  have byClock : deadline.map (·, Outcome.timeout) = some (instant, outcome) →
      r.now ≤ instant := by
    intro hd
    obtain ⟨d, hd', heq⟩ := Option.map_eq_some_iff.1 hd
    cases heq
    exact h.early hw hd'
  cases hend : ending with
  | none => exact byClock (by simpa [due, hend] using hdue)
  | some last =>
      rw [hend, due] at hdue
      split at hdue
      · cases hdue
        exact Nat.le_of_eq (h.prompt hw hend)
      · exact byClock hdue

theorem stop_eq_deadline {inv : Invocation} (h : inv.leaves = none) : inv.stop = inv.deadline := by
  rw [Invocation.stop, h]
  cases inv.deadline <;> rfl

/-- The conclusion of an invocation whose client stays is what is due. -/
theorem conclusion_eq_due {inv : Invocation} (h : inv.leaves = none) :
    inv.conclusion = match due inv.deadline inv.trace.ending with
      | some (instant, outcome) => .ended instant outcome
      | none => .unending := by
  have hgiven : inv.givenUp = match inv.deadline.map (·, Outcome.timeout) with
      | some (instant, outcome) => .ended instant outcome
      | none => .unending := by
    simp only [Invocation.givenUp, h]
    cases inv.deadline <;> rfl
  simp only [Invocation.conclusion, Invocation.inTime?, stop_eq_deadline h]
  cases inv.trace.ending with
  | none => simpa [due] using hgiven
  | some last =>
      by_cases hin : inv.deadline.all (last.1 < ·)
      · simp [due, Option.filter, hin]
      · simp [due, Option.filter, hin, hgiven]

/-! ### What can be reached -/

/-- Moves lead from one race to another, the client staying. -/
def Leads (r s : Race) : Prop :=
  ∃ moves, Move.leave ∉ moves ∧ r.run moves = some s

theorem Leads.refl (r : Race) : Leads r r :=
  ⟨[], List.not_mem_nil, rfl⟩

theorem Leads.trans {r s t : Race} (h : Leads r s) (h' : Leads s t) : Leads r t := by
  obtain ⟨before, hb, hrun⟩ := h
  obtain ⟨after, ha, hrun'⟩ := h'
  refine ⟨before ++ after, by simp [hb, ha], ?_⟩
  rw [run_append, hrun]
  exact hrun'

theorem Leads.of_step {move : Move} (h : r.step move = some s) (hm : move ≠ .leave) : Leads r s :=
  ⟨[move], by simpa using hm.symm, by simp [run, h]⟩

theorem Leads.of_task {followsEnd : Bool} (h : r.step (.task followsEnd) = some s) : Leads r s :=
  .of_step h nofun

theorem Leads.of_look (h : r.step .look = some s) : Leads r s :=
  .of_step h nofun

theorem Leads.of_tick (h : r.step .tick = some s) : Leads r s :=
  .of_step h nofun

/-- Without the client's leaving nobody is gone. -/
theorem waiter_ne_gone {moves : List Move} (hrun : r.run moves = some s)
    (hstay : Move.leave ∉ moves) (h : ∀ instant, r.waiter ≠ .gone instant) :
    ∀ instant, s.waiter ≠ .gone instant := by
  induction moves generalizing r with
  | nil => cases hrun; exact h
  | cons move moves ih =>
      obtain ⟨t, hstep, hrest⟩ := Option.bind_eq_some_iff.1 hrun
      refine ih hrest (fun hm => hstay (List.mem_cons_of_mem _ hm)) ?_
      cases move with
      | task followsEnd => rw [(task_frame hstep).2.1]; exact h
      | look => obtain ⟨_, _, _, rfl⟩ := look_inv hstep; exact nofun
      | leave => exact absurd List.mem_cons_self hstay
      | tick => rw [(tick_inv hstep).1]; exact h

/-- The pipeline cannot go on. -/
def Rests (r : Race) : Prop :=
  r.task.bind (r.stepTask false) = none

theorem isBusy_eq_false (hrests : r.Rests) (hn : r.waiter = .waiting → r.noticed? = none) :
    r.isBusy = false := by
  have hwaiter : r.stepWaiter = none := by
    by_cases hw : r.waiter = .waiting
    · rw [stepWaiter_of_waiting hw, hn hw]; rfl
    · exact stepWaiter_of_not_waiting hw
  have htask : r.task.bind (r.stepTask false) = none := hrests
  simp [isBusy, hwaiter, htask]

/-- Steps of the pipeline lead from one race to another. -/
inductive Works : Race → Race → Prop where
  | refl (r : Race) : Works r r
  | step {r s t : Race} : r.step (.task false) = some s → Works s t → Works r t

/-- The pipeline's work is no concern of the one who waits, and takes no time. -/
theorem Works.frame (h : Works r s) :
    s.now = r.now ∧ s.waiter = r.waiter ∧ s.deadline = r.deadline := by
  induction h with
  | refl => exact ⟨rfl, rfl, rfl⟩
  | step hstep _ ih =>
      obtain ⟨hnow, hwaiter, hdeadline⟩ := task_frame hstep
      exact ⟨ih.1.trans hnow, ih.2.1.trans hwaiter, ih.2.2.trans hdeadline⟩

theorem Works.leads (h : Works r s) : Leads r s := by
  induction h with
  | refl r => exact .refl r
  | step hstep _ ih => exact (Leads.of_task hstep).trans ih

theorem rests_of_task_eq_none (h : r.task = none) : r.Rests := by
  simp [Rests, h]

/-- The pipeline does only so much within an instant. -/
theorem exists_rests (r : Race) : ∃ s, Works r s ∧ s.Rests := by
  cases htask : r.task with
  | none => exact ⟨r, .refl r, rests_of_task_eq_none htask⟩
  | some program =>
      induction program using continues_wellFounded.induction generalizing r with
      | _ program ih =>
          cases hstep : r.step (.task false) with
          | none => exact ⟨r, .refl r, hstep⟩
          | some s =>
              rcases task_inv hstep with ⟨e, _, hs⟩ | ⟨_, _, next, notes, hp, hcont, hs⟩
              · have hlast : s.task = none := by rw [hs, endTask_task]
                exact ⟨s, .step hstep (.refl s), rests_of_task_eq_none hlast⟩
              · rw [htask] at hp
                cases hp
                have hnext : s.task = some next := by rw [hs]
                obtain ⟨t, hworks, hrests⟩ := ih next hcont s hnext
                exact ⟨t, .step hstep hworks, hrests⟩

theorem leads_of_noticed (hw : r.waiter = .waiting) {outcome : Outcome}
    (hn : r.noticed? = some outcome) : ∃ s, Leads r s ∧ s.waiter = .ended r.now outcome := by
  exact ⟨_, .of_look (step_look_of_noticed hw hn), rfl⟩

theorem noticed?_ne_none_of_deadline_le {d : Instant} (hd : r.deadline = some d)
    (hle : d ≤ r.now) : r.noticed? ≠ none := by
  have hexp := expired_iff.2 ⟨d, hd, hle⟩
  cases hslot : r.slot <;> simp [noticed?, hslot, hexp]

/-- A wait with a deadline can always come to its end. -/
theorem exists_ended {d : Instant} (hw : r.waiter = .waiting) (hd : r.deadline = some d) :
    ∃ s instant outcome, Leads r s ∧ s.waiter = .ended instant outcome := by
  obtain ⟨n, hn⟩ : ∃ n, d ≤ r.now + n := ⟨d, Nat.le_add_left d r.now⟩
  induction n generalizing r with
  | zero =>
      obtain ⟨outcome, hnoticed⟩ :=
        Option.ne_none_iff_exists'.1 (noticed?_ne_none_of_deadline_le hd hn)
      obtain ⟨s, hlead, hs⟩ := leads_of_noticed hw hnoticed
      exact ⟨s, _, _, hlead, hs⟩
  | succ n ih =>
      obtain ⟨t, hworks, hrests⟩ := exists_rests r
      obtain ⟨hnow, hwaiter, hdeadline⟩ := hworks.frame
      have hlead : Leads r t := hworks.leads
      have hw' : t.waiter = .waiting := hwaiter.trans hw
      cases hnoticed : t.noticed? with
      | some outcome =>
          obtain ⟨s, hlead', hs⟩ := leads_of_noticed hw' hnoticed
          exact ⟨s, _, _, hlead.trans hlead', hs⟩
      | none =>
          have hidle : t.isBusy = false := isBusy_eq_false hrests fun _ => hnoticed
          have htick : t.step .tick = some { t with now := t.now + 1 } := by simp [step, hidle]
          obtain ⟨s, instant, outcome, hlead', hs⟩ :=
            @ih { t with now := t.now + 1 } hw' (hdeadline.trans hd) (by
              rw [Nat.add_assoc, Nat.add_comm 1 n, hnow]
              exact hn)
          exact ⟨s, instant, outcome, (hlead.trans (.of_tick htick)).trans hlead', hs⟩

/-! ### What a program's course tells -/

theorem expired_eq_false {scope : Scope} {now : Instant}
    (h : ∀ d, scope.deadline.map roundUp = some d → now < d) : scope.expired now = false := by
  rw [← Bool.not_eq_true]
  intro hexp
  obtain ⟨d, hd, hle⟩ := (any_le_iff roundUp scope.deadline now).1 hexp
  exact Nat.not_lt.2 hle (h d hd)

/-- Before anyone stops waiting the scope is as the program left it. -/
theorem scopeAt_of_lt {stop : Option Instant} {now : Instant} {scope : Scope}
    (h : ∀ t, stop = some t → now < t) : Pipeline.scopeAt stop now scope = scope := by
  cases stop with
  | none => rfl
  | some t => simp [Pipeline.scopeAt, Nat.not_le.2 (h t rfl)]

theorem sooner_self (t : Option Instant) : Pipeline.sooner t t = t := by
  cases t <;> simp [Pipeline.sooner]

/-- A scope that is not cancelled ends at its deadline. -/
theorem endOf_of_lt {now : Instant} {scope : Scope}
    (h : ∀ d, scope.deadline.map roundUp = some d → now < d) :
    Pipeline.endOf (scope.deadline.map roundUp) now scope =
      if scope.cancelled then some now else scope.deadline.map roundUp := by
  rw [Pipeline.endOf, scopeAt_of_lt h, Scope.isDone, expired_eq_false h, Bool.or_false, sooner_self]

theorem trace_awaitEnd_of_lt {next : Program} (hearly : ∀ d, r.deadline = some d → r.now < d)
    (hcancelled : r.scope.cancelled = false) :
    Program.trace r.deadline (.awaitEnd next) r.now r.scope = match r.deadline with
      | some ended => next.trace r.deadline ended r.scope
      | none => ⟨[], none⟩ := by
  rw [Program.trace, deadline, endOf_of_lt hearly, hcancelled]
  rfl

theorem trace_sleepOrEnd_of_lt {instant : Instant} {slept ended : Program}
    (hearly : ∀ d, r.deadline = some d → r.now < d) (hcancelled : r.scope.cancelled = false) :
    Program.trace r.deadline (.sleepOrEnd instant slept ended) r.now r.scope =
      match r.deadline with
      | some done =>
        if done ≤ max r.now instant then ended.trace r.deadline done r.scope
        else slept.trace r.deadline (max r.now instant) r.scope
      | none => slept.trace r.deadline (max r.now instant) r.scope := by
  rw [Program.trace, deadline, endOf_of_lt hearly, hcancelled]
  rfl

/-- Nothing ends before it begins. -/
theorem le_of_endOf {stop : Option Instant} {now t : Instant} {scope : Scope}
    (h : Pipeline.endOf stop now scope = some t) : now ≤ t := by
  rw [Pipeline.endOf] at h
  split at h
  · cases h
    exact Nat.le_refl _
  · rename_i hdone
    have hstop : ∀ s, stop = some s → now < s := by
      rintro s rfl
      by_contra hle
      simp [Pipeline.scopeAt, Nat.not_lt.1 hle, Scope.isDone, Scope.cancel] at hdone
    have hdeadline : ∀ d, scope.deadline.map roundUp = some d → now < d := by
      intro d hd
      by_contra hle
      have hexp : scope.expired now = true :=
        (any_le_iff roundUp scope.deadline now).2 ⟨d, hd, Nat.not_lt.1 hle⟩
      rw [scopeAt_of_lt hstop, Scope.isDone, hexp, Bool.or_true] at hdone
      exact hdone rfl
    generalize scope.deadline.map roundUp = deadline at h hdeadline
    cases stop with
    | none => exact Nat.le_of_lt (hdeadline t h)
    | some s =>
        cases deadline with
        | none => exact Nat.le_of_lt (hstop t h)
        | some d =>
            cases h
            exact Nat.le_of_lt (Nat.lt_min.2 ⟨hstop s rfl, hdeadline d rfl⟩)

/-- Nothing in a trace is before an instant. -/
structure TraceFrom (now : Instant) (trace : Pipeline.Trace) : Prop where
  notes : ∀ note ∈ trace.notes, now ≤ note.1
  ending : ∀ {t e}, trace.ending = some (t, e) → now ≤ t

theorem TraceFrom.of_le {now later : Instant} {trace : Pipeline.Trace} (h : TraceFrom later trace)
    (hle : now ≤ later) : TraceFrom now trace where
  notes note hnote := Nat.le_trans hle (h.notes note hnote)
  ending he := Nat.le_trans hle (h.ending he)

/-- A program's trace begins when the program does. -/
theorem traceFrom_trace (program : Program) (stop : Option Instant) (now : Instant)
    (scope : Scope) : TraceFrom now (program.trace stop now scope) := by
  induction program generalizing now scope with
  | answer given => exact ⟨nofun, fun he => by cases he; exact Nat.le_refl _⟩
  | crash => exact ⟨nofun, fun he => by cases he; exact Nat.le_refl _⟩
  | stall => exact ⟨nofun, nofun⟩
  | note label next ih =>
      refine ⟨?_, (ih now scope).ending⟩
      intro note hnote
      rcases List.mem_cons.1 hnote with rfl | hrest
      · exact Nat.le_refl _
      · exact (ih now scope).notes note hrest
  | cancel next ih => exact ih now scope.cancel
  | sleepUntil instant next ih => exact (ih _ scope).of_le (Nat.le_max_left _ _)
  | awaitEnd next ih =>
      rw [Program.trace]
      split
      · rename_i ended hended
        exact (ih ended scope).of_le (le_of_endOf hended)
      · exact ⟨nofun, nofun⟩
  | sleepOrEnd instant slept ended ihSlept ihEnded =>
      simp only [Program.trace]
      have hslept := (ihSlept (max now instant) scope).of_le (Nat.le_max_left _ _)
      split
      · rename_i done hdone
        split
        · exact (ihEnded done scope).of_le (le_of_endOf hdone)
        · exact hslept
      · exact hslept
  | inspect next ih => exact ih _ now scope

theorem le_of_trace_ending {program : Program} {stop : Option Instant} {now t : Instant}
    {scope : Scope} {e : Ending} (h : (program.trace stop now scope).ending = some (t, e)) :
    now ≤ t :=
  (traceFrom_trace program stop now scope).ending h

/-! ### A run to what is due

The one who waits is let first at the deadline, as the course of a program has it. -/

/-- A run leads to what is due, the pipeline ending as told. -/
def ComesTo (r : Race) (ending : Option (Instant × Ending)) : Prop :=
  ∀ instant outcome, due r.deadline ending = some (instant, outcome) →
    ∃ s, Leads r s ∧ s.waiter = .ended instant outcome

theorem ComesTo.of_leads {ending : Option (Instant × Ending)} (h : Leads r s)
    (hdeadline : s.deadline = r.deadline) (hs : s.ComesTo ending) : r.ComesTo ending := by
  intro instant outcome hdue
  obtain ⟨t, hlead, ht⟩ := hs instant outcome (hdeadline ▸ hdue)
  exact ⟨t, h.trans hlead, ht⟩

/-- The clock can run on to an instant before which the pipeline cannot go on. -/
theorem leads_later {t : Instant} (hle : r.now ≤ t) (hslot : r.slot = .empty)
    (hearly : ∀ d, r.deadline = some d → t ≤ d)
    (hrests : ∀ u, r.now ≤ u → u < t → Rests { r with now := u }) :
    Leads r { r with now := t } := by
  obtain ⟨n, rfl⟩ := Nat.exists_eq_add_of_le hle
  refine ⟨List.replicate n .tick, by simp [List.mem_replicate], run_ticks r n fun k hk => ?_⟩
  have hlt : r.now + k < r.now + n := Nat.add_lt_add_left hk _
  have hexp : r.scope.expired (r.now + k) = false :=
    expired_eq_false fun d hd => Nat.lt_of_lt_of_le hlt (hearly d hd)
  refine isBusy_eq_false (hrests _ (Nat.le_add_right _ _) hlt) fun _ => ?_
  simp [noticed?, hslot, hexp]

/-- If the pipeline cannot go on before the deadline, the deadline ends the wait. -/
theorem comesTo_of_late {ending : Option (Instant × Ending)} {d : Instant}
    (hw : r.waiter = .waiting) (hslot : r.slot = .empty) (hd : r.deadline = some d)
    (hle : r.now ≤ d) (hlate : ∀ t e, ending = some (t, e) → d ≤ t)
    (hrests : ∀ u, r.now ≤ u → u < d → Rests { r with now := u }) : r.ComesTo ending := by
  have hdue : due r.deadline ending = some (d, .timeout) := by
    rw [hd]
    cases ending with
    | none => rfl
    | some last => simp [due, Nat.not_lt.2 (hlate _ _ rfl)]
  intro instant outcome h
  rw [hdue] at h
  cases h
  have hearly : ∀ d', r.deadline = some d' → d ≤ d' := forall_of_eq_some hd (Nat.le_refl d)
  have hlead := leads_later hle hslot hearly hrests
  have hnoticed : ({ r with now := d } : Race).noticed? = some .timeout := by
    have hexp : r.scope.expired d = true :=
      (any_le_iff roundUp r.scope.deadline d).2 ⟨d, hd, Nat.le_refl d⟩
    simp [noticed?, hslot, hexp]
  obtain ⟨s, hlead', hs⟩ := leads_of_noticed (r := { r with now := d }) hw hnoticed
  exact ⟨s, hlead.trans hlead', hs⟩

/-- If the pipeline's next step is its last, its end is the end of the wait. -/
theorem comesTo_of_last {e : Ending} (hw : r.waiter = .waiting) (he : r.ending? = some e)
    (hstep : r.step (.task false) = some s) (hearly : ∀ d, r.deadline = some d → r.now < d) :
    r.ComesTo (some (r.now, e)) := by
  have hs : s = r.endTask e := by
    rcases task_inv hstep with ⟨e', he', rfl⟩ | ⟨hnone, _⟩
    · rw [he] at he'; cases he'; rfl
    · rw [he] at hnone; cases hnone
  subst hs
  have hdue : due r.deadline (some (r.now, e)) = some (r.now, Invocation.outcomeOf e) := by
    cases hd : r.deadline with
    | none => rfl
    | some d => simp [due, hearly d hd]
  intro instant outcome h
  rw [hdue] at h
  cases h
  obtain ⟨t, hlead, ht⟩ := leads_of_noticed ((endTask_waiter r e).trans hw)
    (noticed?_of_slotOf (endTask_slot hw e))
  exact ⟨t, (Leads.of_task hstep).trans hlead, by rw [ht, endTask_now]⟩

/-- A pipeline that sleeps goes on when it wakes, unless the deadline is before that. -/
theorem comesTo_of_wake {ending : Option (Instant × Ending)} {wake : Instant}
    (hw : r.waiter = .waiting) (hslot : r.slot = .empty)
    (hearly : ∀ d, r.deadline = some d → r.now < d)
    (hrests : ∀ u, u < wake → (∀ d, r.deadline = some d → u < d) → Rests { r with now := u })
    (hlate : ∀ t e, ending = some (t, e) → max r.now wake ≤ t)
    (hwoken : (∀ d, r.deadline = some d → max r.now wake < d) →
      ComesTo { r with now := max r.now wake } ending) : r.ComesTo ending := by
  by_cases hmissed : ∃ d, r.deadline = some d ∧ d ≤ max r.now wake
  · obtain ⟨d, hd, hle⟩ := hmissed
    have hwake : d ≤ wake :=
      Nat.le_of_not_lt fun hlt => Nat.not_lt.2 hle (Nat.max_lt.2 ⟨hearly d hd, hlt⟩)
    refine comesTo_of_late hw hslot hd (Nat.le_of_lt (hearly d hd))
      (fun t e he => Nat.le_trans hle (hlate t e he)) fun u _ hlt => ?_
    exact hrests u (Nat.lt_of_lt_of_le hlt hwake) (forall_of_eq_some hd hlt)
  · have hwake : ∀ d, r.deadline = some d → max r.now wake < d :=
      fun d hd => Nat.lt_of_not_le fun hle => hmissed ⟨d, hd, hle⟩
    have hlead : Leads r { r with now := max r.now wake } := by
      refine leads_later (Nat.le_max_left _ _) hslot (fun d hd => Nat.le_of_lt (hwake d hd)) ?_
      intro u hu hlt
      have hlt' : u < wake :=
        Nat.lt_of_not_le fun hle => Nat.not_lt.2 (Nat.max_le.2 ⟨hu, hle⟩) hlt
      exact hrests u hlt' fun d hd => Nat.lt_trans hlt (hwake d hd)
    exact .of_leads hlead rfl (hwoken hwake)

/-- Before the deadline a scope that is not cancelled does not end. -/
theorem isDone_eq_false {now : Instant} (hcancelled : r.scope.cancelled = false)
    (hearly : ∀ d, r.deadline = some d → now < d) : r.scope.isDone now = false := by
  rw [Scope.isDone, hcancelled, expired_eq_false hearly, Bool.or_false]

theorem stepTask_sleepOrEnd_of_done {instant : Instant} {slept ended : Program}
    (h : r.scope.isDone r.now = true) :
    r.stepTask true (.sleepOrEnd instant slept ended) = some { r with task := some ended } := by
  rw [stepTask]
  exact if_pos (by rw [h, Bool.true_or, Bool.and_true])

theorem stepTask_sleepOrEnd_of_awake {instant : Instant} {slept ended : Program}
    (h : r.scope.isDone r.now = false) (hawake : instant ≤ r.now) :
    r.stepTask false (.sleepOrEnd instant slept ended) = some { r with task := some slept } := by
  rw [stepTask, h, Bool.false_and]
  exact (if_neg Bool.false_ne_true).trans (if_pos (decide_eq_true hawake))

theorem stepTask_sleepOrEnd_eq_none {instant : Instant} {slept ended : Program}
    (h : r.scope.isDone r.now = false) (hasleep : r.now < instant) :
    r.stepTask false (.sleepOrEnd instant slept ended) = none := by
  rw [stepTask, h, Bool.false_and]
  exact (if_neg Bool.false_ne_true).trans
    (if_neg fun hawake => Nat.not_le.2 hasleep (of_decide_eq_true hawake))

theorem isDone_of_cancelled (now : Instant) (hcancelled : r.scope.cancelled = true) :
    r.scope.isDone now = true := by
  rw [Scope.isDone, hcancelled, Bool.true_or]

/-- A program that sleeps is woken by the clock alone. -/
theorem comesTo_sleepUntil {instant : Instant} {next : Program} {ending : Option (Instant × Ending)}
    (htask : r.task = some (.sleepUntil instant next)) (hw : r.waiter = .waiting)
    (hslot : r.slot = .empty) (hearly : ∀ d, r.deadline = some d → r.now < d)
    (hlate : ∀ t e, ending = some (t, e) → max r.now (roundUp instant) ≤ t)
    (hnext : (∀ d, r.deadline = some d → max r.now (roundUp instant) < d) →
      ComesTo { r with now := max r.now (roundUp instant), task := some next } ending) :
    r.ComesTo ending := by
  apply comesTo_of_wake hw hslot hearly _ hlate
  · intro hwake
    have hstep : step { r with now := max r.now (roundUp instant) } (.task false) =
        some { r with now := max r.now (roundUp instant), task := some next } := by
      rw [step, htask, Option.bind_some, stepTask, if_pos (Nat.le_max_right _ _)]
    exact .of_leads (.of_task hstep) rfl (hnext hwake)
  · intro u hlt _
    rw [Rests, htask, Option.bind_some, stepTask, if_neg (Nat.not_le.2 hlt)]

/-- A program that waits for the end of a scope that nobody cancels is not there before the
deadline. -/
theorem comesTo_awaitEnd {next : Program} (htask : r.task = some (.awaitEnd next))
    (hw : r.waiter = .waiting) (hslot : r.slot = .empty)
    (hearly : ∀ d, r.deadline = some d → r.now < d) (hcancelled : r.scope.cancelled = false) :
    r.ComesTo (Program.trace r.deadline (.awaitEnd next) r.now r.scope).ending := by
  rw [trace_awaitEnd_of_lt hearly hcancelled]
  cases hd : r.deadline with
  | none => exact fun _ _ hdue => by simp [due, hd] at hdue
  | some d =>
      apply comesTo_of_late hw hslot hd (Nat.le_of_lt (hearly d hd))
      · exact fun t e he => le_of_trace_ending he
      · intro u _ hlt
        have hdone : r.scope.isDone u = false :=
          isDone_eq_false hcancelled (forall_of_eq_some hd hlt)
        rw [Rests, htask, Option.bind_some, stepTask, if_neg (by simp [hdone])]

/-- A program that sleeps unless its scope ends is woken by the clock before the deadline, and not
at all if the deadline is first. -/
theorem comesTo_sleepOrEnd {instant : Instant} {slept ended : Program}
    (htask : r.task = some (.sleepOrEnd instant slept ended)) (hw : r.waiter = .waiting)
    (hslot : r.slot = .empty) (hearly : ∀ d, r.deadline = some d → r.now < d)
    (hcancelled : r.scope.cancelled = false)
    (hslept : (∀ d, r.deadline = some d → max r.now instant < d) →
      ComesTo { r with now := max r.now instant, task := some slept }
        (slept.trace r.deadline (max r.now instant) r.scope).ending) :
    r.ComesTo
      (Program.trace r.deadline (.sleepOrEnd instant slept ended) r.now r.scope).ending := by
  have hasleep : ∀ u, u < instant → (∀ d, r.deadline = some d → u < d) →
      Rests { r with now := u } := by
    intro u hlt hu
    rw [Rests, htask, Option.bind_some]
    exact stepTask_sleepOrEnd_eq_none (isDone_eq_false hcancelled hu) hlt
  have hwoken : r.ComesTo
      (slept.trace r.deadline (max r.now instant) r.scope).ending := by
    apply comesTo_of_wake hw hslot hearly hasleep
    · exact fun t e he => le_of_trace_ending he
    · intro hwake
      have hstep : step { r with now := max r.now instant } (.task false) =
          some { r with now := max r.now instant, task := some slept } := by
        rw [step, htask, Option.bind_some]
        exact stepTask_sleepOrEnd_of_awake (isDone_eq_false hcancelled hwake) (Nat.le_max_right _ _)
      exact .of_leads (.of_task hstep) rfl (hslept hwake)
  rw [trace_sleepOrEnd_of_lt hearly hcancelled]
  cases hd : r.deadline with
  | none =>
      rw [hd] at hwoken
      exact hwoken
  | some d =>
      change r.ComesTo (Pipeline.Trace.ending (if d ≤ max r.now instant then _ else _))
      by_cases hle : d ≤ max r.now instant
      · rw [if_pos hle]
        have hwake : d ≤ instant :=
          Nat.le_of_not_lt fun hlt => Nat.not_lt.2 hle (Nat.max_lt.2 ⟨hearly d hd, hlt⟩)
        apply comesTo_of_late hw hslot hd (Nat.le_of_lt (hearly d hd))
        · exact fun t e he => le_of_trace_ending he
        · intro u _ hlt
          exact hasleep u (Nat.lt_of_lt_of_le hlt hwake) (forall_of_eq_some hd hlt)
      · rw [if_neg hle]
        rw [hd] at hwoken
        exact hwoken

/-- The course of a program is one that the race can take. -/
theorem comesTo_trace {program : Program} (htask : r.task = some program)
    (hw : r.waiter = .waiting) (hslot : r.slot = .empty)
    (hearly : ∀ d, r.deadline = some d → r.now < d) :
    r.ComesTo (program.trace r.deadline r.now r.scope).ending := by
  induction program generalizing r with
  | answer given =>
      have hstep : r.step (.task false) = some (r.endTask (.returned given)) := by
        simp [step, htask, stepTask, endTask, hw, slotOf]
      exact comesTo_of_last hw (by simp [ending?, htask]) hstep hearly
  | crash =>
      have hstep : r.step (.task false) = some (r.endTask .crashed) := by
        simp [step, htask, stepTask, endTask, hw, slotOf]
      exact comesTo_of_last hw (by simp [ending?, htask]) hstep hearly
  | stall =>
      cases hd : r.deadline with
      | none => exact fun _ _ hdue => by simp [due, hd, Program.trace] at hdue
      | some d =>
          apply comesTo_of_late hw hslot hd (Nat.le_of_lt (hearly d hd))
          · intro t e he
            rw [Program.trace] at he
            cases he
          · intro u _ _
            simp [Rests, htask, stepTask]
  | note label next ih =>
      have hstep : r.step (.task false) =
          some { r with task := some next, notes := r.notes ++ [(r.now, label)] } := by
        simp [step, htask, stepTask]
      exact .of_leads (.of_task hstep) rfl (ih rfl hw hslot hearly)
  | cancel next ih =>
      have hstep : r.step (.task false) =
          some { r with task := some next, scope := r.scope.cancel } := by
        simp [step, htask, stepTask]
      exact .of_leads (.of_task hstep) rfl (ih rfl hw hslot hearly)
  | sleepUntil instant next ih =>
      rw [Program.trace]
      apply comesTo_sleepUntil htask hw hslot hearly
      · exact fun t e he => le_of_trace_ending he
      · exact fun hwake => ih rfl hw hslot hwake
  | awaitEnd next ih =>
      cases hcancelled : r.scope.cancelled with
      | true =>
          have hstep : r.step (.task false) = some { r with task := some next } := by
            rw [step, htask, Option.bind_some, stepTask,
              if_pos (isDone_of_cancelled r.now hcancelled)]
          rw [Program.trace, deadline, endOf_of_lt hearly, hcancelled]
          exact .of_leads (.of_task hstep) rfl (ih rfl hw hslot hearly)
      | false => exact comesTo_awaitEnd htask hw hslot hearly hcancelled
  | sleepOrEnd instant slept ended ihSlept ihEnded =>
      cases hcancelled : r.scope.cancelled with
      | true =>
          -- awake or not, the course follows the end of the scope, so the move has to as well
          have hstep : r.step (.task true) = some { r with task := some ended } := by
            rw [step, htask, Option.bind_some]
            exact stepTask_sleepOrEnd_of_done (isDone_of_cancelled r.now hcancelled)
          rw [Program.trace, deadline, endOf_of_lt hearly, hcancelled, if_pos rfl]
          change r.ComesTo (Pipeline.Trace.ending (if r.now ≤ max r.now instant then _
            else _))
          rw [if_pos (Nat.le_max_left _ _)]
          exact .of_leads (.of_task hstep) rfl (ihEnded rfl hw hslot hearly)
      | false =>
          exact comesTo_sleepOrEnd htask hw hslot hearly hcancelled
            fun hwake => ihSlept rfl hw hslot hwake
  | inspect next ih =>
      have hstep : r.step (.task false) =
          some { r with task := some (next ⟨r.now, r.scope⟩) } := by
        simp [step, htask, stepTask]
      rw [Program.trace, scopeAt_of_lt hearly]
      exact .of_leads (.of_task hstep) rfl (ih _ rfl hw hslot hearly)

/-- An invocation concludes as one of its runs does. -/
theorem exists_run_to_conclusion {inv : Invocation} (hstays : inv.leaves = none)
    (hstart : ∀ d, inv.deadline = some d → inv.start < d) {instant : Instant} {outcome : Outcome}
    (h : inv.conclusion = .ended instant outcome) :
    ∃ s, Leads (.ofInvocation inv) s ∧ s.waiter = .ended instant outcome := by
  have hcomes := comesTo_trace (r := .ofInvocation inv) rfl rfl rfl hstart
  have hdue : due inv.deadline inv.trace.ending = some (instant, outcome) := by
    rw [conclusion_eq_due hstays] at h
    split at h
    · rename_i hdue
      cases h
      exact hdue
    · cases h
  rw [Invocation.trace, stop_eq_deadline hstays] at hdue
  exact hcomes instant outcome hdue

/-! ### The first event decides -/

/-- The wait after some moves, the pipeline having ended as told: the end of the pipeline and the
deadline decide it, and nothing else does. -/
structure FirstDecides (deadline : Option Instant) (ending : Option (Instant × Ending)) (r : Race) :
    Prop where
  /-- The wait ended with what was due, at the instant at which it was due. -/
  outcome_due : ∀ {instant outcome}, r.waiter = .ended instant outcome →
    (∀ t e, ending = some (t, e) → deadline ≠ some t) →
    due deadline ending = some (instant, outcome)
  /-- It ends no later: the clock does not pass what is due, and then a look is all it takes. -/
  not_later : ∀ {instant outcome}, r.waiter = .waiting →
    due deadline ending = some (instant, outcome) → r.now ≤ instant ∧
      (r.now = instant → ∃ s found, r.step .look = some s ∧ s.waiter = .ended instant found)
  /-- The wait comes to its end as soon as there is a deadline or the pipeline has ended. -/
  can_end : r.waiter = .waiting → (due deadline ending).isSome →
    ∃ s instant outcome, Leads r s ∧ s.waiter = .ended instant outcome
  /-- There is one outcome: whatever happens later, it stays. -/
  final : ∀ {instant outcome later s}, r.waiter = .ended instant outcome →
    r.run later = some s → s.waiter = .ended instant outcome
  /-- An answer that is there when someone looks is the outcome, the deadline passed or not. -/
  slot_first : ∀ {answer}, r.waiter = .waiting → r.slot = .filled answer →
    r.step .look = some (r.finish (.ended r.now (.ofAnswer answer)))
  /-- What the pipeline does is no end of the wait. -/
  task_frame : ∀ {followsEnd s}, r.step (.task followsEnd) = some s →
    s.waiter = r.waiter ∧ s.deadline = r.deadline
  /-- A look finds the same whether or not the scope is cancelled. -/
  cancel_ignored : ({ r with scope := r.scope.cancel } : Race).step .look = r.step .look

/-- At the instant at which the wait is due to end there is something to notice. -/
theorem Agrees.noticed_of_due {deadline : Option Instant} {ending : Option (Instant × Ending)}
    (h : Agrees deadline ending r) (hw : r.waiter = .waiting) {outcome : Outcome}
    (hdue : due deadline ending = some (r.now, outcome)) : r.noticed? ≠ none := by
  intro hnone
  obtain ⟨rfl, hearly⟩ := h.of_noticed_eq_none hw hnone
  obtain ⟨d, hd, heq⟩ := Option.map_eq_some_iff.1 hdue
  cases heq
  exact Nat.lt_irrefl _ (hearly _ hd)

/-- Whatever agrees with the end of its pipeline is decided by it and by the deadline. -/
theorem Agrees.firstDecides {deadline : Option Instant} {ending : Option (Instant × Ending)}
    (h : Agrees deadline ending r) : FirstDecides deadline ending r where
  outcome_due hw untied := (h.settled hw).2.eq_due untied
  not_later hw hdue := by
    refine ⟨h.now_le_due hw hdue, ?_⟩
    intro hnow
    subst hnow
    obtain ⟨found, hfound⟩ := Option.ne_none_iff_exists'.1 (h.noticed_of_due hw hdue)
    exact ⟨_, found, step_look_of_noticed hw hfound, rfl⟩
  can_end hw hdue := by
    cases hd : deadline with
    | some d => exact exists_ended hw (h.deadline_eq.trans hd)
    | none =>
        cases hend : ending with
        | none => simp [due, hd, hend] at hdue
        | some last =>
            have hfull : r.slot = slotOf last.2 := by rw [h.slot_eq hw, hend]; rfl
            obtain ⟨s, hlead, hs⟩ := leads_of_noticed hw (noticed?_of_slotOf hfull)
            exact ⟨s, _, _, hlead, hs⟩
  final hw hrun := by rw [waiter_of_run hrun (by rw [hw]; intro h; cases h), hw]
  slot_first hw hslot := by simp [Race.step, stepWaiter, hw, hslot]
  task_frame hstep := (Race.task_frame hstep).2
  cancel_ignored := rfl

/-- For every timeout and every pipeline the wait ends with the pipeline's answer or breakdown if
that comes before the deadline, and at the deadline otherwise; a timeout of zero is no deadline.
This is so in every run, and it is how the invocation concludes. -/
theorem wait_ends_with_first_event (start timeoutMs : Nat) (program : Program) :
    let inv := Invocation.underTimeout start timeoutMs program
    let deadline : Option Instant :=
      if timeoutMs = 0 then none else some (roundUp (start + timeoutMs * millisecond))
    (∀ d, deadline = some d → start + timeoutMs * millisecond ≤ d ∧
      d < start + timeoutMs * millisecond + millisecond ∧
      (millisecond ∣ start → d = start + timeoutMs * millisecond)) ∧
    inv.conclusion = (match due deadline inv.trace.ending with
      | some (instant, outcome) => .ended instant outcome
      | none => .unending) ∧
    (∀ instant outcome, inv.conclusion = .ended instant outcome →
      ∃ r, Leads (.ofInvocation inv) r ∧ r.waiter = .ended instant outcome) ∧
    ∀ moves r, (ofInvocation inv).run moves = some r →
      FirstDecides deadline ((ofInvocation inv).endingIn moves) r ∧
      (Move.leave ∉ moves → ∀ instant, r.waiter ≠ .gone instant) := by
  intro inv deadline
  have hdeadline : inv.deadline = deadline :=
    Invocation.deadline_underTimeout start timeoutMs program
  have hstart : ∀ d, inv.deadline = some d → inv.start < d := by
    intro d hd
    have hpos : timeoutMs ≠ 0 := by
      intro hzero
      subst hzero
      rw [hdeadline, show deadline = none from if_pos rfl] at hd
      cases hd
    have hlt : 0 < timeoutMs * millisecond := Nat.mul_pos (Nat.pos_of_ne_zero hpos) (by decide)
    exact Nat.lt_of_lt_of_le (Nat.lt_add_of_pos_right hlt) (Invocation.start_le_deadline hd)
  refine ⟨?_, ?_, ?_, ?_⟩
  · intro d hd
    obtain rfl : roundUp (start + timeoutMs * millisecond) = d := by
      by_cases hzero : timeoutMs = 0
      · rw [show deadline = none from if_pos hzero] at hd
        cases hd
      · rw [show deadline = some _ from if_neg hzero] at hd
        exact Option.some.inj hd
    exact ⟨le_roundUp _, roundUp_lt _, fun hdvd =>
      roundUp_of_dvd (Nat.dvd_add hdvd (Nat.dvd_mul_left _ _))⟩
  · rw [← hdeadline]
    exact conclusion_eq_due rfl
  · intro instant outcome hended
    exact exists_run_to_conclusion rfl hstart hended
  · intro moves r hrun
    have hagrees :=
      (Agrees.ofInvocation inv fun d hd => Nat.le_of_lt (hstart d hd)).run hrun
    rw [hdeadline] at hagrees
    exact ⟨hagrees.firstDecides, fun hstay => waiter_ne_gone hrun hstay nofun⟩

/-- A pipeline that cancels its scope and then answers is waited for until it answers. -/
theorem wait_ends_with_answer_after_cancellation :
    ∃ r, (ofInvocation (.underTimeout 0 1 (.cancel (.answer (.ok none))))).run
        [.task false, .task false, .look] = some r ∧
      r.waiter = .ended 0 (.ofAnswer (.ok none)) ∧
      due (some (roundUp (0 + 1 * millisecond))) (some (0, .returned (.ok none))) =
        some (0, .ofAnswer (.ok none)) :=
  have first := (wait_ends_with_first_event 0 1 (.cancel (.answer (.ok none)))).2.2.2
    [.task false, .task false, .look] _ rfl
  ⟨_, rfl, rfl, first.1.outcome_due rfl fun _ _ he hd => by cases he; cases hd⟩

end Race

end Endpoint

end Gateway
