/-
Module: Gateway.Proofs.Fetching
Layer: Proofs
Purpose: A backend that waits for a reply.  It ends with what it makes of the reply, at the instant
  at which the reply is there, or it gives up because its scope has ended; what a step can do to it
  is said once (`Fetching.task_inv`), and holds at every moment of a race by induction on the moves.
  A reply that is there before the deadline and before the client leaves is what the wait ends with,
  in whatever order the two go on (`Punctual.of_course`); a scope that ends before the reply is
  there makes the backend give up at once (`Fetching.endingIn_of_done`).
Main exports: Backend.answer, Backend.Contact.Pending, Race.Fetching, Race.Fetching.task_inv,
  Race.Fetching.run, Race.Fetching.endingIn_of_done, Race.Punctual, Race.Punctual.of_course,
  Race.Yields, Race.yields_of_trace, Race.yields_of_run
-/
import Gateway.Proofs.Course
import Gateway.Proofs.GivingUp

namespace Gateway

/-! ### The answer to a reply -/

namespace Backend

/-- What a backend answers to a reply. -/
def answer (backend : Config.Backend) (reply : Reply) : Pipeline.Answer :=
  match read backend reply with
  | .error error => .error ⟨error, none⟩
  | .ok payload => .ok (some payload)

theorem answerOf_eq (backend : Config.Backend) (reply : Reply) :
    answerOf backend reply = .answer (answer backend reply) := by
  rw [answerOf, answer]
  cases read backend reply <;> rfl

/-- At an instant the reply to a call that was made at `start` is not there yet. -/
def Contact.Pending (start now : Instant) (contact : Contact) : Prop :=
  ∀ delay reply, contact = .replied delay reply → now < start + delay

/-- The program of a backend that waits for a reply. -/
def awaitReply (backend : Config.Backend) (delay : Nat) (reply : Reply) : Pipeline.Program :=
  .inspect fun seen => .sleepOrEnd (seen.now + delay) (answerOf backend reply) (failed .cancelled)

theorem pipeline_of_replied {network : Network} {backend : Config.Backend}
    {request : Pipeline.Request} {made : Call} {delay : Nat} {reply : Reply}
    (hcall : call backend request = .ok made) (hcontact : network made = .replied delay reply) :
    pipeline network backend request = awaitReply backend delay reply := by
  simp only [pipeline, hcall, hcontact]
  rfl

theorem pipeline_of_silent {network : Network} {backend : Config.Backend}
    {request : Pipeline.Request} {made : Call} (hcall : call backend request = .ok made)
    (hcontact : network made = .silent) :
    pipeline network backend request = .awaitEnd (failed .cancelled) := by
  simp only [pipeline, hcall, hcontact]

end Backend

namespace Endpoint.Race

open Backend (Contact answerOf failed awaitReply)
open Pipeline (Ending Program)

variable {start : Instant} {backend : Config.Backend} {contact : Contact} {r s : Race}
  {leaves : Option Instant}

/-! ### A backend at work -/

/-- The end of a backend that gives up. -/
def gaveUp : Ending := .returned (.error ⟨.cancelled, none⟩)

/-- How far a backend is that made its call at `start`. -/
inductive Fetching (start : Instant) (backend : Config.Backend) (contact : Contact) (r : Race) :
    Prop where
  | asks {delay reply} : contact = .replied delay reply → r.now = start →
      r.task = some (awaitReply backend delay reply) → Fetching start backend contact r
  | waits {delay reply} : contact = .replied delay reply → r.now ≤ start + delay →
      r.task = some (.sleepOrEnd (start + delay) (answerOf backend reply) (failed .cancelled)) →
      Fetching start backend contact r
  | hangs : contact = .silent → r.task = some (.awaitEnd (failed .cancelled)) →
      Fetching start backend contact r
  | answers {delay reply} : contact = .replied delay reply → r.now = start + delay →
      r.task = some (answerOf backend reply) → Fetching start backend contact r
  | givesUp : r.scope.isDone r.now = true → r.task = some (failed .cancelled) →
      Fetching start backend contact r
  | ended : r.task = none → Fetching start backend contact r

/-- How a backend may end at a moment of a race. -/
inductive FetchEnds (start : Instant) (backend : Config.Backend) (contact : Contact) (r : Race) :
    Ending → Prop where
  | answers {delay reply} : contact = .replied delay reply → r.now = start + delay →
      FetchEnds start backend contact r (.returned (Backend.answer backend reply))
  | givesUp : r.scope.isDone r.now = true → FetchEnds start backend contact r gaveUp

/-- A call that is made, to a server that can be reached. -/
theorem fetching_ofInvocation {inv : Invocation} {network : Backend.Network}
    {request : Pipeline.Request} {made : Backend.Call}
    (hprogram : inv.program = Backend.pipeline network backend request)
    (hcall : Backend.call backend request = .ok made) (hreached : network made ≠ .unreachable) :
    Fetching inv.start backend (network made) (.ofInvocation inv) := by
  have htask : (ofInvocation inv).task = some (Backend.pipeline network backend request) :=
    congrArg some hprogram
  cases hcontact : network made with
  | unreachable => exact absurd hcontact hreached
  | silent =>
      rw [Backend.pipeline_of_silent hcall hcontact] at htask
      exact .hangs rfl htask
  | replied delay reply =>
      rw [Backend.pipeline_of_replied hcall hcontact] at htask
      exact .asks rfl rfl htask

/-- A backend ends with its answer, at the instant of the reply, or by giving up. -/
theorem Fetching.ends (h : Fetching start backend contact r) {e : Ending}
    (hending : r.ending? = some e) : FetchEnds start backend contact r e := by
  rw [ending?] at hending
  cases h with
  | asks _ _ htask | waits _ _ htask | hangs _ htask | ended htask =>
      rw [htask] at hending
      cases hending
  | answers hcontact hnow htask =>
      rw [htask, Backend.answerOf_eq] at hending
      cases hending
      exact .answers hcontact hnow
  | givesUp hdone htask =>
      rw [htask, failed] at hending
      cases hending
      exact .givesUp hdone

/-- Everything that a step of a backend can do: it is its last, or takes it further and changes
neither the scope nor the slot. -/
theorem Fetching.task_inv (h : Fetching start backend contact r) {followsEnd : Bool}
    (hstep : r.step (.task followsEnd) = some s) :
    (∃ e, r.ending? = some e ∧ s = r.endTask e) ∨
    (s.task ≠ none ∧ s.scope = r.scope ∧ s.slot = r.slot ∧ Fetching start backend contact s) := by
  cases h with
  | asks hcontact hnow htask =>
      rename_i delay reply
      rw [step, htask, Option.bind_some, awaitReply, stepTask] at hstep
      cases hstep
      have hle : r.now ≤ start + delay := hnow ▸ Nat.le_add_right start delay
      refine Or.inr ⟨Option.some_ne_none _, rfl, rfl, .waits hcontact hle ?_⟩
      rw [hnow]
  | waits hcontact hle htask =>
      rw [step, htask, Option.bind_some] at hstep
      rcases stepTask_sleepOrEnd_inv hstep with ⟨hdone, rfl⟩ | ⟨hawake, rfl⟩
      · exact Or.inr ⟨Option.some_ne_none _, rfl, rfl, .givesUp hdone rfl⟩
      · have hnow := Nat.le_antisymm hle hawake
        exact Or.inr ⟨Option.some_ne_none _, rfl, rfl, .answers hcontact hnow rfl⟩
  | hangs hcontact htask =>
      rw [step, htask, Option.bind_some, stepTask] at hstep
      split at hstep <;> cases hstep
      rename_i hdone
      exact Or.inr ⟨Option.some_ne_none _, rfl, rfl, .givesUp hdone rfl⟩
  | answers hcontact hnow htask =>
      rename_i delay reply
      have hlast : r.ending? = some (.returned (Backend.answer backend reply)) := by
        rw [ending?, htask, Backend.answerOf_eq]
      exact Or.inl ⟨_, hlast, eq_endTask_of_step hlast hstep⟩
  | givesUp hdone htask =>
      have hlast : r.ending? = some gaveUp := by rw [ending?, htask]; rfl
      exact Or.inl ⟨_, hlast, eq_endTask_of_step hlast hstep⟩
  | ended htask =>
      rw [step, htask] at hstep
      cases hstep

/-- The clock does not move before the backend has done what it can: it waits for a reply that is
not there, in a scope that has not ended, or it is over. -/
theorem Fetching.tick_inv (h : Fetching start backend contact r) (hstep : r.step .tick = some s) :
    Fetching start backend contact s ∧
    (r.task = none ∨ (contact.Pending start r.now ∧ r.scope.isDone r.now = false)) := by
  have hrests := rests_of_tick hstep
  obtain ⟨rfl, _⟩ := Race.tick_inv hstep
  cases h with
  | asks _ _ htask => simp [Rests, htask, awaitReply, stepTask] at hrests
  | waits hcontact hle htask =>
      rename_i delay reply
      rw [Rests, htask, Option.bind_some] at hrests
      have hdone : r.scope.isDone r.now = false := by
        rw [← Bool.not_eq_true]
        intro hdone
        by_cases hawake : start + delay ≤ r.now <;> simp [stepTask, hdone, hawake] at hrests
      have hasleep : r.now < start + delay := by
        apply Nat.lt_of_not_le
        intro hawake
        rw [stepTask_sleepOrEnd_of_awake hdone hawake] at hrests
        cases hrests
      refine ⟨.waits hcontact hasleep htask, Or.inr ⟨?_, hdone⟩⟩
      intro _ _ heq
      rw [hcontact] at heq
      cases heq
      exact hasleep
  | hangs hcontact htask =>
      rw [Rests, htask, Option.bind_some, stepTask] at hrests
      refine ⟨.hangs hcontact htask, Or.inr ⟨?_, ?_⟩⟩
      · intro delay reply heq
        rw [hcontact] at heq
        cases heq
      · rw [← Bool.not_eq_true]
        intro hdone
        rw [if_pos hdone] at hrests
        cases hrests
  | answers _ _ htask =>
      rw [Backend.answerOf_eq] at htask
      cases hw : r.waiter <;> simp [Rests, htask, stepTask, hw] at hrests
  | givesUp _ htask => cases hw : r.waiter <;> simp [Rests, htask, failed, stepTask, hw] at hrests
  | ended htask => exact ⟨.ended htask, Or.inl htask⟩

/-- The end of the wait leaves the backend where it is, with a scope that is cancelled. -/
theorem Fetching.finish (h : Fetching start backend contact r) (w : Waiter) :
    Fetching start backend contact (r.finish w) := by
  cases h with
  | asks hcontact hnow htask => exact .asks hcontact hnow htask
  | waits hcontact hle htask => exact .waits hcontact hle htask
  | hangs hcontact htask => exact .hangs hcontact htask
  | answers hcontact hnow htask => exact .answers hcontact hnow htask
  | givesUp _ htask => exact .givesUp rfl htask
  | ended htask => exact .ended htask

theorem Fetching.step (h : Fetching start backend contact r) {move : Move}
    (hstep : r.step move = some s) : Fetching start backend contact s := by
  cases move with
  | task followsEnd =>
      rcases h.task_inv hstep with ⟨e, _, rfl⟩ | ⟨_, _, _, hs⟩
      · exact .ended (endTask_task r e)
      · exact hs
  | look =>
      obtain ⟨_, _, _, rfl⟩ := look_inv hstep
      exact h.finish _
  | leave =>
      obtain ⟨_, rfl⟩ := leave_inv hstep
      exact h.finish _
  | tick => exact (h.tick_inv hstep).1

theorem Fetching.run (h : Fetching start backend contact r) {moves : List Move}
    (hrun : r.run moves = some s) : Fetching start backend contact s := by
  induction moves generalizing r with
  | nil => cases hrun; exact h
  | cons move moves ih =>
      obtain ⟨t, hstep, hrest⟩ := Option.bind_eq_some_iff.1 hrun
      exact ih (h.step hstep) hrest

/-! ### After the end of the scope -/

/-- A backend whose scope has ended before the reply is there gives up before the clock moves on,
and comes to no other end. -/
theorem Fetching.endingIn_of_done (h : Fetching start backend contact r)
    (hdone : r.scope.isDone r.now = true) (hpending : contact.Pending start r.now)
    {moves : List Move} {t : Instant} {e : Ending} (hending : r.endingIn moves = some (t, e)) :
    t = r.now ∧ e = gaveUp := by
  induction moves generalizing r with
  | nil => cases hending
  | cons move moves ih =>
      rcases endingIn_cons_inv hending with ⟨hlast, rfl⟩ | ⟨s, hstep, hlater⟩
      · cases h.ends hlast with
        | answers hcontact hnow =>
            exact absurd (hpending _ _ hcontact) (by rw [hnow]; exact Nat.lt_irrefl _)
        | givesUp _ => exact ⟨rfl, rfl⟩
      · have hnext := h.step hstep
        cases move with
        | task followsEnd =>
            obtain ⟨hnow, _, _⟩ := task_frame hstep
            have hscope : s.scope = r.scope := by
              rcases h.task_inv hstep with ⟨e, _, rfl⟩ | ⟨_, hscope, _⟩
              · exact endTask_scope r e
              · exact hscope
            rw [← hnow]
            apply ih hnext
            · rw [hscope, hnow]
              exact hdone
            · rw [hnow]
              exact hpending
            · exact hlater
        | look =>
            obtain ⟨_, _, _, rfl⟩ := look_inv hstep
            exact ih (r := r.finish _) hnext rfl hpending hlater
        | leave =>
            obtain ⟨_, rfl⟩ := leave_inv hstep
            exact ih (r := r.finish _) hnext rfl hpending hlater
        | tick =>
            -- Until the backend is over it has a step to take, which holds up the clock.
            rcases (h.tick_inv hstep).2 with hover | ⟨_, hnot⟩
            · rw [endingIn_of_task_eq_none (task_eq_none_of_step hover hstep)] at hlater
              cases hlater
            · rw [hdone] at hnot
              cases hnot

/-! ### A reply that is there in time -/

section Punctual

variable {deadline : Option Instant} {delay : Nat} {reply : Backend.Reply}

/-- What holds at every moment of a race whose reply is there before the deadline. -/
inductive Punctual (start : Instant) (backend : Config.Backend) (delay : Nat)
    (reply : Backend.Reply) (deadline : Option Instant) (r : Race) : Prop where
  /-- The backend is at work, and someone waits. -/
  | waiting : r.waiter = .waiting → r.scope.cancelled = false → r.deadline = deadline →
      r.now ≤ start + delay → Fetching start backend (.replied delay reply) r → r.slot = .empty →
      r.task ≠ none → Punctual start backend delay reply deadline r
  /-- The backend answered just now, and someone waits. -/
  | answered : r.waiter = .waiting → r.now = start + delay → r.task = none →
      r.slot = .filled (Backend.answer backend reply) →
      Punctual start backend delay reply deadline r
  | ended : r.waiter = .ended (start + delay) (.ofAnswer (Backend.answer backend reply)) →
      Punctual start backend delay reply deadline r

/-- Until the reply is there the deadline is ahead. -/
theorem lt_deadline_of_le (hdeadline : ∀ d, deadline = some d → start + delay < d)
    (hd : r.deadline = deadline) (hle : r.now ≤ start + delay) : ∀ d, r.deadline = some d →
    r.now < d := by
  intro d heq
  rw [hd] at heq
  exact Nat.lt_of_le_of_lt hle (hdeadline d heq)

/-- A step of a backend whose scope has not ended takes it to its answer. -/
theorem Fetching.punctual_of_task (h : Fetching start backend (.replied delay reply) r)
    (hw : r.waiter = .waiting) (hcancelled : r.scope.cancelled = false)
    (hd : r.deadline = deadline) (hle : r.now ≤ start + delay) (hslot : r.slot = .empty)
    (hnot : r.scope.isDone r.now = false) {followsEnd : Bool}
    (hstep : r.step (.task followsEnd) = some s) :
    Punctual start backend delay reply deadline s := by
  obtain ⟨hnow, hwaiter, hdead⟩ := task_frame hstep
  rcases h.task_inv hstep with ⟨e, hlast, rfl⟩ | ⟨hmore, hscope, hslot', hnext⟩
  · cases h.ends hlast with
    | answers hcontact hat =>
        cases hcontact
        exact .answered (hwaiter.trans hw) (hnow.trans hat) (endTask_task r _) (endTask_slot hw _)
    | givesUp hdone =>
        rw [hnot] at hdone
        cases hdone
  · exact .waiting (hwaiter.trans hw) (hscope ▸ hcancelled) (hdead.trans hd) (hnow ▸ hle) hnext
      (hslot'.trans hslot) hmore

/-- An answer that is in the slot ends the wait before the clock moves on or the client leaves. -/
theorem punctual_of_answered (hw : r.waiter = .waiting) (hnow : r.now = start + delay)
    (htask : r.task = none) (hslot : r.slot = .filled (Backend.answer backend reply))
    (hleaves : ∀ l, leaves = some l → start + delay < l) {move : Move}
    (hpermits : r.permits leaves move = true) (hstep : r.step move = some s) :
    Punctual start backend delay reply deadline s := by
  have hnoticed : r.noticed? = some (.ofAnswer (Backend.answer backend reply)) := by
    rw [noticed?, hslot]
  cases move with
  | task followsEnd =>
      rw [step, htask] at hstep
      cases hstep
  | look =>
      rw [step_look_of_noticed hw hnoticed] at hstep
      cases hstep
      exact .ended (by rw [finish, hnow])
  | leave =>
      have hleave : leaves = some r.now := by simpa [permits] using hpermits
      exact absurd (hleaves _ hleave) (by rw [hnow]; exact Nat.lt_irrefl _)
  | tick =>
      have hquiet := (tick_inv hstep).2 hw
      rw [hnoticed] at hquiet
      cases hquiet

theorem Punctual.step (h : Punctual start backend delay reply deadline r)
    (hdeadline : ∀ d, deadline = some d → start + delay < d)
    (hleaves : ∀ l, leaves = some l → start + delay < l) {move : Move}
    (hpermits : r.permits leaves move = true) (hstep : r.step move = some s) :
    Punctual start backend delay reply deadline s := by
  cases h with
  | waiting hw hcancelled hd hle hfetching hslot htask =>
      have hearly := lt_deadline_of_le hdeadline hd hle
      cases move with
      | task followsEnd =>
          have hnot : r.scope.isDone r.now = false := isDone_eq_false hcancelled hearly
          exact hfetching.punctual_of_task hw hcancelled hd hle hslot hnot hstep
      | look =>
          -- With an empty slot only the deadline could be noticed, and it is still ahead.
          obtain ⟨_, outcome, hn, _⟩ := look_inv hstep
          rw [noticed?_of_empty hslot] at hn
          split at hn
          · rename_i hexpired
            obtain ⟨d, hd', hpast⟩ := expired_iff.1 hexpired
            exact absurd (hearly d hd') (Nat.not_lt.2 hpast)
          · cases hn
      | leave =>
          have hleave : leaves = some r.now := by simpa [permits] using hpermits
          exact absurd (hleaves _ hleave) (Nat.not_lt.2 hle)
      | tick =>
          obtain ⟨hnext, hover | ⟨hpending, _⟩⟩ := hfetching.tick_inv hstep
          · exact absurd hover htask
          · obtain ⟨rfl, _⟩ := tick_inv hstep
            exact .waiting hw hcancelled hd (hpending _ _ rfl) hnext hslot htask
  | answered hw hnow htask hslot =>
      exact punctual_of_answered hw hnow htask hslot hleaves hpermits hstep
  | ended hended =>
      refine .ended ((waiter_of_step hstep ?_).trans hended)
      rw [hended]
      intro hw
      cases hw

theorem Punctual.of_course (h : Punctual start backend delay reply deadline r)
    (hdeadline : ∀ d, deadline = some d → start + delay < d)
    (hleaves : ∀ l, leaves = some l → start + delay < l) {moves : List Move}
    (hcourse : r.course leaves moves = some s) :
    Punctual start backend delay reply deadline s := by
  induction moves generalizing r with
  | nil => cases hcourse; exact h
  | cons move moves ih =>
      obtain ⟨hpermits, t, hstep, hrest⟩ := course_cons hcourse
      exact ih (h.step hdeadline hleaves hpermits hstep) hrest

/-- A wait that is over was ended by the reply. -/
theorem Punctual.conclusion_eq (h : Punctual start backend delay reply deadline r)
    {conclusion : Conclusion} (hover : r.waiter.conclusion? = some conclusion) :
    conclusion = .ended (start + delay) (.ofAnswer (Backend.answer backend reply)) := by
  cases h with
  | waiting hw | answered hw =>
      rw [hw] at hover
      cases hover
  | ended hended =>
      rw [hended] at hover
      exact (Option.some.inj hover).symm

end Punctual

/-! ### The trace of a backend -/

section Trace

variable {stop : Option Instant} {now : Instant} {scope : Scope} {network : Backend.Network}
  {request : Pipeline.Request} {made : Backend.Call}

/-- A reply that is there before the scope ends is answered. -/
theorem trace_of_punctual {delay : Nat} {reply : Backend.Reply}
    (hcall : Backend.call backend request = .ok made)
    (hcontact : network made = .replied delay reply)
    (hearly : ∀ t, Pipeline.endOf stop now scope = some t → now + delay < t) :
    (Program.trace stop (Backend.pipeline network backend request) now scope).ending =
      some (now + delay, .returned (Backend.answer backend reply)) := by
  have hwake : max now (now + delay) = now + delay := Nat.max_eq_right (Nat.le_add_right _ _)
  rw [Backend.pipeline_of_replied hcall hcontact, awaitReply, Backend.answerOf_eq]
  simp only [Program.trace, hwake]
  cases hend : Pipeline.endOf stop now scope with
  | none => rfl
  | some t => simp only [if_neg (Nat.not_le.2 (hearly t hend))]

/-- A backend whose scope ends before the reply is there gives up at that instant. -/
theorem trace_of_overtaken {t : Instant} (hcall : Backend.call backend request = .ok made)
    (hreached : network made ≠ .unreachable) (hend : Pipeline.endOf stop now scope = some t)
    (hpending : (network made).Pending now t) :
    (Program.trace stop (Backend.pipeline network backend request) now scope).ending =
      some (t, gaveUp) := by
  cases hcontact : network made with
  | unreachable => exact absurd hcontact hreached
  | silent =>
      rw [Backend.pipeline_of_silent hcall hcontact]
      simp only [Program.trace, hend]
      rfl
  | replied delay reply =>
      have hle : t ≤ max now (now + delay) :=
        Nat.le_trans (Nat.le_of_lt (hpending delay reply hcontact)) (Nat.le_max_right _ _)
      rw [Backend.pipeline_of_replied hcall hcontact, awaitReply]
      simp only [Program.trace, hend, if_pos hle]
      rfl

end Trace

/-- A scope that nobody has cancelled does not end before its caller stops waiting. -/
theorem lt_of_endOf {inv : Invocation} {t : Instant} (hcancelled : inv.scope.cancelled = false)
    (hstart : inv.start ≤ t) (hstop : ∀ u, inv.stop = some u → t < u) :
    ∀ u, Pipeline.endOf inv.stop inv.start inv.scope = some u → t < u := by
  have hsooner : ∀ u, Pipeline.sooner inv.stop inv.deadline = some u → t < u := by
    intro u hu
    rcases Pipeline.mem_of_sooner hu with hs | hd
    · exact hstop u hs
    · exact (Invocation.lt_stop_iff.1 hstop).1 u hd
  intro u hu
  cases hdone : (Pipeline.scopeAt inv.stop inv.start inv.scope).isDone inv.start with
  | false =>
      rw [(endOf_of_not_done hdone).1] at hu
      exact hsooner u hu
  | true =>
      rcases (isDone_scopeAt_iff inv.stop inv.start inv.scope).1 hdone with hc | ⟨v, hv, hle⟩
      · rw [hcancelled] at hc
        cases hc
      · exact absurd (hsooner v hv) (Nat.not_lt.2 (Nat.le_trans hle hstart))

/-! ### The ends that a program may come to -/

/-- A program may come to an end. -/
inductive Yields : Program → Ending → Prop where
  | answer {given} : Yields (.answer given) (.returned given)
  | crash : Yields .crash .crashed
  | further {program next e} : Continues program next → Yields next e → Yields program e

theorem yields_of_trace {program : Program} {stop : Option Instant} {now t : Instant}
    {scope : Scope} {e : Ending} (h : (program.trace stop now scope).ending = some (t, e)) :
    Yields program e := by
  induction program generalizing now scope with
  | answer given => cases h; exact .answer
  | crash => cases h; exact .crash
  | stall => cases h
  | note label next ih => exact .further .note (ih h)
  | cancel next ih => exact .further .cancel (ih h)
  | sleepUntil instant next ih => exact .further .sleepUntil (ih h)
  | awaitEnd next ih =>
      rw [Program.trace] at h
      split at h
      · exact .further .awaitEnd (ih h)
      · cases h
  | sleepOrEnd instant slept ended ihSlept ihEnded =>
      simp only [Program.trace] at h
      split at h
      · split at h
        · exact .further .ended (ihEnded h)
        · exact .further .slept (ihSlept h)
      · exact .further .slept (ihSlept h)
  | inspect next ih => exact .further .inspect (ih _ h)

theorem yields_of_run {program : Program} (htask : r.task = some program) {moves : List Move}
    {t : Instant} {e : Ending} (h : r.endingIn moves = some (t, e)) : Yields program e := by
  induction moves generalizing r program with
  | nil => cases h
  | cons move moves ih =>
      rcases endingIn_cons_inv h with ⟨hlast, _⟩ | ⟨s, hstep, hlater⟩
      · rw [ending?, htask] at hlast
        cases program with
        | answer given => cases hlast; exact .answer
        | crash => cases hlast; exact .crash
        | _ => cases hlast
      · cases move with
        | task followsEnd =>
            rcases task_inv hstep with ⟨last, _, rfl⟩ | ⟨_, current, next, _, hcurrent, hcont, hs⟩
            · rw [endingIn_of_task_eq_none (endTask_task r last)] at hlater
              cases hlater
            · rw [htask] at hcurrent
              cases hcurrent
              have hnext : s.task = some next := by rw [hs]
              exact .further hcont (ih hnext hlater)
        | look | leave | tick => exact ih ((task_of_step hstep (by simp)).trans htask) hlater

end Endpoint.Race

end Gateway
