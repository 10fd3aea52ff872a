/-
Module: Gateway.Proofs.GivingUp
Layer: Proofs
Purpose: A backend and the one who waits for it are woken by one deadline.  If the reply to the call
  is not there by then, the order in which the two go on decides the response: the one who waits
  reports a timeout if it is first, and if the backend is first it finds that the backend gave up.
  `Unanswered` holds at every moment of such a race (`Unanswered.run`).
Main exports: Backend.Contact.Late, Race.GivingUp, Race.Unanswered, Handler.RendersTimeout,
  Handler.RendersGivingUp, Race.unanswered_call_rendering
-/
import Gateway.Backend
import Gateway.Endpoint.Handler
import Gateway.Proofs.Waiting

namespace Gateway

/-- A call that is made at `start` has not been replied to when the deadline passes. -/
inductive Backend.Contact.Late (start deadline : Instant) : Backend.Contact → Prop where
  | silent : Late start deadline .silent
  | replied {delay reply} : deadline < roundUp (start + delay) →
      Late start deadline (.replied delay reply)

namespace Endpoint.Race

open Pipeline (Ending Program)
open Backend (failed answerOf)

variable {start deadline : Instant} {ending : Option (Instant × Ending)} {r s : Race}

/-! ### A backend that gives up -/

/-- A program that sleeps past the deadline unless its scope ends, and then gives up. -/
inductive Asleep (deadline : Instant) : Program → Prop where
  | sleeps {wake slept} : deadline < wake →
      Asleep deadline (.sleepOrEnd wake slept (failed .cancelled))
  | waits : Asleep deadline (.awaitEnd (failed .cancelled))

/-- How far a backend is whose call is not replied to in time, while someone waits for it. -/
inductive GivingUp (start deadline : Instant) (r : Race) : Prop where
  | asks {delay backend reply} : r.now = start → deadline < start + delay →
      r.task = some (.inspect fun seen =>
        .sleepOrEnd (seen.now + delay) (answerOf backend reply) (failed .cancelled)) →
      GivingUp start deadline r
  | sleeps {program} : Asleep deadline program → r.task = some program → GivingUp start deadline r
  | wakes : deadline ≤ r.now → r.task = some (failed .cancelled) → GivingUp start deadline r
  | gaveUp : deadline ≤ r.now → r.task = none → r.slot = .filled (.error ⟨.cancelled, none⟩) →
      GivingUp start deadline r

/-- While someone waits the scope is not cancelled, and the backend at most gives up. -/
structure Unanswered (start deadline : Instant) (r : Race) : Prop where
  cancelled_eq : r.waiter = .waiting → r.scope.cancelled = false
  givingUp : r.waiter = .waiting → GivingUp start deadline r

/-- A scope that nobody cancelled ends with its deadline. -/
theorem le_of_isDone (hcancelled : r.scope.cancelled = false) (hd : r.deadline = some deadline)
    (hdone : r.scope.isDone r.now = true) : deadline ≤ r.now := by
  rw [Scope.isDone, hcancelled, Bool.false_or] at hdone
  obtain ⟨d, hd', hle⟩ := expired_iff.1 hdone
  rw [hd] at hd'
  cases hd'
  exact hle

theorem stepTask_sleepOrEnd_inv {followsEnd : Bool} {wake : Instant} {slept ended : Program}
    (h : r.stepTask followsEnd (.sleepOrEnd wake slept ended) = some s) :
    (r.scope.isDone r.now = true ∧ s = { r with task := some ended }) ∨
    (wake ≤ r.now ∧ s = { r with task := some slept }) := by
  simp only [stepTask] at h
  split at h
  · rename_i hdone
    cases h
    exact Or.inl ⟨(Bool.and_eq_true_iff.1 hdone).1, rfl⟩
  · split at h
    · rename_i hawake
      cases h
      exact Or.inr ⟨of_decide_eq_true hawake, rfl⟩
    · cases h

/-- A program that sleeps past the deadline goes on only by giving up, and not before that. -/
theorem Asleep.step_inv {program : Program} (h : Asleep deadline program)
    (htask : r.task = some program) {followsEnd : Bool} (hcancelled : r.scope.cancelled = false)
    (hd : r.deadline = some deadline) (hearly : r.now ≤ deadline)
    (hstep : r.step (.task followsEnd) = some s) :
    deadline ≤ r.now ∧ s = { r with task := some (failed .cancelled) } := by
  rw [step, htask, Option.bind_some] at hstep
  cases h with
  | sleeps hlate =>
      rcases stepTask_sleepOrEnd_inv hstep with ⟨hdone, rfl⟩ | ⟨hawake, _⟩
      · exact ⟨le_of_isDone hcancelled hd hdone, rfl⟩
      · exact absurd (Nat.le_trans hawake hearly) (Nat.not_le.2 hlate)
  | waits =>
      simp only [stepTask] at hstep
      split at hstep <;> cases hstep
      rename_i hdone
      exact ⟨le_of_isDone hcancelled hd hdone, rfl⟩

/-- A step of a backend that is giving up takes it further on that way. -/
theorem GivingUp.task (h : GivingUp start deadline r) {followsEnd : Bool}
    (hw : r.waiter = .waiting) (hcancelled : r.scope.cancelled = false)
    (hd : r.deadline = some deadline) (hearly : r.now ≤ deadline)
    (hstep : r.step (.task followsEnd) = some s) :
    s.scope = r.scope ∧ GivingUp start deadline s := by
  cases h with
  | asks hnow hlate htask =>
      rw [step, htask, Option.bind_some, stepTask] at hstep
      cases hstep
      refine ⟨rfl, .sleeps (.sleeps ?_) rfl⟩
      rw [hnow]
      exact hlate
  | sleeps hasleep htask =>
      obtain ⟨hle, rfl⟩ := hasleep.step_inv htask hcancelled hd hearly hstep
      exact ⟨rfl, .wakes hle rfl⟩
  | wakes hle htask =>
      simp only [step, htask, Option.bind_some, failed, stepTask, hw] at hstep
      cases hstep
      exact ⟨rfl, .gaveUp hle rfl rfl⟩
  | gaveUp _ htask _ =>
      rw [step, htask] at hstep
      cases hstep

/-- A backend that has yet to make its call does so before time passes. -/
theorem GivingUp.tick (h : GivingUp start deadline r) (hstep : r.step .tick = some s) :
    GivingUp start deadline s := by
  have hbusy : r.isBusy = false := by
    simp only [step] at hstep
    split at hstep
    · cases hstep
    · rename_i hbusy
      exact Bool.not_eq_true _ ▸ hbusy
  obtain ⟨rfl, _⟩ := tick_inv hstep
  cases h with
  | asks _ _ htask => simp [isBusy, htask, stepTask] at hbusy
  | sleeps hasleep htask => exact .sleeps hasleep htask
  | wakes hle htask => exact .wakes (Nat.le_succ_of_le hle) htask
  | gaveUp hle htask hslot => exact .gaveUp (Nat.le_succ_of_le hle) htask hslot

theorem Unanswered.step (h : Unanswered start deadline r)
    (hagrees : Agrees (some deadline) ending r) {move : Move} (hstep : r.step move = some s) :
    Unanswered start deadline s := by
  cases move with
  | task followsEnd =>
      obtain ⟨_, hwaiter, _⟩ := task_frame hstep
      have further : s.waiter = .waiting → s.scope = r.scope ∧ GivingUp start deadline s := by
        intro hw
        rw [hwaiter] at hw
        exact (h.givingUp hw).task hw (h.cancelled_eq hw) hagrees.deadline_eq
          (hagrees.early hw rfl) hstep
      constructor
      · intro hw
        rw [(further hw).1]
        exact h.cancelled_eq (hwaiter ▸ hw)
      · intro hw
        exact (further hw).2
  | look =>
      obtain ⟨_, _, _, rfl⟩ := look_inv hstep
      exact ⟨nofun, nofun⟩
  | leave =>
      obtain ⟨_, rfl⟩ := leave_inv hstep
      exact ⟨nofun, nofun⟩
  | tick =>
      obtain ⟨hs, _⟩ := tick_inv hstep
      have hwaiter : s.waiter = r.waiter := by rw [hs]
      have hscope : s.scope = r.scope := by rw [hs]
      constructor
      · intro hw
        rw [hscope]
        exact h.cancelled_eq (hwaiter ▸ hw)
      · intro hw
        exact (h.givingUp (hwaiter ▸ hw)).tick hstep

theorem Unanswered.run (h : Unanswered start deadline r)
    (hagrees : Agrees (some deadline) ending r) {moves : List Move}
    (hrun : r.run moves = some s) : Unanswered start deadline s := by
  induction moves generalizing r ending with
  | nil => cases hrun; exact h
  | cons move moves ih =>
      obtain ⟨t, hstep, hrest⟩ := Option.bind_eq_some_iff.1 hrun
      exact ih (h.step hagrees hstep) (hagrees.step hstep) hrest

/-- The wait for a backend that is not replied to ends at the deadline: with a timeout if the
backend is still at work, and with its giving up if it is not. -/
theorem Unanswered.look (h : Unanswered start deadline r)
    (hagrees : Agrees (some deadline) ending r) (hstep : r.step .look = some s) :
    (r.task.isSome ∧ s.waiter = .ended deadline .timeout) ∨
    (r.task = none ∧ s.waiter = .ended deadline (.failed .cancelled)) := by
  obtain ⟨hw, outcome, hn, rfl⟩ := look_inv hstep
  have hearly : r.now ≤ deadline := hagrees.early hw rfl
  cases htask : r.task with
  | some program =>
      have hending : ending = none := by
        have hnone : ¬ r.task = none := by simp [htask]
        simpa [hagrees.task_eq_none] using hnone
      have hempty : r.slot = .empty := by rw [hagrees.slot_eq hw, hending]; rfl
      rw [noticed?_of_empty hempty] at hn
      split at hn <;> cases hn
      rename_i hexp
      obtain ⟨d, hd, hle⟩ := expired_iff.1 hexp
      rw [hagrees.deadline_eq] at hd
      cases hd
      rw [Nat.le_antisymm hearly hle]
      exact Or.inl ⟨rfl, rfl⟩
  | none =>
      cases h.givingUp hw with
      | gaveUp hle _ hslot =>
          simp only [noticed?, hslot] at hn
          cases hn
          rw [Nat.le_antisymm hearly hle]
          exact Or.inr ⟨rfl, rfl⟩
      | asks _ _ hsome | sleeps _ hsome | wakes _ hsome =>
          rw [htask] at hsome
          cases hsome

/-! ### Both orders -/

/-- Moves lead to a look that ends the wait. -/
def LooksAt (r : Race) (instant : Instant) (outcome : Outcome) : Prop :=
  ∃ s t, Leads r s ∧ s.step .look = some t ∧ t.waiter = .ended instant outcome

theorem LooksAt.of_leads {instant : Instant} {outcome : Outcome} (h : Leads r s)
    (hs : s.LooksAt instant outcome) : r.LooksAt instant outcome := by
  obtain ⟨t, u, hlead, hlook, hu⟩ := hs
  exact ⟨t, u, h.trans hlead, hlook, hu⟩

theorem LooksAt.of_noticed {outcome : Outcome} (hw : r.waiter = .waiting)
    (hn : r.noticed? = some outcome) : r.LooksAt r.now outcome := by
  exact ⟨r, _, .refl r, step_look_of_noticed hw hn, rfl⟩

/-- Before the deadline a program that sleeps past it rests. -/
theorem Asleep.rests {program : Program} (h : Asleep deadline program)
    (htask : r.task = some program) (hcancelled : r.scope.cancelled = false)
    (hd : r.deadline = some deadline) (hlt : r.now < deadline) : r.Rests := by
  have hdone : r.scope.isDone r.now = false :=
    isDone_eq_false hcancelled (forall_of_eq_some hd hlt)
  rw [Rests, htask, Option.bind_some]
  cases h with
  | sleeps hlate => exact stepTask_sleepOrEnd_eq_none hdone (Nat.lt_trans hlt hlate)
  | waits => rw [stepTask, if_neg (by simp [hdone])]

/-- Once its scope has ended a program that sleeps can give up. -/
theorem Asleep.step {program : Program} (h : Asleep deadline program)
    (htask : r.task = some program) (hdone : r.scope.isDone r.now = true) :
    r.step (.task true) = some { r with task := some (failed .cancelled) } := by
  rw [Race.step, htask, Option.bind_some]
  cases h with
  | sleeps _ => exact stepTask_sleepOrEnd_of_done hdone
  | waits => rw [stepTask, if_pos hdone]

/-- At the deadline either of the two may be first. -/
theorem Asleep.both_orders {program : Program} (h : Asleep deadline program)
    (htask : r.task = some program) (hw : r.waiter = .waiting) (hslot : r.slot = .empty)
    (hcancelled : r.scope.cancelled = false) (hd : r.deadline = some deadline)
    (hle : r.now ≤ deadline) :
    r.LooksAt deadline .timeout ∧ r.LooksAt deadline (.failed .cancelled) := by
  have hlead : Leads r { r with now := deadline } := by
    apply leads_later hle hslot (forall_of_eq_some hd (Nat.le_refl deadline))
    intro u _ hlt
    exact h.rests (r := { r with now := u }) htask hcancelled hd hlt
  have hexp : r.scope.expired deadline = true :=
    (any_le_iff roundUp r.scope.deadline deadline).2 ⟨deadline, hd, Nat.le_refl deadline⟩
  constructor
  · have hn : ({ r with now := deadline } : Race).noticed? = some .timeout := by
      simp [noticed?, hslot, hexp]
    exact .of_leads hlead (.of_noticed (r := { r with now := deadline }) hw hn)
  · have hwake := h.step (r := { r with now := deadline }) htask
      (by rw [Scope.isDone, hexp, Bool.or_true])
    have hanswer : Race.step { r with now := deadline, task := some (failed .cancelled) }
        (.task true) = some { r with
          now := deadline, task := none, slot := .filled (.error ⟨.cancelled, none⟩) } := by
      simp only [Race.step, Option.bind_some, failed, stepTask, hw]
    refine .of_leads (hlead.trans ((Leads.of_task hwake).trans (.of_task hanswer))) ?_
    exact .of_noticed (r := { r with
      now := deadline, task := none, slot := .filled (.error ⟨.cancelled, none⟩) }) hw rfl

/-- What is not there in the millisecond of a deadline comes after that deadline. -/
theorem roundUp_lt_of_lt_roundUp {t u : Instant} (h : roundUp t < roundUp u) : roundUp t < u := by
  apply Nat.lt_of_not_le
  intro hle
  rw [roundUp, roundUp] at h
  rw [roundUp] at hle
  have hpos : 0 < millisecond := by decide
  have hround : (u + (millisecond - 1)) / millisecond ≤ (t + (millisecond - 1)) / millisecond := by
    apply Nat.le_of_lt_succ
    rw [Nat.div_lt_iff_lt_mul hpos, Nat.succ_mul]
    omega
  exact Nat.lt_irrefl _ (Nat.lt_of_lt_of_le h (Nat.mul_le_mul_right _ hround))

/-- The race for a call that is not replied to in time. -/
theorem unanswered_ofInvocation {inv : Invocation} {network : Backend.Network}
    {backend : Config.Backend} {request : Pipeline.Request} {made : Backend.Call} {limit : Instant}
    (hprogram : inv.program = Backend.pipeline network backend request)
    (hcall : Backend.call backend request = .ok made)
    (hlate : (network made).Late inv.start (roundUp limit))
    (hcancelled : inv.scope.cancelled = false) :
    Unanswered inv.start (roundUp limit) (.ofInvocation inv) := by
  refine ⟨fun _ => hcancelled, ?_⟩
  intro _
  have htask : (ofInvocation inv).task = some (Backend.pipeline network backend request) :=
    congrArg some hprogram
  simp only [Backend.pipeline, hcall] at htask
  generalize network made = contact at hlate htask
  cases hlate with
  | silent => exact .sleeps .waits htask
  | replied hlt => exact .asks rfl (roundUp_lt_of_lt_roundUp hlt) htask

/-- A backend that has not yet given up may be overtaken by the one who waits, or overtake it. -/
theorem GivingUp.both_orders (h : GivingUp start deadline r) (hw : r.waiter = .waiting)
    (hslot : r.slot = .empty) (hcancelled : r.scope.cancelled = false)
    (hd : r.deadline = some deadline) (hlt : r.now < deadline) :
    r.LooksAt deadline .timeout ∧ r.LooksAt deadline (.failed .cancelled) := by
  cases h with
  | asks hnow hlate htask =>
      rename_i delay backend reply
      have hstep : r.step (.task false) = some { r with
          task := some
            (.sleepOrEnd (r.now + delay) (answerOf backend reply) (failed .cancelled)) } := by
        rw [step, htask, Option.bind_some, stepTask]
      have hasleep : Asleep deadline
          (.sleepOrEnd (r.now + delay) (answerOf backend reply) (failed .cancelled)) :=
        .sleeps (hnow ▸ hlate)
      have hlead := Leads.of_task hstep
      obtain ⟨hfirst, hsecond⟩ := hasleep.both_orders (r := { r with
          task := some (.sleepOrEnd (r.now + delay) (answerOf backend reply) (failed .cancelled)) })
        rfl hw hslot hcancelled hd (Nat.le_of_lt hlt)
      exact ⟨.of_leads hlead hfirst, .of_leads hlead hsecond⟩
  | sleeps hasleep htask =>
      exact hasleep.both_orders htask hw hslot hcancelled hd (Nat.le_of_lt hlt)
  | wakes hle _ | gaveUp hle _ _ => exact absurd hlt (Nat.not_lt.2 hle)

end Endpoint.Race

/-! ### The response -/

namespace Endpoint

open Http (Response)

/-- How often a handling counts a missed deadline. -/
def Handler.timeoutsIn (h : Handler) (handling : Handling) : Nat :=
  (Journal.counts (handling.journal.map (·.entry))).count (.timeouts h.endpoint.endpoint)

/-- The client is told of an internal error, with the mark of incomplete data, and a missed deadline
is counted. -/
def Handler.RendersTimeout (h : Handler) (handling : Handling) : Prop :=
  ∃ instant response, handling.reply = .answered instant response ∧ response.status = 500 ∧
    response.body = Utf8.encode "internal server error\n" ∧
    (response.headers.values completedName).map (·.bytes) = [Utf8.encode "false"] ∧
    h.timeoutsIn handling = 1

/-- The client is told that the work on its request was given up, and no missed deadline is
counted. -/
def Handler.RendersGivingUp (h : Handler) (handling : Handling) : Prop :=
  ∃ instant response, handling.reply = .answered instant response ∧ response.status = 500 ∧
    response.body = Utf8.encode "context canceled\n" ∧
    response.headers.values completedName = [] ∧ h.timeoutsIn handling = 0

theorem Handler.rendersTimeout (h : Handler) (method : Http.Method) (instant : Instant) :
    h.RendersTimeout (h.conclude method (.ended instant .timeout)) := by
  refine ⟨instant, h.respond .timeout, rfl, rfl, rfl, rfl, ?_⟩
  simp [timeoutsIn, conclude, outcomeCounts, answerCounts, Journal.counts]

theorem Handler.rendersGivingUp (h : Handler) (method : Http.Method) (instant : Instant) :
    h.RendersGivingUp (h.conclude method (.ended instant (.failed .cancelled))) := by
  refine ⟨instant, h.respond (.failed .cancelled), rfl, rfl, rfl, rfl, ?_⟩
  simp [timeoutsIn, conclude, outcomeCounts, answerCounts, Journal.counts]

theorem Handler.RendersTimeout.not_givingUp {h : Handler} {handling : Handling}
    (ht : h.RendersTimeout handling) : ¬ h.RendersGivingUp handling := by
  intro hgiven
  rcases hgiven with ⟨_, _, _, _, _, _, hnone⟩
  obtain ⟨_, _, _, _, _, _, hone⟩ := ht
  rw [hnone] at hone
  cases hone

/-- Under a timeout the deadline is ahead when the pipeline is invoked, and nobody has cancelled. -/
theorem Handler.invoke_of_timeout {h : Handler} (htimeout : h.endpoint.timeoutMs ≠ 0)
    (start : Instant) (leaves : Option Instant) (request : Pipeline.Request) :
    (h.invoke start leaves request).deadline = some (roundUp (start + h.timeout)) ∧
    start < roundUp (start + h.timeout) ∧
    (h.invoke start leaves request).scope.cancelled = false := by
  have hpos : 0 < h.timeout := Nat.mul_pos (Nat.pos_of_ne_zero htimeout) (by decide)
  have hscope : (h.invoke start leaves request).scope = .endingAt (start + h.timeout) :=
    if_neg (Nat.ne_of_gt hpos)
  refine ⟨?_, Nat.lt_of_lt_of_le (Nat.lt_add_of_pos_right hpos) (le_roundUp _), ?_⟩
  · rw [Invocation.deadline, hscope]
    rfl
  · rw [hscope]
    rfl

namespace Race

section Unanswered

variable {h : Handler} {network : Backend.Network} {backend : Config.Backend} {start : Instant}
  {request : Pipeline.Request} {made : Backend.Call}

theorem unanswered_invoke (hpipeline : h.pipeline = Backend.pipeline network backend)
    (htimeout : h.endpoint.timeoutMs ≠ 0) (hcall : Backend.call backend request = .ok made)
    (hlate : (network made).Late start (roundUp (start + h.timeout))) :
    Unanswered start (roundUp (start + h.timeout)) (ofInvocation (h.invoke start none request)) :=
  unanswered_ofInvocation (congrFun hpipeline request) hcall hlate
    (Handler.invoke_of_timeout htimeout start none request).2.2

/-- Whoever is first, there is a run in which it is. -/
theorem unanswered_both_orders (hpipeline : h.pipeline = Backend.pipeline network backend)
    (htimeout : h.endpoint.timeoutMs ≠ 0) (hcall : Backend.call backend request = .ok made)
    (hlate : (network made).Late start (roundUp (start + h.timeout))) :
    (ofInvocation (h.invoke start none request)).LooksAt (roundUp (start + h.timeout)) .timeout ∧
    (ofInvocation (h.invoke start none request)).LooksAt (roundUp (start + h.timeout))
      (.failed .cancelled) := by
  obtain ⟨hdeadline, hlt, hcancelled⟩ := Handler.invoke_of_timeout htimeout start none request
  have hunanswered := unanswered_invoke hpipeline htimeout hcall hlate
  exact (hunanswered.givingUp rfl).both_orders rfl rfl hcancelled hdeadline hlt

end Unanswered

/-- A call that is not replied to before the deadline: in whatever order the backend and the one who
waits go on, the wait ends at the deadline.  The client is told of the timeout if the backend is
then still at work, and only then; if the backend was first, the client is told that it gave up.
Either can happen. -/
theorem unanswered_call_rendering (h : Handler) (network : Backend.Network)
    (backend : Config.Backend) (hpipeline : h.pipeline = Backend.pipeline network backend)
    (htimeout : h.endpoint.timeoutMs ≠ 0) (start : Instant) (method : Http.Method)
    (request : Pipeline.Request) (made : Backend.Call)
    (hcall : Backend.call backend request = .ok made)
    (hlate : (network made).Late start (roundUp (start + h.timeout))) :
    let deadline := roundUp (start + h.timeout)
    let race := ofInvocation (h.invoke start none request)
    (∀ moves r s, race.run moves = some r → r.step .look = some s →
      ∃ outcome, s.waiter = .ended deadline outcome ∧
        (h.RendersTimeout (h.conclude method (.ended deadline outcome)) ↔ r.task.isSome) ∧
        (h.RendersGivingUp (h.conclude method (.ended deadline outcome)) ↔ r.task = none)) ∧
    race.LooksAt deadline .timeout ∧ race.LooksAt deadline (.failed .cancelled) := by
  intro deadline race
  obtain ⟨hdeadline, hlt, _⟩ := Handler.invoke_of_timeout htimeout start none request
  have hunanswered := unanswered_invoke hpipeline htimeout hcall hlate
  refine ⟨?_, unanswered_both_orders hpipeline htimeout hcall hlate⟩
  intro moves r s hrun hlook
  have hagrees : Agrees (some deadline) none race :=
    hdeadline ▸ Agrees.ofInvocation (h.invoke start none request)
      (forall_of_eq_some hdeadline (Nat.le_of_lt hlt))
  rcases (hunanswered.run hagrees hrun).look (hagrees.run hrun) hlook with
    ⟨htask, hs⟩ | ⟨htask, hs⟩
  · have hrenders := h.rendersTimeout method deadline
    exact ⟨_, hs, iff_of_true hrenders htask,
      iff_of_false hrenders.not_givingUp (Option.isSome_iff_ne_none.1 htask)⟩
  · have hrenders := h.rendersGivingUp method deadline
    exact ⟨_, hs, iff_of_false (fun ht => ht.not_givingUp hrenders) (by simp [htask]),
      iff_of_true hrenders htask⟩

/-! ### A server that never replies -/

/-- A server that takes calls and never replies. -/
def silentBackend : Config.Backend := { address := "127.0.0.1:9", path := "/" }

/-- An endpoint that asks it, with a timeout of one millisecond. -/
def silentHandler : Handler where
  endpoint := { endpoint := "/slow", timeoutMs := 1, backend := some silentBackend }
  maxBodySize := 0
  pipeline := Backend.pipeline (fun _ => .silent) silentBackend

/-- A request to that endpoint. -/
def slowRequest : Pipeline.Request :=
  { (default : Pipeline.Request) with method := "GET", path := "/slow" }

theorem exists_call_silentBackend : ∃ made, Backend.call silentBackend slowRequest = .ok made :=
  ⟨_, rfl⟩

/-- A client of that endpoint may be told of the timeout, and may be told that its request was given
up. -/
theorem silentHandler_renders_either :
    (ofInvocation (silentHandler.invoke 0 none slowRequest)).LooksAt
      (roundUp (0 + silentHandler.timeout)) .timeout ∧
    (ofInvocation (silentHandler.invoke 0 none slowRequest)).LooksAt
      (roundUp (0 + silentHandler.timeout)) (.failed .cancelled) := by
  obtain ⟨made, hmade⟩ := exists_call_silentBackend
  exact (unanswered_call_rendering silentHandler (fun _ => .silent) silentBackend rfl (by decide) 0
    .get slowRequest made hmade .silent).2

/-- Not every order of the two has that client told of the timeout. -/
theorem silentHandler_escapes_timeout :
    ¬ ∀ moves r s, (ofInvocation (silentHandler.invoke 0 none slowRequest)).run moves = some r →
      r.step .look = some s → ∃ instant outcome, s.waiter = .ended instant outcome ∧
        silentHandler.RendersTimeout
          (silentHandler.conclude .get (.ended instant outcome)) := by
  intro always
  obtain ⟨made, hmade⟩ := exists_call_silentBackend
  have hpipeline : silentHandler.pipeline = Backend.pipeline (fun _ => .silent) silentBackend := rfl
  have horders : (ofInvocation (silentHandler.invoke 0 none slowRequest)).LooksAt
      (roundUp (0 + silentHandler.timeout)) (.failed .cancelled) :=
    (unanswered_both_orders hpipeline (by decide) hmade .silent).2
  obtain ⟨r, s, ⟨moves, _, hrun⟩, hlook, hs⟩ := horders
  obtain ⟨instant, outcome, hs', hrenders⟩ := always moves r s hrun hlook
  obtain ⟨_, houtcome⟩ := Waiter.ended.inj (hs.symm.trans hs')
  rw [← houtcome] at hrenders
  exact hrenders.not_givingUp (silentHandler.rendersGivingUp _ _)

end Race

end Endpoint

end Gateway
