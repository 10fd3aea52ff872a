/-
Module: Gateway.Proofs.Responses
Layer: Proofs
Purpose: Which response a request gets.  What becomes of a request is its fate: it is turned
  away, or the pipeline answers or breaks down in time, or the deadline passes (`Handler.Fated`).
  The fate settles the response, its headers included (`Answers`), whatever else the request holds.
Main exports: Endpoint.Fate, Endpoint.Answers, Endpoint.Handler.Fated,
  Endpoint.Handler.handle_follows_table
-/
import Gateway.Endpoint.Handler
import Gateway.Proofs.Conclusions
import Gateway.Proofs.Headers
import Gateway.Proofs.Waiting

namespace Gateway.Endpoint

open Http (HeaderName HeaderValue Response)
open Pipeline (Ending)

/-! ### Fates -/

/-- What becomes of a request at an endpoint. -/
inductive Fate where
  | wrongMethod
  | unreadable (fault : Http.BodyFault)
  | delivered (answer : Pipeline.Answer)
  /-- The pipeline ended without an answer. -/
  | brokeDown
  | late

namespace Fate

/-- The fate of a request whose pipeline ended. -/
def ofEnding : Ending → Fate
  | .returned answer => .delivered answer
  | .crashed => .brokeDown

def status : Fate → Nat
  | .wrongMethod => 405
  | .delivered (.ok _) => 200
  | .delivered (.error ⟨_, some gathered⟩) => if gathered.data.isEmpty then 500 else 200
  | _ => 500

def body : Fate → String
  | .wrongMethod => "\n"
  | .unreadable fault => (Pipeline.Error.body fault).text ++ "\n"
  | .delivered (.ok (some payload)) => (Json.object payload.data).print
  | .delivered (.ok none) => "{}"
  | .delivered (.error ⟨error, some gathered⟩) =>
    if gathered.data.isEmpty then error.text ++ "\n" else (Json.object gathered.data).print
  | .delivered (.error ⟨error, none⟩) => error.text ++ "\n"
  | .brokeDown => "pipeline task aborted\n"
  | .late => "internal server error\n"

/-- The pipeline answered without error, with data that is complete and not empty. -/
def Complete (fate : Fate) : Prop :=
  ∃ payload, fate = .delivered (.ok (some payload)) ∧ payload.complete = true ∧ payload.data ≠ []

/-- How a fate is reported. -/
def outcome : Fate → Outcome
  | .wrongMethod => .methodNotAllowed
  | .unreadable fault => .failed (.body fault)
  | .delivered answer => .ofAnswer answer
  | .brokeDown => .failed .aborted
  | .late => .timeout

theorem outcome_ofEnding (e : Ending) : (ofEnding e).outcome = Invocation.outcomeOf e := by
  cases e <;> rfl

end Fate

/-- The values of a header are these texts. -/
def Shows (response : Response) (name : HeaderName) (texts : List String) : Prop :=
  (response.headers.values name).map (·.bytes) = texts.map Utf8.encode

/-- The response that a fate leads to, `ttl` being the cache lifetime in seconds. -/
structure Answers (ttl : Nat) (fate : Fate) (response : Response) : Prop where
  status_eq : response.status = fate.status
  body_eq : response.body = Utf8.encode fate.body
  data_type : fate.status = 200 →
    Shows response contentType ["application/json"] ∧ Shows response contentTypeOptions []
  text_type : fate.status ≠ 200 →
    Shows response contentType ["text/plain; charset=utf-8"] ∧
    Shows response contentTypeOptions ["nosniff"]
  completed_true : fate.Complete → Shows response completedName ["true"]
  completed_false : ¬ fate.Complete → fate.status = 200 ∨ fate = .late →
    Shows response completedName ["false"]
  completed_absent : fate.status ≠ 200 → fate ≠ .late → Shows response completedName []
  caching_present : fate.Complete → ttl ≠ 0 →
    Shows response cacheControlName ["public, max-age=" ++ toString ttl]
  caching_absent : ¬ (fate.Complete ∧ ttl ≠ 0) → Shows response cacheControlName []
  banner : Shows response bannerName ["Version 0.1.0"]

/-! ### Headers of a response -/

theorem shows_banner (response : Response) :
    Shows (withBanner response) bannerName ["Version 0.1.0"] := by
  rw [Shows, withBanner, Http.Headers.values_set_self]
  rfl

theorem shows_withBanner {response : Response} {name : HeaderName} {texts : List String}
    (h : name ≠ bannerName) :
    Shows (withBanner response) name texts ↔ Shows response name texts := by
  rw [Shows, withBanner, Http.Headers.values_set_of_ne h, Shows]

theorem cacheControl_seconds (ttl : Nat) :
    (ttl = 0 ∧ cacheControl ⟨ttl, 0⟩ = none) ∨
    (ttl ≠ 0 ∧ ∃ value, cacheControl ⟨ttl, 0⟩ = some value ∧
      value.bytes = Utf8.encode ("public, max-age=" ++ toString ttl)) := by
  by_cases httl : ttl = 0
  · exact Or.inl ⟨httl, if_pos ⟨httl, rfl⟩⟩
  · have htext : HeaderValue.isValueText ("public, max-age=" ++ toString ttl) = true := by
      rw [HeaderValue.isValueText_append, HeaderValue.isValueText_toString]
      decide
    obtain ⟨value, hvalue, hbytes⟩ := HeaderValue.exists_ofString? htext
    refine Or.inr ⟨httl, value, ?_, hbytes⟩
    rw [cacheControl, if_neg (fun hzero => httl hzero.1), hvalue]

/-! ### The response to a fate -/

theorem not_complete_of_status {fate : Fate} (h : fate.status ≠ 200) : ¬ fate.Complete := by
  intro hgiven
  rcases hgiven with ⟨payload, rfl, _, _⟩
  exact h rfl

theorem answers_textResponse {ttl status : Nat} {message : String} {fate : Fate}
    (hstatus : fate.status = status) (hbody : fate.body = message ++ "\n") (hne : status ≠ 200)
    (hlate : fate ≠ .late) : Answers ttl fate (withBanner (textResponse status message)) := by
  have hnot : fate.status ≠ 200 := by rw [hstatus]; exact hne
  have hincomplete := not_complete_of_status hnot
  exact
    { status_eq := hstatus.symm
      body_eq := by rw [hbody]; rfl
      data_type := fun h => absurd h hnot
      text_type := fun _ => ⟨rfl, rfl⟩
      completed_true := fun h => absurd h hincomplete
      completed_false := fun _ h => absurd h (not_or.2 ⟨hnot, hlate⟩)
      completed_absent := fun _ _ => rfl
      caching_present := fun h => absurd h hincomplete
      caching_absent := fun _ => rfl
      banner := shows_banner _ }

theorem answers_timeout (ttl : Nat) (caching : Option HeaderValue) :
    Answers ttl .late (withBanner (render .timeout caching)) := by
  have hincomplete : ¬ Fate.late.Complete := not_complete_of_status (by decide)
  exact
    { status_eq := rfl
      body_eq := rfl
      data_type := nofun
      text_type := fun _ => ⟨rfl, rfl⟩
      completed_true := fun h => absurd h hincomplete
      completed_false := fun _ _ => rfl
      completed_absent := fun _ h => absurd rfl h
      caching_present := fun h => absurd h hincomplete
      caching_absent := fun _ => rfl
      banner := shows_banner _ }

theorem answers_incomplete {ttl : Nat} {data : Json.Fields} {fate : Fate}
    (hstatus : fate.status = 200) (hbody : fate.body = (Json.object data).print)
    (hincomplete : ¬ fate.Complete) :
    Answers ttl fate (withBanner (dataResponse data false none)) where
  status_eq := hstatus.symm
  body_eq := by rw [hbody]; rfl
  data_type _ := ⟨rfl, rfl⟩
  text_type h := absurd hstatus h
  completed_true h := absurd h hincomplete
  completed_false _ _ := rfl
  completed_absent h := absurd hstatus h
  caching_present h := absurd h hincomplete
  caching_absent _ := rfl
  banner := shows_banner _

/-- Complete data is the only response that may be cached. -/
theorem answers_complete {ttl : Nat} {payload : Pipeline.Payload}
    (hcomplete : payload.complete = true) (hdata : payload.data ≠ []) :
    Answers ttl (.delivered (.ok (some payload)))
      (withBanner (dataResponse payload.data true (cacheControl ⟨ttl, 0⟩))) := by
  have hfate : (Fate.delivered (.ok (some payload))).Complete := ⟨payload, rfl, hcomplete, hdata⟩
  have hcaching :
      ttl = 0 ∧ Shows (withBanner (dataResponse payload.data true (cacheControl ⟨ttl, 0⟩)))
        cacheControlName [] ∨
      ttl ≠ 0 ∧ Shows (withBanner (dataResponse payload.data true (cacheControl ⟨ttl, 0⟩)))
        cacheControlName ["public, max-age=" ++ toString ttl] := by
    rcases cacheControl_seconds ttl with ⟨httl, hnone⟩ | ⟨httl, value, hvalue, hbytes⟩
    · rw [hnone]
      exact Or.inl ⟨httl, rfl⟩
    · rw [hvalue]
      refine Or.inr ⟨httl, ?_⟩
      rw [shows_withBanner (by decide), Shows, List.map_singleton, ← hbytes]
      rfl
  exact
    { status_eq := rfl
      body_eq := rfl
      data_type := fun _ => by cases cacheControl ⟨ttl, 0⟩ <;> exact ⟨rfl, rfl⟩
      text_type := fun h => absurd rfl h
      completed_true := fun _ => by cases cacheControl ⟨ttl, 0⟩ <;> rfl
      completed_false := fun h => absurd hfate h
      completed_absent := fun h => absurd rfl h
      caching_present := fun _ httl => by
        rcases hcaching with ⟨hzero, _⟩ | ⟨_, hshows⟩
        · exact absurd hzero httl
        · exact hshows
      caching_absent := fun h => by
        rcases hcaching with ⟨_, hshows⟩ | ⟨httl, _⟩
        · exact hshows
        · exact absurd ⟨hfate, httl⟩ h
      banner := shows_banner _ }

/-- What is rendered for a fate is the response that it leads to. -/
theorem answers_render (ttl : Nat) (fate : Fate) :
    Answers ttl fate (withBanner (render fate.outcome (cacheControl ⟨ttl, 0⟩))) := by
  cases fate with
  | wrongMethod => exact answers_textResponse rfl rfl (by decide) nofun
  | unreadable fault => exact answers_textResponse rfl rfl (by decide) nofun
  | brokeDown => exact answers_textResponse rfl rfl (by decide) nofun
  | late => exact answers_timeout ttl _
  | delivered answer =>
      rcases answer with ⟨error, _ | gathered⟩ | _ | payload
      · exact answers_textResponse rfl rfl (by decide) nofun
      · by_cases hdata : gathered.data.isEmpty = true
        · have houtcome : (Fate.delivered (.error ⟨error, some gathered⟩)).outcome =
              .failed error := by
            simp [Fate.outcome, Outcome.ofAnswer, Pipeline.Payload.hasData, hdata]
          rw [houtcome]
          exact answers_textResponse (by simp [Fate.status, hdata]) (by simp [Fate.body, hdata])
            (by decide) nofun
        · have houtcome : (Fate.delivered (.error ⟨error, some gathered⟩)).outcome =
              .failedWithData gathered error := by
            simp [Fate.outcome, Outcome.ofAnswer, Pipeline.Payload.hasData, hdata]
          rw [houtcome]
          apply answers_incomplete
          · simp [Fate.status, hdata]
          · simp [Fate.body, hdata]
          · intro hgiven
            rcases hgiven with ⟨_, heq, _⟩
            cases heq
      · apply answers_incomplete rfl rfl
        intro hgiven
        rcases hgiven with ⟨_, heq, _⟩
        cases heq
      · cases hfull : payload.complete && payload.hasData with
        | true =>
            rw [Bool.and_eq_true] at hfull
            have hdata : payload.data ≠ [] := by
              intro hnil
              simp [Pipeline.Payload.hasData, hnil] at hfull
            have hrender :
                render (Fate.delivered (.ok (some payload))).outcome (cacheControl ⟨ttl, 0⟩) =
                  dataResponse payload.data true (cacheControl ⟨ttl, 0⟩) := by
              simp [Fate.outcome, Outcome.ofAnswer, render, hfull.1, hfull.2]
            rw [hrender]
            exact answers_complete hfull.1 hdata
        | false =>
            have hrender :
                render (Fate.delivered (.ok (some payload))).outcome (cacheControl ⟨ttl, 0⟩) =
                  dataResponse payload.data false none := by
              simp [Fate.outcome, Outcome.ofAnswer, render, hfull]
            rw [hrender]
            apply answers_incomplete rfl rfl
            intro hgiven
            rcases hgiven with ⟨other, heq, hcomplete, hdata⟩
            cases heq
            have hsome : payload.hasData = true := by
              simpa [Pipeline.Payload.hasData] using hdata
            rw [hcomplete, hsome] at hfull
            cases hfull

theorem AllowList.forward_error {allowed : AllowList} {request : Http.Request}
    {fault : Http.BodyFault}
    (hbody : Http.collectBody allowed.maxBodySize request.body = .error fault) :
    allowed.forward request = .error (.body fault) := by
  rw [forward, hbody]

theorem AllowList.exists_forward {allowed : AllowList} {request : Http.Request} {body : List UInt8}
    (hbody : Http.collectBody allowed.maxBodySize request.body = .ok body) :
    ∃ forwarded, allowed.forward request = .ok forwarded := by
  rw [forward, hbody]
  exact ⟨_, rfl⟩

namespace Handler

variable {h : Handler} {start : Instant} {leaves : Option Instant} {request : Http.Request}

/-! ### The fate of a request -/

/-- What becomes of a request, and when.  The method is looked at first, then the body; the pipeline
and the deadline count only for a request that passes both. -/
inductive Fated (h : Handler) (start : Instant) (leaves : Option Instant) (request : Http.Request) :
    Instant → Fate → Prop where
  | wrongMethod : request.method.text ≠ h.endpoint.method →
      Fated h start leaves request start .wrongMethod
  | unreadable {fault} : request.method.text = h.endpoint.method →
      Http.collectBody h.maxBodySize request.body = .error fault →
      Fated h start leaves request start (.unreadable fault)
  | ended {forwarded instant e} : request.method.text = h.endpoint.method →
      h.allowed.forward request = .ok forwarded →
      (h.invoke start leaves forwarded).trace.ending = some (instant, e) →
      (∀ d, (h.invoke start leaves forwarded).deadline = some d → instant < d) →
      (∀ l, leaves = some l → instant < l) →
      Fated h start leaves request instant (.ofEnding e)
  | late {forwarded deadline} : request.method.text = h.endpoint.method →
      h.allowed.forward request = .ok forwarded →
      (h.invoke start leaves forwarded).deadline = some deadline →
      (∀ t e, (h.invoke start leaves forwarded).trace.ending = some (t, e) → deadline ≤ t) →
      (∀ l, leaves = some l → deadline ≤ l) →
      Fated h start leaves request deadline .late

theorem receive_of_wrongMethod (hmethod : request.method.text ≠ h.endpoint.method) :
    h.receive request = .error .methodNotAllowed := by
  rw [receive, if_pos]
  simpa [methodAllowed] using hmethod

theorem receive_of_unreadable {fault : Http.BodyFault}
    (hmethod : request.method.text = h.endpoint.method)
    (hbody : Http.collectBody h.maxBodySize request.body = .error fault) :
    h.receive request = .error (.unreadable (.body fault)) := by
  have hforward : h.allowed.forward request = .error (.body fault) :=
    AllowList.forward_error hbody
  rw [receive, if_neg (by simp [methodAllowed, hmethod]), hforward]

theorem receive_eq_ok {forwarded : Pipeline.Request}
    (hmethod : request.method.text = h.endpoint.method)
    (hforward : h.allowed.forward request = .ok forwarded) : h.receive request = .ok forwarded := by
  rw [receive, if_neg (by simp [methodAllowed, hmethod]), hforward]

theorem conclusion_of_ending {inv : Invocation} {instant : Instant} {e : Ending}
    (hending : inv.trace.ending = some (instant, e))
    (hdeadline : ∀ d, inv.deadline = some d → instant < d)
    (hleaves : ∀ l, inv.leaves = some l → instant < l) :
    inv.conclusion = .ended instant (Invocation.outcomeOf e) :=
  Invocation.conclusion_of_inTime hending (Invocation.lt_stop_iff.2 ⟨hdeadline, hleaves⟩)

theorem conclusion_of_deadline {inv : Invocation} {deadline : Instant}
    (hdeadline : inv.deadline = some deadline)
    (hending : ∀ t e, inv.trace.ending = some (t, e) → deadline ≤ t)
    (hleaves : ∀ l, inv.leaves = some l → deadline ≤ l) :
    inv.conclusion = .ended deadline .timeout := by
  obtain ⟨u, hstop, hle⟩ := Pipeline.exists_sooner_le_left hdeadline inv.leaves
  have hlate : inv.conclusion = inv.givenUp :=
    Invocation.conclusion_of_late hstop fun t e he => Nat.le_trans hle (hending t e he)
  rw [hlate, Invocation.givenUp_of_deadline hdeadline hleaves]

/-- A wait that comes to an outcome was ended by the pipeline or by the deadline. -/
theorem conclusion_eq_ended_inv {inv : Invocation} {instant : Instant} {outcome : Outcome}
    (hended : inv.conclusion = .ended instant outcome) :
    (∃ e, inv.trace.ending = some (instant, e) ∧ (∀ d, inv.deadline = some d → instant < d) ∧
      ∀ l, inv.leaves = some l → instant < l) ∨
    (inv.deadline = some instant ∧ (∀ t e, inv.trace.ending = some (t, e) → instant ≤ t) ∧
      ∀ l, inv.leaves = some l → instant ≤ l) := by
  cases htime : inv.inTime? with
  | some last =>
      obtain ⟨t, e⟩ := last
      rw [Invocation.conclusion, htime] at hended
      cases hended
      obtain ⟨hending, hearly⟩ := Invocation.inTime?_eq_some_iff.1 htime
      exact Or.inl ⟨e, hending, Invocation.lt_stop_iff.1 hearly⟩
  | none =>
      rw [Invocation.conclusion, htime] at hended
      obtain ⟨hdeadline, _, hleaves⟩ := Invocation.givenUp_eq_ended_inv hended
      refine Or.inr ⟨hdeadline, ?_, hleaves⟩
      intro t e hending
      apply Nat.le_of_not_lt
      intro hlt
      have hearly : ∀ u, inv.stop = some u → t < u :=
        Invocation.lt_stop_iff.2 ⟨Race.forall_of_eq_some hdeadline hlt,
          fun l hl => Nat.lt_of_lt_of_le hlt (hleaves l hl)⟩
      have htime' := Invocation.inTime?_eq_some_iff.2 ⟨hending, hearly⟩
      rw [htime] at htime'
      cases htime'

/-- A request that reaches the pipeline is answered as its wait concludes. -/
theorem reply_of_receive {forwarded : Pipeline.Request}
    (hreceive : h.receive request = .ok forwarded) :
    (h.handle start leaves request).reply =
      (h.conclude request.method (h.invoke start leaves forwarded).conclusion).reply := by
  simp only [handle, hreceive]

/-- The fate of a request is what it is answered with. -/
theorem reply_of_fated {instant : Instant} {fate : Fate}
    (hfated : h.Fated start leaves request instant fate) :
    (h.handle start leaves request).reply =
      .answered instant (withBanner (render fate.outcome h.caching)) := by
  cases hfated with
  | wrongMethod hmethod => simp only [handle, receive_of_wrongMethod hmethod]; rfl
  | unreadable hmethod hbody => simp only [handle, receive_of_unreadable hmethod hbody]; rfl
  | ended hmethod hforward hending hdeadline hleaves =>
      rw [reply_of_receive (receive_eq_ok hmethod hforward),
        conclusion_of_ending hending hdeadline hleaves, Fate.outcome_ofEnding]
      rfl
  | late hmethod hforward hdeadline hending hleaves =>
      rw [reply_of_receive (receive_eq_ok hmethod hforward),
        conclusion_of_deadline hdeadline hending hleaves]
      rfl

/-- Nothing is answered without such a fate. -/
theorem exists_fated {instant : Instant} {response : Response}
    (hreply : (h.handle start leaves request).reply = .answered instant response) :
    ∃ fate, h.Fated start leaves request instant fate := by
  by_cases hmethod : request.method.text = h.endpoint.method
  · cases hbody : Http.collectBody h.maxBodySize request.body with
    | error fault =>
        have hfated : h.Fated start leaves request start (.unreadable fault) :=
          .unreadable hmethod hbody
        rw [reply_of_fated hfated] at hreply
        cases hreply
        exact ⟨_, hfated⟩
    | ok body =>
        obtain ⟨forwarded, hforward⟩ : ∃ forwarded, h.allowed.forward request = .ok forwarded :=
          AllowList.exists_forward hbody
        rw [reply_of_receive (receive_eq_ok hmethod hforward)] at hreply
        cases hconclusion : (h.invoke start leaves forwarded).conclusion with
        | abandoned t => rw [hconclusion] at hreply; cases hreply
        | unending => rw [hconclusion] at hreply; cases hreply
        | ended t outcome =>
            rw [hconclusion] at hreply
            cases hreply
            rcases conclusion_eq_ended_inv hconclusion with
              ⟨e, hending, hdeadline, hleaves⟩ | ⟨hdeadline, hending, hleaves⟩
            · exact ⟨_, .ended hmethod hforward hending hdeadline hleaves⟩
            · exact ⟨_, .late hmethod hforward hdeadline hending hleaves⟩
  · have hfated : h.Fated start leaves request start .wrongMethod := .wrongMethod hmethod
    rw [reply_of_fated hfated] at hreply
    cases hreply
    exact ⟨_, hfated⟩

/-- A request that is turned away is handled without the pipeline. -/
theorem handle_of_rejected {rejection : Rejection} (hreceive : h.receive request = .error rejection)
    (pipeline : Pipeline) :
    ({ h with pipeline } : Handler).handle start leaves request = h.handle start leaves request ∧
    Journal.notes ((h.handle start leaves request).journal.map (·.entry)) = [] := by
  have hsame : ({ h with pipeline } : Handler).receive request = .error rejection := hreceive
  constructor
  · simp only [handle, hsame, hreceive]
    rfl
  · simp only [handle, hreceive]
    simp [reject, answerCounts, Journal.notes]

/-- However the pipeline and the one who waits take turns, a wait that ends does so with a fate. -/
theorem exists_fate_of_run {forwarded : Pipeline.Request} {moves : List Race.Move} {r : Race}
    {instant : Instant} {outcome : Outcome}
    (hrun : (Race.ofInvocation (h.invoke start leaves forwarded)).run moves = some r)
    (hended : r.waiter = .ended instant outcome) :
    ∃ fate : Fate, (fate = .late ∨ ∃ t e, fate = .ofEnding e ∧
      (Race.ofInvocation (h.invoke start leaves forwarded)).endingIn moves = some (t, e)) ∧
      outcome = fate.outcome := by
  have hstart : ∀ d, (h.invoke start leaves forwarded).deadline = some d → start ≤ d := by
    intro d hd
    have hd' : (Invocation.underTimeout start h.endpoint.timeoutMs
        (h.pipeline forwarded)).deadline = some d := hd
    exact Nat.le_trans (Nat.le_add_right _ _) (Invocation.start_le_deadline hd')
  have hagrees := (Race.Agrees.ofInvocation (h.invoke start leaves forwarded) hstart).run hrun
  obtain ⟨_, hsettles⟩ := hagrees.settled hended
  rw [Option.none_or] at hsettles
  cases hsettles with
  | byPipeline hending _ =>
      exact ⟨_, Or.inr ⟨_, _, rfl, hending⟩, (Fate.outcome_ofEnding _).symm⟩
  | byClock _ _ => exact ⟨.late, Or.inl rfl, rfl⟩

/-- Every request is answered as its fate demands, and not without one.  For a request that reaches
the pipeline this holds however the pipeline and the one who waits take turns; a request that is
turned away does not reach it. -/
theorem handle_follows_table (h : Handler) (start : Instant) (leaves : Option Instant)
    (request : Http.Request) :
    (∀ instant fate, h.Fated start leaves request instant fate →
      ∃ response, (h.handle start leaves request).reply = .answered instant response ∧
        Answers h.endpoint.cacheTtlSecs fate response) ∧
    (∀ instant response, (h.handle start leaves request).reply = .answered instant response →
      ∃ fate, h.Fated start leaves request instant fate) ∧
    (∀ forwarded, h.receive request = .ok forwarded → ∀ moves r instant outcome,
      (Race.ofInvocation (h.invoke start leaves forwarded)).run moves = some r →
      r.waiter = .ended instant outcome →
      ∃ (fate : Fate) (response : Response), (fate = .late ∨ ∃ t e, fate = .ofEnding e ∧
          (Race.ofInvocation (h.invoke start leaves forwarded)).endingIn moves = some (t, e)) ∧
        (h.conclude request.method (.ended instant outcome)).reply = .answered instant response ∧
        Answers h.endpoint.cacheTtlSecs fate response) ∧
    (request.method.text ≠ h.endpoint.method ∨
        (∃ fault, Http.collectBody h.maxBodySize request.body = .error fault) →
      ∀ pipeline, ({ h with pipeline } : Handler).handle start leaves request =
          h.handle start leaves request ∧
        Journal.notes ((h.handle start leaves request).journal.map (·.entry)) = []) := by
  refine ⟨?_, ?_, ?_, ?_⟩
  · intro instant fate hfated
    exact ⟨_, reply_of_fated hfated, answers_render h.endpoint.cacheTtlSecs fate⟩
  · intro instant response hreply
    exact exists_fated hreply
  · intro forwarded _ moves r instant outcome hrun hended
    obtain ⟨fate, hfate, rfl⟩ := exists_fate_of_run hrun hended
    exact ⟨fate, _, hfate, rfl, answers_render h.endpoint.cacheTtlSecs fate⟩
  · intro hrejected pipeline
    by_cases hmethod : request.method.text = h.endpoint.method
    · rcases hrejected with hwrong | ⟨fault, hbody⟩
      · exact absurd hmethod hwrong
      · exact handle_of_rejected (receive_of_unreadable hmethod hbody) pipeline
    · exact handle_of_rejected (receive_of_wrongMethod hmethod) pipeline

/-- An endpoint that answers at once with complete data, which may be cached for a minute. -/
def promptHandler : Handler where
  endpoint := { endpoint := "/", cacheTtlSecs := 60 }
  maxBodySize := 0
  pipeline := fun _ => .answer (.ok (some ⟨true, [("a", .null)]⟩))

theorem promptHandler_response :
    ∃ response, (promptHandler.handle 0 none ⟨.get, default, [], []⟩).reply = .answered 0 response ∧
      response.status = 200 ∧ Shows response completedName ["true"] ∧
      Shows response cacheControlName ["public, max-age=60"] := by
  have hfated : promptHandler.Fated 0 none ⟨.get, default, [], []⟩ 0
      (.ofEnding (.returned (.ok (some ⟨true, [("a", .null)]⟩)))) :=
    .ended rfl rfl rfl nofun nofun
  have hcomplete : (Fate.ofEnding (.returned (.ok (some ⟨true, [("a", .null)]⟩)))).Complete :=
    ⟨_, rfl, rfl, nofun⟩
  obtain ⟨response, hreply, hanswers⟩ :=
    (handle_follows_table promptHandler 0 none ⟨.get, default, [], []⟩).1 0 _ hfated
  exact ⟨response, hreply, hanswers.status_eq, hanswers.completed_true hcomplete,
    hanswers.caching_present hcomplete (by decide)⟩

end Handler

end Gateway.Endpoint
