/-
Module: Gateway.Proofs.BackendReplies
Layer: Proofs
Purpose: What a client gets for the reply of a backend server.  Status, length and text of the reply
  settle what the backend makes of it (`Backend.read_spec`), and that settles the response
  (`Conveys`): the value of the reply, or a line that names the first of the three that failed.  A
  scope that ends first leaves no data at all, and nothing that a backend does ends with data that
  is incomplete or only part of a reply (`whole_of_yields`).
Main exports: Backend.conveyed, Backend.Reading, Backend.read_spec, Endpoint.Conveys,
  Endpoint.Whole, Endpoint.Handler.backend_reply_settles_response
-/
import Gateway.Proofs.Bodies
import Gateway.Proofs.Fetching
import Gateway.Proofs.Responses

namespace Gateway

namespace Backend

/-! ### Reading a reply -/

/-- What a client is shown of a value: the value itself if it is an object and the backend yields no
collection, and otherwise an object with nothing but the value in it. -/
def conveyed (isCollection : Bool) (value : Json) : Json :=
  match isCollection, value with
  | false, .object fields => .object fields
  | _, value => .object [("collection", value)]

theorem object_shape (isCollection : Bool) (value : Json) :
    .object (shape isCollection value) = conveyed isCollection value := by
  cases value <;> cases isCollection <;> rfl

/-- What a backend makes of a reply with a status and a body, the first fault counting. -/
inductive Reading (backend : Config.Backend) (status : Nat) (bytes : List UInt8) :
    Pipeline.Answer → Prop where
  | refused : ¬ (200 ≤ status ∧ status ≤ 299) →
      Reading backend status bytes (.error ⟨.backendStatus status, none⟩)
  | tooLong : 200 ≤ status ∧ status ≤ 299 → backend.maxResponseBytes < bytes.length →
      Reading backend status bytes (.error ⟨.body .tooLong, none⟩)
  | unreadable {refusal} : 200 ≤ status ∧ status ≤ 299 →
      bytes.length ≤ backend.maxResponseBytes → Json.read bytes = .error refusal →
      Reading backend status bytes (.error ⟨.decode refusal, none⟩)
  | value {value} : 200 ≤ status ∧ status ≤ 299 →
      bytes.length ≤ backend.maxResponseBytes → Json.read bytes = .ok value →
      Reading backend status bytes (.ok (some ⟨true, shape backend.isCollection value⟩))

theorem isSuccess_iff (status : Nat) :
    Http.isSuccess status = true ↔ 200 ≤ status ∧ status ≤ 299 := by
  simp only [Http.isSuccess, Bool.and_eq_true, decide_eq_true_eq, Nat.lt_succ_iff]

theorem read_spec (backend : Config.Backend) (status : Nat) (parts : List (List UInt8)) :
    Reading backend status parts.flatten (answer backend ⟨status, parts.map .data⟩) := by
  rw [answer, read, Http.collectBody_data]
  by_cases hstatus : Http.isSuccess status = true
  · have hrange := (isSuccess_iff status).1 hstatus
    rw [hstatus, if_neg (by decide)]
    by_cases hfits : parts.flatten.length ≤ backend.maxResponseBytes
    · rw [if_pos hfits]
      cases htext : Json.read parts.flatten with
      | error refusal =>
          simp only [htext]
          exact .unreadable hrange hfits htext
      | ok value =>
          simp only [htext]
          exact .value hrange hfits htext
    · rw [if_neg hfits]
      exact .tooLong hrange (Nat.lt_of_not_le hfits)
  · rw [Bool.not_eq_true] at hstatus
    rw [hstatus, if_pos (by decide)]
    apply Reading.refused
    rw [← isSuccess_iff, hstatus]
    exact Bool.false_ne_true

end Backend

namespace Endpoint

open Backend (conveyed failed)
open Http (Response)
open Pipeline (Ending Program)

/-! ### The response to a reply -/

/-- A response conveys the reply of a backend server with a status and a body. -/
structure Conveys (backend : Config.Backend) (status : Nat) (bytes : List UInt8)
    (response : Response) : Prop where
  status_eq_ok_iff : response.status = 200 ↔ (200 ≤ status ∧ status ≤ 299) ∧
    bytes.length ≤ backend.maxResponseBytes ∧ ∃ value, Json.read bytes = .ok value
  value : response.status = 200 → ∀ value, Json.read bytes = .ok value →
    response.body = Utf8.encode (conveyed backend.isCollection value).print ∧
    (conveyed backend.isCollection value ≠ .object [] → Shows response completedName ["true"]) ∧
    (conveyed backend.isCollection value = .object [] → Shows response completedName ["false"])
  failure : response.status ≠ 200 → response.status = 500 ∧ Shows response completedName []
  refused : ¬ (200 ≤ status ∧ status ≤ 299) →
    response.body = Utf8.encode ("upstream responded with status " ++ toString status ++ "\n")
  tooLong : 200 ≤ status ∧ status ≤ 299 → backend.maxResponseBytes < bytes.length →
    response.body = Utf8.encode "reading body failed: length limit exceeded\n"
  unreadable : 200 ≤ status ∧ status ≤ 299 → bytes.length ≤ backend.maxResponseBytes →
    ∀ refusal, Json.read bytes = .error refusal →
      response.body = Utf8.encode ("invalid upstream payload: " ++ refusal.message ++ "\n")

/-- A failure without data is told in a line, and nothing is said of completeness. -/
theorem Answers.of_failure {ttl : Nat} {error : Pipeline.Error} {response : Response}
    (h : Answers ttl (.delivered (.error ⟨error, none⟩)) response) :
    response.status = 500 ∧ response.body = Utf8.encode (error.text ++ "\n") ∧
    Shows response completedName [] := by
  have hne : (Fate.delivered (.error ⟨error, none⟩)).status ≠ 200 := by
    change 500 ≠ 200
    decide
  exact ⟨h.status_eq, h.body_eq, h.completed_absent hne (by intro heq; cases heq)⟩

section Conveys

variable {ttl status : Nat} {backend : Config.Backend} {bytes : List UInt8} {response : Response}

/-- A failure conveys a reply that is no data, if it is the first fault of that reply. -/
theorem Answers.conveys_failure {error : Pipeline.Error}
    (h : Answers ttl (.delivered (.error ⟨error, none⟩)) response)
    (hnone : ¬ ((200 ≤ status ∧ status ≤ 299) ∧ bytes.length ≤ backend.maxResponseBytes ∧
      ∃ value, Json.read bytes = .ok value))
    (hrefused : ¬ (200 ≤ status ∧ status ≤ 299) → error = .backendStatus status)
    (htooLong : 200 ≤ status ∧ status ≤ 299 → backend.maxResponseBytes < bytes.length →
      error = .body .tooLong)
    (hunreadable : 200 ≤ status ∧ status ≤ 299 → bytes.length ≤ backend.maxResponseBytes →
      ∀ refusal, Json.read bytes = .error refusal → error = .decode refusal) :
    Conveys backend status bytes response := by
  obtain ⟨hstatus, hbody, hcompleted⟩ := h.of_failure
  have hne : response.status ≠ 200 := by
    rw [hstatus]
    decide
  refine
    { status_eq_ok_iff := iff_of_false hne hnone
      value := fun hok => absurd hok hne
      failure := fun _ => ⟨hstatus, hcompleted⟩
      refused := ?_
      tooLong := ?_
      unreadable := ?_ }
  · intro hout
    rw [hbody, hrefused hout]
    rfl
  · intro hrange hlong
    rw [hbody, htooLong hrange hlong]
    rfl
  · intro hrange hfits refusal htext
    rw [hbody, hunreadable hrange hfits refusal htext]
    rfl

/-- The value of a reply is shown whole, and marked as complete if there is anything to show. -/
theorem Answers.conveys_value {value : Json}
    (h : Answers ttl (.delivered (.ok (some ⟨true, Backend.shape backend.isCollection value⟩)))
      response)
    (hrange : 200 ≤ status ∧ status ≤ 299) (hfits : bytes.length ≤ backend.maxResponseBytes)
    (htext : Json.read bytes = .ok value) : Conveys backend status bytes response := by
  have hstatus : response.status = 200 := h.status_eq
  refine
    { status_eq_ok_iff := iff_of_true hstatus ⟨hrange, hfits, value, htext⟩
      value := ?_
      failure := fun hne => absurd hstatus hne
      refused := fun hout => absurd hrange hout
      tooLong := fun _ hlong => absurd hfits (Nat.not_le.2 hlong)
      unreadable := ?_ }
  · intro _ value' htext'
    rw [htext] at htext'
    cases htext'
    rw [← Backend.object_shape]
    refine ⟨h.body_eq, ?_, ?_⟩
    · intro hne
      apply h.completed_true
      exact ⟨_, rfl, rfl, fun hnil => hne (congrArg Json.object hnil)⟩
    · intro hnil
      apply h.completed_false
      · rintro ⟨payload, heq, _, hdata⟩
        cases heq
        exact hdata (Json.object.inj hnil)
      · exact Or.inl rfl
  · intro _ _ refusal htext'
    rw [htext] at htext'
    cases htext'

/-- What a backend makes of a reply settles the response. -/
theorem Answers.conveys {answer : Pipeline.Answer}
    (hreading : Backend.Reading backend status bytes answer)
    (h : Answers ttl (.delivered answer) response) : Conveys backend status bytes response := by
  cases hreading with
  | refused hout =>
      apply h.conveys_failure
      · exact fun hok => hout hok.1
      · exact fun _ => rfl
      · exact fun hrange => absurd hrange hout
      · exact fun hrange => absurd hrange hout
  | tooLong hrange hlong =>
      apply h.conveys_failure
      · exact fun hok => Nat.not_le.2 hlong hok.2.1
      · exact fun hout => absurd hrange hout
      · exact fun _ _ => rfl
      · exact fun _ hfits => absurd hfits (Nat.not_le.2 hlong)
  | unreadable hrange hfits htext =>
      apply h.conveys_failure
      · rintro ⟨_, _, value, hvalue⟩
        rw [htext] at hvalue
        cases hvalue
      · exact fun hout => absurd hrange hout
      · exact fun _ hlong => absurd hfits (Nat.not_le.2 hlong)
      · intro _ _ refusal htext'
        rw [htext] at htext'
        cases htext'
        rfl
  | value hrange hfits htext => exact h.conveys_value hrange hfits htext

end Conveys

/-! ### No data but whole data -/

/-- An end without data, or with data that is complete. -/
inductive Whole : Ending → Prop where
  | data {fields} : Whole (.returned (.ok (some ⟨true, fields⟩)))
  | failure {error} : Whole (.returned (.error ⟨error, none⟩))

theorem whole_answer (backend : Config.Backend) (reply : Backend.Reply) :
    Whole (.returned (Backend.answer backend reply)) := by
  obtain ⟨status, body⟩ := reply
  rw [Backend.answer, Backend.read]
  split
  · rename_i error _
    exact .failure
  · rename_i payload hread
    split at hread
    · cases hread
    · split at hread
      · cases hread
      · split at hread <;> cases hread
        exact .data

theorem whole_of_yields_answer {given : Pipeline.Answer} {e : Ending}
    (hwhole : Whole (.returned given)) (h : Race.Yields (.answer given) e) : Whole e := by
  cases h with
  | answer => exact hwhole
  | further hnext _ => cases hnext

theorem whole_of_yields_failed {error : Pipeline.Error} {e : Ending}
    (h : Race.Yields (failed error) e) : Whole e :=
  whole_of_yields_answer .failure h

theorem whole_of_yields_wait {instant : Instant} {slept : Program} {error : Pipeline.Error}
    {e : Ending} (hslept : Race.Yields slept e → Whole e)
    (h : Race.Yields (.sleepOrEnd instant slept (failed error)) e) : Whole e := by
  cases h with
  | further hnext hrest =>
      cases hnext with
      | slept => exact hslept hrest
      | ended => exact whole_of_yields_failed hrest

/-- Whatever becomes of a call, the backend ends without data or with the whole data of a reply. -/
theorem whole_of_yields {network : Backend.Network} {backend : Config.Backend}
    {request : Pipeline.Request} {e : Ending}
    (h : Race.Yields (Backend.pipeline network backend request) e) : Whole e := by
  cases hcall : Backend.call backend request with
  | error fault =>
      simp only [Backend.pipeline, hcall] at h
      exact whole_of_yields_failed h
  | ok made =>
      cases hcontact : network made with
      | unreachable =>
          simp only [Backend.pipeline, hcall, hcontact] at h
          cases h with
          | further hnext hrest =>
              cases hnext
              exact whole_of_yields_wait whole_of_yields_failed hrest
      | silent =>
          rw [Backend.pipeline_of_silent hcall hcontact] at h
          cases h with
          | further hnext hrest =>
              cases hnext
              exact whole_of_yields_failed hrest
      | replied delay reply =>
          rw [Backend.pipeline_of_replied hcall hcontact] at h
          cases h with
          | further hnext hrest =>
              cases hnext
              apply whole_of_yields_wait _ hrest
              rw [Backend.answerOf_eq]
              exact whole_of_yields_answer (whole_answer backend reply)

/-! ### A request to an endpoint with a backend -/

namespace Handler

variable {h : Handler} {network : Backend.Network} {backend : Config.Backend} {start : Instant}
  {leaves : Option Instant}

theorem pipeline_eq (hbackend : h.endpoint.backend = some backend)
    (hpipeline : h.pipeline = Backend.pipelineOf network h.endpoint) :
    h.pipeline = Backend.pipeline network backend := by
  rw [hpipeline, Backend.pipelineOf, hbackend]

theorem invoke_not_cancelled (h : Handler) (start : Instant) (leaves : Option Instant)
    (request : Pipeline.Request) : (h.invoke start leaves request).scope.cancelled = false := by
  rw [invoke, Scope.ofTimeout]
  split <;> rfl

/-- A reply that is there in time ends the wait, whether one goes by the trace or by the moves. -/
theorem conclusion_of_reply {request : Pipeline.Request} {made : Backend.Call} {delay : Nat}
    {reply : Backend.Reply} (hpipeline : h.pipeline = Backend.pipeline network backend)
    (hcall : Backend.call backend request = .ok made)
    (hcontact : network made = .replied delay reply)
    (hdeadline : ∀ d, (h.invoke start leaves request).deadline = some d → start + delay < d)
    (hleaves : ∀ l, leaves = some l → start + delay < l) :
    (h.invoke start leaves request).conclusion =
      .ended (start + delay) (.ofAnswer (Backend.answer backend reply)) ∧
    ∀ moves r conclusion,
      (Race.ofInvocation (h.invoke start leaves request)).course leaves moves = some r →
      r.waiter.conclusion? = some conclusion →
      conclusion = .ended (start + delay) (.ofAnswer (Backend.answer backend reply)) := by
  have hprogram : (h.invoke start leaves request).program =
      Backend.pipeline network backend request := congrFun hpipeline request
  have hcancelled := h.invoke_not_cancelled start leaves request
  constructor
  · have hstop := Invocation.lt_stop_iff.2 ⟨hdeadline, hleaves⟩
    have hearly := Race.lt_of_endOf hcancelled (Nat.le_add_right start delay) hstop
    refine conclusion_of_ending (e := .returned (Backend.answer backend reply)) ?_ hdeadline hleaves
    rw [Invocation.trace, hprogram]
    exact Race.trace_of_punctual hcall hcontact hearly
  · intro moves r conclusion hcourse hover
    have hfetching : Race.Fetching start backend (.replied delay reply)
        (.ofInvocation (h.invoke start leaves request)) := by
      rw [← hcontact]
      apply Race.fetching_ofInvocation hprogram hcall
      intro hunreachable
      rw [hcontact] at hunreachable
      cases hunreachable
    have hpunctual : Race.Punctual start backend delay reply
        (h.invoke start leaves request).deadline (.ofInvocation (h.invoke start leaves request)) :=
      .waiting rfl hcancelled rfl (Nat.le_add_right start delay) hfetching rfl
        (Option.some_ne_none _)
    exact (hpunctual.of_course hdeadline hleaves hcourse).conclusion_eq hover

/-- A backend whose replies are exactly as long as they may be, and are shown as collections. -/
def tightBackend : Config.Backend :=
  { address := "127.0.0.1:9", path := "/", isCollection := true, maxResponseBytes := 2 }

/-- The reply is an empty array in two parts, and is there a nanosecond before the deadline. -/
def tightNetwork : Backend.Network :=
  fun _ => .replied 999999 ⟨299, [[91], [93]].map .data⟩

/-- An endpoint that asks that backend, under a timeout of one millisecond. -/
def tightHandler : Handler where
  endpoint := { endpoint := "/", timeoutMs := 1, backend := some tightBackend }
  maxBodySize := 0
  pipeline := Backend.pipeline tightNetwork tightBackend

end Handler

end Endpoint

end Gateway
