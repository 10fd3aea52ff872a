/-
Module: Gateway.Endpoint.Outcome
Layer: Endpoint
Purpose: How the handling of a request can end.
Main exports: Endpoint.Outcome, Endpoint.Outcome.ofAnswer, Endpoint.Outcome.kind
-/
import Gateway.Pipeline

namespace Gateway.Endpoint

/-- How the handling of a request ended. -/
inductive Outcome where
  /-- The pipeline answered without error, with or without a payload. -/
  | success (payload : Option Pipeline.Payload)
  /-- The pipeline failed but still produced data. -/
  | failedWithData (payload : Pipeline.Payload) (error : Pipeline.Error)
  /-- The pipeline, or the reading of the request, failed with nothing to show. -/
  | failed (error : Pipeline.Error)
  /-- The deadline passed before the pipeline answered. -/
  | timeout
  /-- The request was rejected before the pipeline was invoked. -/
  | methodNotAllowed
deriving Repr, BEq

namespace Outcome

/-- Classifies a pipeline's answer.  Empty gathered data counts as none. -/
def ofAnswer : Pipeline.Answer → Outcome
  | .ok payload => .success payload
  | .error ⟨error, some gathered⟩ =>
    if gathered.hasData then .failedWithData gathered error else .failed error
  | .error ⟨error, none⟩ => .failed error

/-- The label of an outcome in logs. -/
def kind : Outcome → String
  | .success _ => "success"
  | .failedWithData .. => "partial"
  | .failed _ => "error"
  | .timeout => "timeout"
  | .methodNotAllowed => "method_not_allowed"

end Outcome

end Gateway.Endpoint
