/-
Module: Gateway.Metrics
Layer: Observability
Purpose: What the gateway counts.
Main exports: Metrics.Series, Metrics.Series.name, Metrics.tally
-/
namespace Gateway.Metrics

/-!
Each series counts one kind of thing that happened.  A series that never counted anything does not
show up.
-/

/-- A series of counts. -/
inductive Series where
  /-- Requests answered by an endpoint, by method and status. -/
  | requests (endpoint method : String) (status : Nat)
  /-- Measured durations of an endpoint's answers. -/
  | durations (endpoint : String)
  /-- Deadlines that an endpoint's pipeline missed. -/
  | timeouts (endpoint : String)
deriving Repr, DecidableEq

/-- A label of a series. -/
def label (name value : String) : String :=
  name ++ "=" ++ value

/-- The name of a series, its labels in alphabetical order. -/
def Series.name : Series → String
  | .requests endpoint method status =>
    "gateway_requests_total\x7b" ++ label "endpoint" endpoint ++ "," ++ label "method" method
      ++ "," ++ label "status" (toString status) ++ "\x7d"
  | .durations endpoint =>
    "gateway_request_duration_seconds\x7b" ++ label "endpoint" endpoint ++ "\x7d"
  | .timeouts endpoint =>
    "gateway_pipeline_timeouts_total\x7b" ++ label "endpoint" endpoint ++ "\x7d"

/-- How often each series counted, one entry for every series that occurs. -/
def tally (counted : List Series) : List (Series × Nat) :=
  counted.eraseDups.map fun series => (series, counted.count series)

end Gateway.Metrics
