/-
Module: Gateway.Config.Rules
Layer: Config
Purpose: The rules of a configuration, each stated by itself.
Main exports: Config.Backend.Breaks, Config.Endpoint.Breaks, Config.Collides,
  Config.FirstColliding, Config.Endpoint.BreaksAfter, Config.Breaks, Config.Endpoint.Hides
-/
import Gateway.Config.Validation
import Gateway.Route.Grammar
import Gateway.Route.Matching

namespace Gateway.Config

/-!
Here a rule is broken or not, whatever else is wrong and wherever it would be reported.  Paths are
judged by the grammar of patterns, and collisions by the request paths that patterns stand for, so
that neither depends on how patterns are read or compared.
-/

/-- A text that opens with a slash. -/
def OpensWithSlash (text : String) : Prop :=
  ∃ rest, text.toList = '/' :: rest

/-- A rule that a backend breaks. -/
inductive Backend.Breaks (b : Backend) : BackendFault → Prop where
  | emptyAddress : b.address = "" → b.Breaks .emptyAddress
  | path : ¬ OpensWithSlash b.path → b.Breaks .path
  | method : Http.isToken b.method = false → b.Breaks .method

/-- A path that is written as the grammar asks. -/
def IsRoute (path : String) : Prop :=
  ∃ pattern : Route.Pattern, pattern.WellFormed ∧ path = pattern.text

/-- A rule that an endpoint breaks, taken alone. -/
inductive Endpoint.Breaks (e : Endpoint) : Violation → Prop where
  | path : ¬ OpensWithSlash e.endpoint → e.Breaks (.endpointPath e.endpoint)
  | pattern {fault : Route.PatternFault} :
      Route.PathBreaks e.endpoint fault → e.Breaks (.routePattern e.endpoint fault)
  | method : Http.isToken e.method = false → e.Breaks (.method e.endpoint e.method)
  | queryParam : "" ∈ e.queryString → e.Breaks (.emptyQueryParam e.endpoint)
  | header {name : String} :
      name ∈ e.headersToPass → Http.HeaderName.ofString? name = none →
        e.Breaks (.headerName e.endpoint name)
  | backend {b : Backend} {fault : BackendFault} :
      e.backend = some b → b.Breaks fault → e.Breaks (.backend e.endpoint fault)

/-- Two paths whose patterns stand for the same request paths. -/
def Collides (first second : String) : Prop :=
  ∃ p q : Route.Pattern, p.WellFormed ∧ q.WellFormed ∧ first = p.text ∧ second = q.text
    ∧ ∀ path, p.StandsFor path ↔ q.StandsFor path

/-- An endpoint is the first of a list that another one collides with. -/
def FirstColliding (endpoints : List Endpoint) (e first : Endpoint) : Prop :=
  ∃ earlier later, endpoints = earlier ++ first :: later
    ∧ (∀ d ∈ earlier, ¬ Collides d.endpoint e.endpoint) ∧ Collides first.endpoint e.endpoint

/-- A rule that an endpoint breaks, the endpoints listed before it being given. -/
inductive Endpoint.BreaksAfter (before : List Endpoint) (e : Endpoint) : Violation → Prop where
  | alone {v : Violation} : e.Breaks v → e.BreaksAfter before v
  /-- It is spelled like the first of those that it collides with. -/
  | duplicate {first : Endpoint} : FirstColliding before e first → first.endpoint = e.endpoint →
      e.BreaksAfter before (.duplicateEndpoint e.endpoint)
  /-- It is spelled otherwise than the first of those that it collides with. -/
  | conflict {first : Endpoint} : FirstColliding before e first → first.endpoint ≠ e.endpoint →
      e.BreaksAfter before (.conflictingEndpoint e.endpoint first.endpoint)

/-- A rule that a configuration breaks. -/
inductive Breaks (c : Config) : Violation → Prop where
  | bindAddress :
      SocketAddress.parse? c.listener.bindAddress = none →
        c.Breaks (.bindAddress c.listener.bindAddress)
  | endpoint {before after : List Endpoint} {e : Endpoint} {v : Violation} :
      c.endpoints = before ++ e :: after → e.BreaksAfter before v → c.Breaks v

/-! ### What is not reported -/

/-- The order in which the faults of a backend are looked for. -/
def BackendFault.rank : BackendFault → Nat
  | .emptyAddress => 0
  | .path => 1
  | .method => 2

/-- The first rule that a backend breaks. -/
def Backend.BreaksFirst (b : Backend) (fault : BackendFault) : Prop :=
  b.Breaks fault ∧ ∀ other, b.Breaks other → fault.rank ≤ other.rank

/-- A broken rule of an endpoint hides another one: a missing slash hides what is wrong with the
segments of the path, and the first fault of the path's segments, like the first fault of the
backend, hides the other ones. -/
inductive Endpoint.Hides (e : Endpoint) : Violation → Violation → Prop where
  | slash {fault : Route.PatternFault} : ¬ OpensWithSlash e.endpoint →
      e.Hides (.endpointPath e.endpoint) (.routePattern e.endpoint fault)
  | pattern {first fault : Route.PatternFault} :
      Route.PathBreaksFirst e.endpoint first → first ≠ fault →
        e.Hides (.routePattern e.endpoint first) (.routePattern e.endpoint fault)
  | backend {b : Backend} {first fault : BackendFault} :
      e.backend = some b → b.BreaksFirst first → first ≠ fault →
        e.Hides (.backend e.endpoint first) (.backend e.endpoint fault)

end Gateway.Config
