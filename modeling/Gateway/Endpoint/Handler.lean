/-
Module: Gateway.Endpoint.Handler
Layer: Endpoint
Purpose: Serving requests to one endpoint.
Main exports: Endpoint.methodAllowed, Endpoint.Handler, Endpoint.Handler.receive,
  Endpoint.Handler.respond, Endpoint.Handler.handle, Endpoint.Reply
-/
import Gateway.Config.Schema
import Gateway.Endpoint.Forwarding
import Gateway.Endpoint.Invocation
import Gateway.Endpoint.Rendering
import Gateway.Journal

namespace Gateway.Endpoint

/-!
A request passes the method guard, is read into a pipeline request, and is then handed to the
pipeline.  A request that is turned away before that never reaches the pipeline.  Every response
carries the banner and is counted; a request whose client went away gets no response and is not
counted.
-/

/-- Whether an endpoint for the configured method serves a request's method.  Case matters, and
`HEAD` is not implied by `GET`. -/
def methodAllowed (configured : String) (method : Http.Method) : Bool :=
  method.text == configured

/-- Serves one endpoint. -/
structure Handler where
  endpoint : Config.Endpoint
  maxBodySize : Nat
  pipeline : Pipeline

/-- What a client gets. -/
inductive Reply where
  | answered (instant : Instant) (response : Http.Response)
  /-- The client went away. -/
  | abandoned (instant : Instant)
  /-- The client waits for ever. -/
  | unending
deriving Repr

/-- What a client gets, and what happened meanwhile. -/
structure Handling where
  reply : Reply
  journal : List Journal.Stamped

/-- Why a request is turned away before it reaches the pipeline. -/
inductive Rejection where
  | methodNotAllowed
  | unreadable (error : Pipeline.Error)
deriving Repr, DecidableEq

/-- The outcome of a request that is turned away. -/
def Rejection.outcome : Rejection → Outcome
  | .methodNotAllowed => .methodNotAllowed
  | .unreadable error => .failed error

namespace Handler

/-- The allow-list of the endpoint. -/
def allowed (h : Handler) : AllowList :=
  .ofNames h.endpoint.queryString h.endpoint.headersToPass h.maxBodySize

/-- The caching header of complete data. -/
def caching (h : Handler) : Option Http.HeaderValue :=
  cacheControl ⟨h.endpoint.cacheTtlSecs, 0⟩

/-- The timeout in nanoseconds. -/
def timeout (h : Handler) : Nat :=
  h.endpoint.timeoutMs * millisecond

/-- The pipeline request of a request, unless it is turned away. -/
def receive (h : Handler) (request : Http.Request) : Except Rejection Pipeline.Request :=
  if !methodAllowed h.endpoint.method request.method then .error .methodNotAllowed
  else
    match h.allowed.forward request with
    | .error error => .error (.unreadable error)
    | .ok forwarded => .ok forwarded

/-! ### Records -/

/-- A record of this endpoint. -/
def record (h : Handler) (level : Log.Level) (message : String)
    (fields : List (String × String)) : Log.Record :=
  { level, message, target := "edge_gateway::http::handler",
    fields := ("endpoint", h.endpoint.endpoint) :: fields }

/-- The record of a request that is turned away. -/
def rejectionRecord (h : Handler) (method : Http.Method) : Rejection → Log.Record
  | .methodNotAllowed => h.record .debug "Method not allowed"
      [("method", method.text), ("expected", h.endpoint.method)]
  | .unreadable error => h.record .warn "Failed to read request" [("error", error.text)]

/-- The record of an invocation's outcome. -/
def outcomeRecord (h : Handler) : Outcome → Log.Record
  | .timeout => h.record .warn "Pipeline did not answer before the deadline"
      [("timeout_ms", toString h.endpoint.timeoutMs)]
  | .failedWithData _ error => h.record .warn "Pipeline failed, serving partial data"
      [("error", error.text)]
  | .failed error => h.record .error "Pipeline failed" [("error", error.text)]
  | outcome => h.record .debug "Pipeline answered" [("outcome", outcome.kind)]

/-- The record of an answer that nobody waited for. -/
def droppedRecord : Log.Record where
  level := .debug
  target := "edge_gateway::pipeline::invoker"
  message := "Pipeline finished after the handler stopped waiting; result dropped"
  fields := []

/-! ### Handling -/

/-- The response to an outcome, with the banner. -/
def respond (h : Handler) (outcome : Outcome) : Http.Response :=
  withBanner (render outcome h.caching)

/-- What is counted for a response. -/
def answerCounts (h : Handler) (method : Http.Method) (response : Http.Response) :
    List Metrics.Series :=
  [.requests h.endpoint.endpoint method.text response.status, .durations h.endpoint.endpoint]

/-- What is counted for an invocation's outcome. -/
def outcomeCounts (h : Handler) : Outcome → List Metrics.Series
  | .timeout => [.timeouts h.endpoint.endpoint]
  | _ => []

/-- What happens to a request that is turned away. -/
def reject (h : Handler) (method : Http.Method) (start : Instant) (rejection : Rejection) :
    Handling :=
  let response := withBanner (render rejection.outcome none)
  { reply := .answered start response
    journal := (.log (h.rejectionRecord method rejection)
      :: (h.answerCounts method response).map .count).map fun e => ⟨⟨start, .clock⟩, e⟩ }

/-- The invocation of the pipeline. -/
def invoke (h : Handler) (start : Instant) (leaves : Option Instant)
    (request : Pipeline.Request) : Invocation where
  start := start
  scope := .ofTimeout start h.timeout
  leaves := leaves
  program := h.pipeline request

/-- What the pipeline leaves behind: its notes, and a record if its answer came too late. -/
def pipelineJournal (path : String) (inv : Invocation) : List Journal.Stamped :=
  inv.trace.notes.map (fun n => ⟨⟨n.1, .pipeline⟩, .note path n.2⟩)
    ++ match inv.late? with
      | some (instant, .returned _) => [⟨⟨instant, .pipeline⟩, .log droppedRecord⟩]
      | _ => []

/-- Whose turn it is when a wait ends: the clock's if it ends with the deadline. -/
def turnOf : Outcome → Journal.Turn
  | .timeout => .clock
  | _ => .reply

/-- What happens to a request that reaches the pipeline. -/
def conclude (h : Handler) (method : Http.Method) (conclusion : Conclusion) : Handling :=
  match conclusion with
  | .ended instant outcome =>
    let response := h.respond outcome
    { reply := .answered instant response
      journal := (.log (h.outcomeRecord outcome)
        :: (h.outcomeCounts outcome ++ h.answerCounts method response).map .count).map
          fun e => ⟨⟨instant, turnOf outcome⟩, e⟩ }
  | .abandoned instant => ⟨.abandoned instant, []⟩
  | .unending => ⟨.unending, []⟩

/-- Handles a request that arrives at `start`, whose client waits until `leaves`. -/
def handle (h : Handler) (start : Instant) (leaves : Option Instant) (request : Http.Request) :
    Handling :=
  match h.receive request with
  | .error rejection => h.reject request.method start rejection
  | .ok forwarded =>
    let inv := h.invoke start leaves forwarded
    let handling := h.conclude request.method inv.conclusion
    { handling with journal := handling.journal ++ pipelineJournal forwarded.path inv }

end Handler

end Gateway.Endpoint
