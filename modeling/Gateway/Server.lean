/-
Module: Gateway.Server
Layer: Server
Purpose: All endpoints of a configuration behind one router.
Main exports: Server, Server.build, Server.BuildFault, Server.handle
-/
import Gateway.Config.Validation
import Gateway.Endpoint.Handler
import Gateway.Http.Framing
import Gateway.Route.Router

namespace Gateway

/-!
A server is built from a valid configuration only, with a handler for every endpoint.  The router
knows paths and nothing of methods: a request with the wrong method is the handler's to refuse.

Every request has an identifier, its own or a fresh one.  The identifier is set before the request
is routed, so an endpoint that forwards it forwards the very identifier that the response repeats.
-/

/-- A server: its configuration, and the handlers of its endpoints behind a router. -/
structure Server where
  config : Config
  router : Route.Router Endpoint.Handler

namespace Server

/-- Why a server is not built. -/
inductive BuildFault where
  | invalid (violations : List Config.Violation)
  | route (fault : Route.RouteFault)
deriving Repr, DecidableEq

/-- The handlers of a configuration's endpoints, each under its route. -/
def handlers (config : Config) (pipelineOf : Config.Endpoint → Pipeline) :
    List (String × Endpoint.Handler) :=
  config.endpoints.map fun e =>
    (e.endpoint, ⟨e, config.security.maxBodySize, pipelineOf e⟩)

/-- The server of a configuration, with a pipeline for every endpoint. -/
def build (config : Config) (pipelineOf : Config.Endpoint → Pipeline) :
    Except BuildFault Server :=
  match config.validate with
  | .error violations => .error (.invalid violations)
  | .ok () =>
    match Route.Router.ofList (handlers config pipelineOf) with
    | .error fault => .error (.route fault)
    | .ok router => .ok ⟨config, router⟩

/-- The records of building a server, one for each endpoint. -/
def registrations (config : Config) : List Log.Record :=
  config.endpoints.map fun e =>
    { level := .info
      target := "edge_gateway::http::server"
      message := "Registering endpoint"
      fields := [("endpoint", e.endpoint), ("method", e.method),
        ("timeout_ms", toString e.timeoutMs), ("cache_ttl_secs", toString e.cacheTtlSecs)] }

/-! ### Serving -/

def requestId : Http.HeaderName := ⟨"x-request-id", by decide +kernel⟩

/-- A request to the server. -/
structure Visit where
  request : Http.Request
  /-- The identifier that the request gets if it has none. -/
  freshId : Http.HeaderValue
  /-- How long the client waits, in nanoseconds. -/
  patience : Option Nat := none

/-- The identifier of a visit. -/
def Visit.id (visit : Visit) : Http.HeaderValue :=
  (visit.request.headers.first? requestId).getD visit.freshId

/-- The request with its identifier. -/
def Visit.identified (visit : Visit) : Http.Request :=
  if (visit.request.headers.first? requestId).isSome then visit.request
  else { visit.request with
    headers := visit.request.headers ++ [(requestId, visit.freshId)] }

/-- A response that repeats an identifier. -/
def withId (id : Http.HeaderValue) (response : Http.Response) : Http.Response :=
  { response with headers := response.headers.set requestId id }

/-- The response to a request that no route leads anywhere. -/
def notFound : Http.Response where
  status := 404
  headers := []
  body := []

/-- What a client gets of a handler's reply. -/
def deliver (visit : Visit) : Endpoint.Reply → Endpoint.Reply
  | .answered instant response =>
    .answered instant (withId visit.id (response.framed visit.request.method))
  | reply => reply

/-- Serves a visit that begins at `start`. -/
def handle (server : Server) (start : Instant) (visit : Visit) : Endpoint.Handling :=
  match server.router.find? visit.request.uri.path with
  | none => ⟨.answered start (withId visit.id notFound), []⟩
  | some handler =>
    let handling := handler.handle start (visit.patience.map (start + ·)) visit.identified
    { handling with reply := deliver visit handling.reply }

end Server

end Gateway
