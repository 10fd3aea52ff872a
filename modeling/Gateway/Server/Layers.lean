/-
Module: Gateway.Server.Layers
Layer: Server
Purpose: A server as its routes with the layers around them that see to the identifiers of requests.
Main exports: Server.Service, Server.setId, Server.repeatId, Server.propagateId, Server.routes,
  Server.layered
-/
import Gateway.Server

namespace Gateway.Server

open Endpoint (Handling Reply)

/-!
Three layers stand around all routes, and around the answer to requests that no route leads
anywhere.  The outermost gives an identifier to a request that brought none.  The next one watches
requests and responses pass and changes neither, so it has no part here.  The innermost looks at the
identifier of the request before it hands the request on, and puts it on the response, unless the
response has one by then.
-/

/-- What serves requests. -/
abbrev Service := Http.Request → Handling

/-- A reply with its response changed, if there is one. -/
def mapResponse (change : Http.Response → Http.Response) : Reply → Reply
  | .answered instant response => .answered instant (change response)
  | reply => reply

/-- Gives a fresh identifier to a request without one. -/
def setId (freshId : Http.HeaderValue) (inner : Service) : Service := fun request =>
  match request.headers.first? requestId with
  | some _ => inner request
  | none => inner { request with headers := request.headers ++ [(requestId, freshId)] }

/-- Puts an identifier on a response, unless there is none or the response has one. -/
def repeatId (id? : Option Http.HeaderValue) (response : Http.Response) : Http.Response :=
  match id?, response.headers.first? requestId with
  | some id, none => { response with headers := response.headers ++ [(requestId, id)] }
  | _, _ => response

/-- Repeats the identifier of a request on its response. -/
def propagateId (inner : Service) : Service := fun request =>
  let handling := inner request
  { handling with
    reply := mapResponse (repeatId (request.headers.first? requestId)) handling.reply }

/-- The routes alone, for a request that arrives at `start` and a client of that patience. -/
def routes (server : Server) (start : Instant) (patience : Option Nat) : Service := fun request =>
  match server.router.find? request.uri.path with
  | none => ⟨.answered start notFound, []⟩
  | some handler =>
    let handling := handler.handle start (patience.map (start + ·)) request
    { handling with reply := mapResponse (·.framed request.method) handling.reply }

/-- The routes with the layers around them. -/
def layered (server : Server) (start : Instant) (visit : Visit) : Handling :=
  setId visit.freshId (propagateId (server.routes start visit.patience)) visit.request

end Gateway.Server
