/-
Module: Gateway.Config.Validation
Layer: Config
Purpose: The rules that a configuration must keep, and the list of those that it breaks.
Main exports: Config.Violation, Config.Violation.kind, Config.Violation.message,
  Config.violations, Config.validate
-/
import Gateway.Config.Schema
import Gateway.Http.Header
import Gateway.Route.Pattern
import Gateway.SocketAddress

namespace Gateway.Config

/-!
Every rule is checked and every broken one is reported, endpoint by endpoint, except that a path and
a backend report only the first of their faults.  Two endpoints with routable paths collide when
their paths have one key; the later one is reported, with the first of that key.
-/

/-- What is wrong with a backend. -/
inductive BackendFault where
  | emptyAddress
  | path
  | method
deriving Repr, DecidableEq

/-- The wording of a fault. -/
def BackendFault.message : BackendFault → String
  | .emptyAddress => "address is empty"
  | .path => "path must start with '/'"
  | .method => "method is not a valid HTTP method"

/-- A broken rule. -/
inductive Violation where
  | bindAddress (address : String)
  | endpointPath (endpoint : String)
  | routePattern (endpoint : String) (fault : Route.PatternFault)
  | duplicateEndpoint (endpoint : String)
  | conflictingEndpoint (endpoint existing : String)
  | method (endpoint method : String)
  | emptyQueryParam (endpoint : String)
  | headerName (endpoint header : String)
  | backend (endpoint : String) (fault : BackendFault)
deriving Repr, DecidableEq

/-- The kind of a violation. -/
def Violation.kind : Violation → String
  | .bindAddress _ => "BindAddress"
  | .endpointPath _ => "EndpointPath"
  | .routePattern .. => "RoutePattern"
  | .duplicateEndpoint _ => "DuplicateEndpoint"
  | .conflictingEndpoint .. => "ConflictingEndpoint"
  | .method .. => "Method"
  | .emptyQueryParam _ => "EmptyQueryParam"
  | .headerName .. => "HeaderName"
  | .backend .. => "Backend"

/-- A text in single quotes. -/
def named (text : String) : String :=
  "'" ++ text ++ "'"

/-- The wording of a violation. -/
def Violation.message : Violation → String
  | .bindAddress address => "invalid bind address " ++ named address
  | .endpointPath endpoint => "endpoint " ++ named endpoint ++ " must start with '/'"
  | .routePattern endpoint fault =>
    "endpoint " ++ named endpoint ++ " is not a valid route: " ++ fault.message
  | .duplicateEndpoint endpoint =>
    "endpoint " ++ named endpoint ++ " is declared more than once"
  | .conflictingEndpoint endpoint existing =>
    "endpoint " ++ named endpoint ++ " conflicts with " ++ named existing
  | .method endpoint text =>
    "endpoint " ++ named endpoint ++ " has invalid method " ++ named text
  | .emptyQueryParam endpoint =>
    "endpoint " ++ named endpoint ++ " forwards an empty query parameter name"
  | .headerName endpoint header =>
    "endpoint " ++ named endpoint ++ " forwards invalid header " ++ named header
  | .backend endpoint fault =>
    "endpoint " ++ named endpoint ++ " has an invalid backend: " ++ fault.message

/-- Whether a text opens with a slash. -/
def opensWithSlash (text : String) : Bool :=
  text.toList.head? == some '/'

/-- Whether a text names a method. -/
def isMethod (text : String) : Bool :=
  Http.isToken text

/-- What is wrong with an endpoint's path, if anything. -/
def pathViolations (name : String) : List Violation :=
  if !opensWithSlash name then [.endpointPath name]
  else
    match Route.Pattern.parse name with
    | .error fault => [.routePattern name fault]
    | .ok _ => []

/-- The first fault of a backend. -/
def Backend.fault? (backend : Backend) : Option BackendFault :=
  if backend.address.isEmpty then some .emptyAddress
  else if !opensWithSlash backend.path then some .path
  else if !isMethod backend.method then some .method
  else none

/-- What is wrong with an endpoint taken alone. -/
def endpointViolations (e : Endpoint) : List Violation :=
  let name := e.endpoint
  pathViolations name
    ++ (if isMethod e.method then [] else [.method name e.method])
    ++ (if e.queryString.any String.isEmpty then [.emptyQueryParam name] else [])
    ++ (e.headersToPass.filter fun h => (Http.HeaderName.ofString? h).isNone).map (.headerName name)
    ++ ((e.backend.bind Backend.fault?).map (.backend name)).toList

/-- The shape of an endpoint's pattern, if it has one. -/
def Endpoint.shape? (e : Endpoint) : Option (List Route.Shape) :=
  (Route.Pattern.parse e.endpoint).toOption.map Route.Pattern.shape

/-- Whether an endpoint's path can be registered as a route. -/
def Endpoint.isRoutable (e : Endpoint) : Bool :=
  (pathViolations e.endpoint).isEmpty

/-- The key of an endpoint's path. -/
def Endpoint.key (e : Endpoint) : String :=
  Route.routeKey e.endpoint

/-- The keys met so far, each with the first routable path that has it. -/
abbrev SeenRoutes := List (String × String)

/-- Whether an endpoint collides with one met before, and the keys met after it. -/
def collision (seen : SeenRoutes) (e : Endpoint) : List Violation × SeenRoutes :=
  if !e.isRoutable then ([], seen)
  else
    match seen.lookup e.key with
    | none => ([], seen ++ [(e.key, e.endpoint)])
    | some existing =>
      if existing = e.endpoint then ([.duplicateEndpoint e.endpoint], seen)
      else ([.conflictingEndpoint e.endpoint existing], seen)

/-- What is wrong with a list of endpoints, those met before given by their keys. -/
def endpointsViolations (seen : SeenRoutes) : List Endpoint → List Violation
  | [] => []
  | e :: rest =>
    endpointViolations e ++ (collision seen e).1 ++ endpointsViolations (collision seen e).2 rest

/-- Every violation of a configuration, in the order in which they are found. -/
def violations (c : Config) : List Violation :=
  (if (SocketAddress.parse? c.listener.bindAddress).isNone then
    [.bindAddress c.listener.bindAddress] else [])
    ++ endpointsViolations [] c.endpoints

/-- Accepts a configuration that breaks no rule. -/
def validate (c : Config) : Except (List Violation) Unit :=
  if (violations c).isEmpty then .ok () else .error (violations c)

end Gateway.Config
