/-
Module: Gateway.Backend.Call
Layer: Backend
Purpose: The request that is made to the server behind an endpoint.
Main exports: Backend.Call, Backend.target, Backend.call
-/
import Gateway.Config.Schema
import Gateway.Http.Form
import Gateway.Pipeline

namespace Gateway.Backend

/-!
The call takes its method, server and path from the configuration, and its query, headers and body
from the pipeline request.  Names are written in ascending order, the values of a name in the order
in which they came.  Of several faults the first is reported: the method's, the target's, then those
of the headers, a name before its value.
-/

/-- A request to a backend server. -/
structure Call where
  method : Http.Method
  uri : Http.Uri
  headers : Http.Headers
  body : List UInt8
deriving Repr, DecidableEq

/-- The entries of a map of lists, one for each value. -/
def flatten (m : SortedMap (List String)) : List (String × String) :=
  m.entries.flatMap fun (name, values) => values.map (name, ·)

/-- The written query of a pipeline request. -/
def queryText (request : Pipeline.Request) : String :=
  Http.Form.print (flatten request.query)

/-- The address of a call; a query that is empty leaves no question mark. -/
def target (backend : Config.Backend) (request : Pipeline.Request) : String :=
  "http://" ++ backend.address ++ backend.path
    ++ (if (queryText request).isEmpty then "" else "?" ++ queryText request)

/-- A header of a call. -/
def headerOf (field : String × String) :
    Except Pipeline.RequestFault (Http.HeaderName × Http.HeaderValue) :=
  match Http.HeaderName.ofString? field.1 with
  | none => .error .headerName
  | some name =>
    match Http.HeaderValue.ofString? field.2 with
    | none => .error .headerValue
    | some value => .ok (name, value)

/-- The headers of a call. -/
def headersOf : List (String × String) → Except Pipeline.RequestFault Http.Headers
  | [] => .ok []
  | field :: rest =>
    match headerOf field with
    | .error fault => .error fault
    | .ok header => (header :: ·) <$> headersOf rest

/-- The call that a pipeline request leads to. -/
def call (backend : Config.Backend) (request : Pipeline.Request) :
    Except Pipeline.RequestFault Call :=
  match Http.Method.ofString? backend.method with
  | none => .error .method
  | some method =>
    match Http.Uri.parse (target backend request) with
    | .error fault => .error (.uri fault)
    | .ok uri =>
      match headersOf (flatten request.headers) with
      | .error fault => .error fault
      | .ok headers => .ok ⟨method, uri, headers, request.body⟩

end Gateway.Backend
