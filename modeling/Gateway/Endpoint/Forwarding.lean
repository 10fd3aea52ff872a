/-
Module: Gateway.Endpoint.Forwarding
Layer: Endpoint
Purpose: Picking the allow-listed part of a request.
Main exports: Endpoint.AllowList, Endpoint.AllowList.forwardQuery,
  Endpoint.AllowList.forwardHeaders, Endpoint.AllowList.forward
-/
import Gateway.Pipeline
import Gateway.Http.Form

namespace Gateway.Endpoint

/-!
Forwarding walks the configured names and never the incoming ones, so that nothing passes which was
not named.  Every occurrence of a name is kept in its order; a name that does not occur has no
entry.
-/

/-- The names that an endpoint forwards, and the largest body that it reads. -/
structure AllowList where
  query : List String
  headers : List Http.HeaderName
  maxBodySize : Nat
deriving Repr

namespace AllowList

/-- The allow-list of configured spellings; those that are no header name are left out. -/
def ofNames (query headers : List String) (maxBodySize : Nat) : AllowList where
  query := query
  headers := headers.filterMap Http.HeaderName.ofString?
  maxBodySize := maxBodySize

/-- All values of a name, in their order. -/
def valuesOf (name : String) (pairs : List (String × String)) : List String :=
  (pairs.filter (·.1 == name)).map (·.2)

/-- Puts the values of a name into a map, unless there are none. -/
def insertValues (m : SortedMap (List String)) (name : String) (values : List String) :
    SortedMap (List String) :=
  if values.isEmpty then m else m.insert name values

/-- The forwarded query parameters of a raw query string. -/
def forwardQuery (allowed : AllowList) (raw : Option String) : SortedMap (List String) :=
  let pairs := Http.Form.parseText (raw.getD "")
  allowed.query.foldl (fun m name => insertValues m name (valuesOf name pairs)) {}

/-- The forwarded headers, their values read as text. -/
def forwardHeaders (allowed : AllowList) (headers : Http.Headers) : SortedMap (List String) :=
  allowed.headers.foldl
    (fun m name => insertValues m name.text ((headers.values name).map (·.text))) {}

/-- The pipeline request of a transport request, once its body has been read. -/
def forward (allowed : AllowList) (request : Http.Request) :
    Except Pipeline.Error Pipeline.Request :=
  match Http.collectBody allowed.maxBodySize request.body with
  | .error fault => .error (.body fault)
  | .ok body => .ok {
      method := request.method.text
      path := request.uri.path
      query := allowed.forwardQuery request.uri.query
      headers := allowed.forwardHeaders request.headers
      body := body }

end AllowList

end Gateway.Endpoint
