/-
Module: Gateway.Pipeline
Layer: Pipeline
Purpose: What an endpoint hands to its backend pipeline, and what the pipeline answers.
Main exports: Pipeline.Request, Pipeline.Payload, Pipeline.Error, Pipeline.Error.text,
  Pipeline.Failure, Pipeline.Answer
-/
import Gateway.Http.Message
import Gateway.Json.Reader

namespace Gateway.Pipeline

/-!
A pipeline receives the allow-listed part of a request and answers with a payload, with no payload,
or with an error.  Error and completeness are independent: an error may come with the data gathered
before it, and a payload may be marked incomplete without any error.
-/

/-- Why a request to a backend server could not be built. -/
inductive RequestFault where
  | method
  | uri (fault : Http.UriFault)
  | headerName
  | headerValue
deriving Repr, DecidableEq

/-- The wording of a fault. -/
def RequestFault.message : RequestFault → String
  | .method => "invalid HTTP method"
  | .uri fault => fault.message
  | .headerName => "invalid HTTP header name"
  | .headerValue => "failed to parse header value"

/-- Why a call to a backend server broke off. -/
inductive CallFault where
  /-- No connection could be established. -/
  | connect
deriving Repr, DecidableEq

/-- The wording of a fault. -/
def CallFault.message : CallFault → String
  | .connect => "client error (Connect)"

/-- A pipeline error. -/
inductive Error where
  | message (text : String)
  | cancelled
  | aborted
  | backendStatus (status : Nat)
  | call (fault : CallFault)
  | invalidRequest (fault : RequestFault)
  | body (fault : Http.BodyFault)
  | decode (refusal : Json.Refusal)
  | encode (refusal : Json.Refusal)
deriving Repr, DecidableEq

/-- The wording of an error: what a client sees when there is no data to show. -/
def Error.text : Error → String
  | .message text => text
  | .cancelled => "context canceled"
  | .aborted => "pipeline task aborted"
  | .backendStatus status => "upstream responded with status " ++ toString status
  | .call fault => "upstream request failed: " ++ fault.message
  | .invalidRequest fault => "invalid upstream request: " ++ fault.message
  | .body fault => "reading body failed: " ++ fault.message
  | .decode refusal => "invalid upstream payload: " ++ refusal.message
  | .encode refusal => "encoding response failed: " ++ refusal.message

/-- The part of a request that the pipeline sees.  Query parameters are keyed by configured name,
headers by lower-case name; either keeps all values of a name in their order. -/
structure Request where
  method : String
  path : String
  query : SortedMap (List String)
  headers : SortedMap (List String)
  body : List UInt8
deriving Repr, DecidableEq, Inhabited

/-- Data that a pipeline produced, and whether every expected piece of it was gathered. -/
structure Payload where
  complete : Bool
  data : Json.Fields
deriving Repr, BEq

/-- Whether there is anything to show. -/
def Payload.hasData (payload : Payload) : Bool :=
  !payload.data.isEmpty

/-- A pipeline error, with the data gathered before it. -/
structure Failure where
  error : Error
  gathered : Option Payload
deriving Repr, BEq

/-- What a pipeline answers; `.ok none` is an answer of its own, distinct from an empty payload. -/
abbrev Answer := Except Failure (Option Payload)

end Gateway.Pipeline
