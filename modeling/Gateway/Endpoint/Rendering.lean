/-
Module: Gateway.Endpoint.Rendering
Layer: Endpoint
Purpose: The response to each outcome.
Main exports: Endpoint.cacheControl, Endpoint.render, Endpoint.withBanner
-/
import Gateway.Endpoint.Outcome
import Gateway.Json.Printer

namespace Gateway.Endpoint

/-!
| outcome                     | status | body                  | completed | caching           |
|-----------------------------|--------|-----------------------|-----------|-------------------|
| method not allowed          | 405    | an empty line         |           |                   |
| timeout                     | 500    | generic error         | false     |                   |
| success, complete, has data | 200    | the data              | true      | if the ttl is > 0 |
| success, anything else      | 200    | the data, or `{}`     | false     |                   |
| failure with data           | 200    | the data              | false     |                   |
| failure                     | 500    | the error's wording   |           |                   |

Text bodies end with a line break.
-/

open Http

def contentType : HeaderName := ⟨"content-type", by decide +kernel⟩
def contentTypeOptions : HeaderName := ⟨"x-content-type-options", by decide +kernel⟩
def cacheControlName : HeaderName := ⟨"cache-control", by decide +kernel⟩
def completedName : HeaderName := ⟨"x-edge-gateway-completed", by decide +kernel⟩
def bannerName : HeaderName := ⟨"x-edge-gateway", by decide +kernel⟩

/-- The version of this gateway. -/
def version : String := "0.1.0"

/-- A header value whose text is known to be admissible; any other text would leave it empty. -/
def fixedValue (text : String) : HeaderValue :=
  (HeaderValue.ofString? text).getD ⟨[], rfl⟩

/-- The identification banner. -/
def bannerValue : HeaderValue :=
  fixedValue ("Version " ++ version)

/-- A cache lifetime. -/
structure Lifetime where
  seconds : Nat
  nanoseconds : Nat
deriving Repr, DecidableEq

/-- The caching header's value for a lifetime: whole seconds, and nothing for a lifetime of zero. -/
def cacheControl (ttl : Lifetime) : Option HeaderValue :=
  if ttl.seconds = 0 ∧ ttl.nanoseconds = 0 then none
  else HeaderValue.ofString? ("public, max-age=" ++ toString ttl.seconds)

/-- A response whose body is a line of text. -/
def textResponse (status : Nat) (message : String) : Response where
  status := status
  headers := [(contentType, fixedValue "text/plain; charset=utf-8"),
    (contentTypeOptions, fixedValue "nosniff")]
  body := Utf8.encode (message ++ "\n")

/-- A response whose body is a data mapping. -/
def dataResponse (data : Json.Fields) (complete : Bool) (caching : Option HeaderValue) :
    Response where
  status := 200
  headers := [(contentType, fixedValue "application/json"),
    (completedName, fixedValue (if complete then "true" else "false"))]
    ++ (caching.map ((cacheControlName, ·))).toList
  body := Utf8.encode (Json.object data).print

/-- The body of the response to a missed deadline. -/
def internalError : String := "internal server error"

/-- The response to an outcome; `caching` is the caching header's value for complete data. -/
def render (outcome : Outcome) (caching : Option HeaderValue) : Response :=
  match outcome with
  | .methodNotAllowed => textResponse 405 ""
  | .timeout =>
    let response := textResponse 500 internalError
    { response with headers := response.headers.set completedName (fixedValue "false") }
  | .failed error => textResponse 500 error.text
  | .failedWithData payload _ => dataResponse payload.data false none
  | .success (some payload) =>
    let complete := payload.complete && payload.hasData
    dataResponse payload.data complete (if complete then caching else none)
  | .success none => dataResponse [] false none

/-- Adds the identification banner. -/
def withBanner (response : Response) : Response :=
  { response with headers := response.headers.set bannerName bannerValue }

end Gateway.Endpoint
