/-
Module: Gateway.Http.Framing
Layer: Http
Purpose: What a response looks like once it leaves for the client.
Main exports: Http.contentLength, Http.Response.framed
-/
import Gateway.Http.Message
import Gateway.Http.Method

namespace Gateway.Http

/-!
A response states the length of its body.  The answer to a `HEAD` request states the length of the
body that it leaves out, and a successful answer to `CONNECT` has neither body nor length, because
what follows it belongs to the tunnel.
-/

def contentLength : HeaderName := ⟨"content-length", by decide +kernel⟩

/-- Whether a status stands for success. -/
def isSuccess (status : Nat) : Bool :=
  200 ≤ status && status < 300

/-- A response to a request with the given method, ready to be sent. -/
def Response.framed (response : Response) (method : Method) : Response :=
  if method = .connect ∧ isSuccess response.status then { response with body := [] }
  else
    { response with
      headers := response.headers
        ++ ((HeaderValue.ofString? (toString response.body.length)).map
          ((contentLength, ·))).toList
      body := if method = .head then [] else response.body }

end Gateway.Http
