/-
Module: Gateway.Http.Message
Layer: Http
Purpose: Requests with streamed bodies, responses, and the bounded reading of a body.
Main exports: Http.BodyPart, Http.BodyFault, Http.collectBody, Http.Request, Http.Response
-/
import Gateway.Http.Header
import Gateway.Http.Uri

namespace Gateway.Http

/-- What a body stream yields next. -/
inductive BodyPart where
  | data (bytes : List UInt8)
  /-- The stream breaks off, for a stated reason. -/
  | failure (reason : String)
deriving Repr, DecidableEq

/-- Why a body could not be read. -/
inductive BodyFault where
  | tooLong
  | broken (reason : String)
deriving Repr, DecidableEq

/-- The wording of a fault. -/
def BodyFault.message : BodyFault → String
  | .tooLong => "length limit exceeded"
  | .broken reason => reason

/-- Reads a stream to its end, at most `limit` bytes.  Reading stops at the first part that passes
the limit or breaks the stream, whichever comes first. -/
def collectBody (limit : Nat) : List BodyPart → Except BodyFault (List UInt8)
  | [] => .ok []
  | .failure reason :: _ => .error (.broken reason)
  | .data bytes :: rest =>
    if limit < bytes.length then .error .tooLong
    else (bytes ++ ·) <$> collectBody (limit - bytes.length) rest

/-- A request whose body is still to be read. -/
structure Request where
  method : Method
  uri : Uri
  headers : Headers
  body : List BodyPart
deriving Repr

/-- A response with its whole body. -/
structure Response where
  status : Nat
  headers : Headers
  body : List UInt8
deriving Repr, DecidableEq

end Gateway.Http
