/-
Module: Gateway.Backend
Layer: Backend
Purpose: The pipeline that asks one backend server.
Main exports: Backend.Contact, Backend.Network, Backend.pipeline
-/
import Gateway.Backend.Call
import Gateway.Backend.Reply
import Gateway.Pipeline.Program

namespace Gateway.Backend

/-- What becomes of a call. -/
inductive Contact where
  /-- There is no server at the address. -/
  | unreachable
  /-- The server takes the call and never replies. -/
  | silent
  /-- The whole reply is there after some time, given in nanoseconds. -/
  | replied (delay : Nat) (reply : Reply)
deriving Repr, DecidableEq

/-- The servers that can be called. -/
abbrev Network := Call → Contact

/-- A network in which nobody can be reached. -/
def Network.empty : Network :=
  fun _ => .unreachable

/-- A failure without data. -/
def failed (error : Pipeline.Error) : Pipeline.Program :=
  .answer (.error ⟨error, none⟩)

/-- The answer to a reply. -/
def answerOf (backend : Config.Backend) (reply : Reply) : Pipeline.Program :=
  match read backend reply with
  | .error error => failed error
  | .ok payload => .answer (.ok (some payload))

/-- The pipeline of a backend: it calls the server, and gives up if the scope ends before it is
known what becomes of the call.  A request that no call can be made of is answered before anything
is waited for, so the end of the scope is not looked at then.  Where the scope has ended by the time
the pipeline starts, nothing orders the two, and giving up would be as good an answer. -/
def pipeline (network : Network) (backend : Config.Backend) : Pipeline := fun request =>
  match call backend request with
  | .error fault => failed (.invalidRequest fault)
  | .ok made =>
    match network made with
    | .unreachable => .inspect fun seen =>
        .sleepOrEnd seen.now (failed (.call .connect)) (failed .cancelled)
    | .silent => .awaitEnd (failed .cancelled)
    | .replied delay reply => .inspect fun seen =>
        .sleepOrEnd (seen.now + delay) (answerOf backend reply) (failed .cancelled)

/-- The pipeline of an endpoint: its backend's, or the idle one. -/
def pipelineOf (network : Network) (endpoint : Config.Endpoint) : Pipeline :=
  match endpoint.backend with
  | some backend => pipeline network backend
  | none => .idle

end Gateway.Backend
