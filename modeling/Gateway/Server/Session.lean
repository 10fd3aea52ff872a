/-
Module: Gateway.Server.Session
Layer: Server
Purpose: Serving one group of visits after the other.
Main exports: Server.Round, Server.round, Server.session
-/
import Gateway.Server

namespace Gateway.Server

/-!
Visits of one group begin together.  The next group begins once all of them are over and a pause has
passed in which pipelines that nobody waits for may come to their end.  What a pipeline does after
that shows up in a later round.
-/

/-- The end of a reply, or its beginning if there is no end. -/
def endOf (start : Instant) : Endpoint.Reply → Instant
  | .answered instant _ => instant
  | .abandoned instant => instant
  | .unending => start

/-- What happened from the beginning of a group of visits to the beginning of the next. -/
structure Round where
  start : Instant
  replies : List Endpoint.Reply
  entries : List Journal.Entry

/-- A moment between two groups: the time, and what is still to happen. -/
structure Moment where
  now : Instant
  ahead : List Journal.Stamped

/-- Serves one group of visits, and pauses. -/
def round (server : Server) (pause : Nat) (since : Moment) (visits : List Visit) :
    Round × Moment :=
  let handlings := visits.map (server.handle since.now)
  let replies := handlings.map (·.reply)
  let horizon := (replies.map (endOf since.now)).foldl max since.now + pause
  let entries := Journal.merge (since.ahead ++ (handlings.map (·.journal)).flatten)
  ({ start := since.now
     replies
     entries := (entries.filter (·.stamp.instant ≤ horizon)).map (·.entry) },
   ⟨horizon, entries.filter (horizon < ·.stamp.instant)⟩)

/-- Serves groups of visits, one after the other. -/
def session (server : Server) (pause : Nat) (since : Moment) : List (List Visit) → List Round
  | [] => []
  | visits :: rest =>
    let (round, next) := server.round pause since visits
    round :: server.session pause next rest

end Gateway.Server
