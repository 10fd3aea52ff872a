/-
Module: Gateway.Server.Traffic
Layer: Server
Purpose: Any number of requests at one server, step by step and in any order.
Main exports: Server.reach, Server.Flight, Server.Traffic, Server.Traffic.Move,
  Server.Traffic.step, Server.Traffic.run
-/
import Gateway.Endpoint.Race
import Gateway.Server

namespace Gateway.Server

open Endpoint (Crowd Handler Handling Invocation Race Reply)

/-!
A request that no route leads anywhere, or that its handler turns away, is dismissed at once.  Every
other one is in flight from then on: its pipeline and the one who waits for it race.  Whatever is in
flight shares the handler and the clock, and nothing orders the steps of one flight and another but
the clock.  A client leaves when its patience is over and at no other time.

The journal grows in the order in which things happen.
-/

/-- The handler and the pipeline request of a visit, if it comes as far as the pipeline. -/
def reach (server : Server) (visit : Visit) : Option (Handler × Pipeline.Request) :=
  match server.router.find? visit.request.uri.path with
  | none => none
  | some handler =>
    match handler.receive visit.identified with
    | .ok forwarded => some (handler, forwarded)
    | .error _ => none

/-- A request that has come as far as the pipeline. -/
structure Flight where
  visit : Visit
  start : Instant
  handler : Handler
  forwarded : Pipeline.Request
  /-- What has happened to it so far. -/
  history : List Race.Move

namespace Flight

/-- When the client goes away, if it does not wait for ever. -/
def leaves (f : Flight) : Option Instant :=
  f.visit.patience.map (f.start + ·)

/-- The invocation of the pipeline. -/
def invocation (f : Flight) : Invocation :=
  f.handler.invoke f.start f.leaves f.forwarded

/-- The flight after one more move. -/
def after (f : Flight) (move : Race.Move) : Flight :=
  { f with history := f.history ++ [move] }

/-- What comes of it, once nobody waits any more. -/
def handling? (f : Flight) (r : Race) : Option Handling :=
  r.waiter.conclusion?.map (f.handler.conclude f.visit.identified.method)

/-- What the client gets, once nobody waits any more. -/
def reply? (f : Flight) (r : Race) : Option Reply :=
  (f.handling? r).map fun handling => deliver f.visit handling.reply

/-- What the end of the wait adds to the journal, if the wait ends. -/
def ending (f : Flight) (before after : Race) : List Journal.Entry :=
  if before.waiter.conclusion?.isNone then
    ((f.handling? after).map fun handling => handling.journal.map (·.entry)).getD []
  else []

/-- What a step from one race to the next adds to the journal. -/
def news (f : Flight) (before after : Race) : List Journal.Entry :=
  (after.notes.drop before.notes.length).map (fun note => .note f.forwarded.path note.2)
    ++ f.ending before after
    ++ List.replicate (after.dropped - before.dropped) (.log Handler.droppedRecord)

end Flight

/-- A visit that was answered without a pipeline. -/
structure Dismissal where
  visit : Visit
  start : Instant
  handling : Handling

/-- The requests at a server. -/
structure Traffic where
  /-- The races of the flights, in the same order. -/
  crowd : Crowd
  flights : List Flight
  dismissals : List Dismissal
  entries : List Journal.Entry

namespace Traffic

/-- A server without requests. -/
def begin (start : Instant) : Traffic :=
  ⟨⟨start, []⟩, [], [], []⟩

/-- What can happen next. -/
inductive Move where
  | arrive (visit : Visit)
  /-- Something other than the clock moves in one of the flights. -/
  | within (index : Nat) (move : Race.Move)
  | tick

/-- A request arrives. -/
def arrive (server : Server) (t : Traffic) (visit : Visit) : Option Traffic :=
  match server.reach visit with
  | some (handler, forwarded) =>
    (t.crowd.step (.arrive handler.timeout (handler.pipeline forwarded))).map fun crowd =>
      { t with
        crowd
        flights := t.flights ++ [⟨visit, t.crowd.now, handler, forwarded, []⟩] }
  | none =>
    let handling := server.handle t.crowd.now visit
    some { t with
      dismissals := t.dismissals ++ [⟨visit, t.crowd.now, handling⟩]
      entries := t.entries ++ handling.journal.map (·.entry) }

/-- Something moves in one of the flights. -/
def moveWithin (t : Traffic) (index : Nat) (move : Race.Move) : Option Traffic := do
  let flight ← t.flights[index]?
  let race ← t.crowd.races[index]?
  if race.permits flight.leaves move then
    let crowd ← t.crowd.step (.within index move)
    let moved ← crowd.races[index]?
    return { t with
      crowd
      flights := t.flights.set index (flight.after move)
      entries := t.entries ++ flight.news race moved }
  else none

/-- The clock moves, unless a client has to leave before. -/
def tick (t : Traffic) : Option Traffic :=
  if (t.flights.zip t.crowd.races).all fun (flight, race) => race.permits flight.leaves .tick then
    (t.crowd.step .tick).map fun crowd => { t with crowd, flights := t.flights.map (·.after .tick) }
  else none

/-- What a move leads to, if it can be made. -/
def step (server : Server) (t : Traffic) : Move → Option Traffic
  | .arrive visit => t.arrive server visit
  | .within index move => t.moveWithin index move
  | .tick => t.tick

/-- What moves lead to, one after the other. -/
def run (server : Server) (t : Traffic) : List Move → Option Traffic
  | [] => some t
  | move :: moves => (t.step server move).bind fun t => t.run server moves

end Traffic

end Gateway.Server
