/-
Module: Gateway.Journal
Layer: Observability
Purpose: What happens while requests are served, in its order.
Main exports: Journal.Entry, Journal.Stamp, Journal.Stamped, Journal.merge
-/
import Gateway.Log
import Gateway.Metrics
import Gateway.Scope

namespace Gateway.Journal

/-- Something that happened. -/
inductive Entry where
  /-- A pipeline left a note while it worked on a request for a path. -/
  | note (path label : String)
  | log (record : Log.Record)
  | count (series : Metrics.Series)
deriving Repr, DecidableEq

/-- Whose turn it is within an instant: first the requests that the clock wakes, then the pipelines,
then the requests whose pipelines have ended. -/
inductive Turn where
  | clock
  | pipeline
  | reply
deriving Repr, DecidableEq

/-- The place of a turn within an instant. -/
def Turn.rank : Turn → Nat
  | .clock => 0
  | .pipeline => 1
  | .reply => 2

/-- When something happened. -/
structure Stamp where
  instant : Instant
  turn : Turn
deriving Repr, DecidableEq

/-- Whether a stamp comes before another or is level with it. -/
def Stamp.before (a b : Stamp) : Bool :=
  a.instant < b.instant || (a.instant == b.instant && a.turn.rank ≤ b.turn.rank)

/-- An entry with the time at which it was made. -/
structure Stamped where
  stamp : Stamp
  entry : Entry
deriving Repr, DecidableEq

/-- Brings entries into the order of time; entries of one turn stay in the order in which the
requests arrived. -/
def merge (entries : List Stamped) : List Stamped :=
  entries.mergeSort fun a b => a.stamp.before b.stamp

/-- The notes among entries, each with the path of its request. -/
def notes (entries : List Entry) : List (String × String) :=
  entries.filterMap fun e =>
    match e with
    | .note path label => some (path, label)
    | _ => none

/-- The log records among entries. -/
def records (entries : List Entry) : List Log.Record :=
  entries.filterMap fun e =>
    match e with
    | .log record => some record
    | _ => none

/-- What entries counted. -/
def counts (entries : List Entry) : List Metrics.Series :=
  entries.filterMap fun e =>
    match e with
    | .count series => some series
    | _ => none

end Gateway.Journal
