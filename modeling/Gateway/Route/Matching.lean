/-
Module: Gateway.Route.Matching
Layer: Route
Purpose: Which request paths a pattern stands for, and which of two patterns is the more specific.
Main exports: Route.pathSegments?, Route.MatchesWith, Route.Matches, Route.Reaches,
  Route.Pattern.StandsFor, Route.MoreSpecific
-/
import Gateway.Route.Pattern

namespace Gateway.Route

/-!
A path is read as the segments after its first slash.  A literal matches itself, a capture matches
one segment, and a catch-all matches a rest that is not empty.  There are two readings of a capture:
in the strict one it never matches an empty segment; in the router's it does, unless the path ends
with that segment.
-/

/-- The segments of a path that opens with a slash. -/
def pathSegments? (path : String) : Option (List (List Char)) :=
  match path.toList with
  | '/' :: rest => some (splitOn '/' rest)
  | _ => none

/-- A pattern's shape matches the segments of a path, `takes text rest` telling whether a capture
may match the segment `text` in front of the segments `rest`. -/
inductive MatchesWith (takes : List Char → List (List Char) → Prop) :
    List Shape → List (List Char) → Prop where
  | nil : MatchesWith takes [] []
  | literal {text shapes path} : MatchesWith takes shapes path →
      MatchesWith takes (.literal text :: shapes) (text :: path)
  | capture {text shapes path} : takes text path → MatchesWith takes shapes path →
      MatchesWith takes (.capture :: shapes) (text :: path)
  | catchAll {path} : path ≠ [] → path ≠ [[]] → MatchesWith takes [.catchAll] path

/-- The strict reading: captures match segments that are not empty. -/
abbrev Matches : List Shape → List (List Char) → Prop :=
  MatchesWith fun text _ => text ≠ []

/-- The router's reading: captures match every segment but an empty last one. -/
abbrev Reaches : List Shape → List (List Char) → Prop :=
  MatchesWith fun text rest => text ≠ [] ∨ rest ≠ []

/-- A pattern stands for a request path in the strict reading. -/
def Pattern.StandsFor (pattern : Pattern) (path : String) : Prop :=
  ∃ segments, pathSegments? path = some segments ∧ Matches pattern.shape segments

/-- How early a kind of segment is tried. -/
def Shape.rank : Shape → Nat
  | .literal _ => 0
  | .capture => 1
  | .catchAll => 2

/-- The first goes before the second at the first place where they differ. -/
inductive MoreSpecific : List Shape → List Shape → Prop where
  | here {a b s t} : a.rank < b.rank → MoreSpecific (a :: s) (b :: t)
  | there {a s t} : MoreSpecific s t → MoreSpecific (a :: s) (a :: t)

end Gateway.Route
