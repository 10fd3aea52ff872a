/-
Module: Gateway.Route.Pattern
Layer: Route
Purpose: Route patterns: segments, their grammar, their shapes, and the keys of paths.
Main exports: Route.Segment, Route.PatternFault, Route.Pattern, Route.Pattern.parse,
  Route.Pattern.shape, Route.routeKey
-/
import Gateway.Text.Split

namespace Gateway.Route

/-!
A pattern is a slash followed by segments with slashes between them.  A segment is a literal text,
`{name}` for any one segment, or, in the last place only, `{*name}` for any rest of the path.  Names
do not matter for matching: patterns of one *shape* match the same paths.
-/

/-- A segment of a pattern. -/
inductive Segment where
  | literal (text : List Char)
  | capture (name : List Char)
  | catchAll (name : List Char)
deriving Repr, DecidableEq

/-- A segment without its name. -/
inductive Shape where
  | literal (text : List Char)
  | capture
  | catchAll
deriving Repr, DecidableEq

/-- The shape of a segment. -/
def Segment.shape : Segment → Shape
  | .literal text => .literal text
  | .capture _ => .capture
  | .catchAll _ => .catchAll

/-- A pattern: its segments. -/
abbrev Pattern := List Segment

/-- The shape of a pattern. -/
def Pattern.shape (pattern : Pattern) : List Shape :=
  pattern.map Segment.shape

/-- Why a text is no pattern. -/
inductive PatternFault where
  | noSlash
  | reservedMark
  | partOfSegment
  | badName
  | catchAllNotLast
deriving Repr, DecidableEq

/-- The wording of a fault. -/
def PatternFault.message : PatternFault → String
  | .noSlash => "a pattern starts with '/'"
  | .reservedMark =>
    "segments must not start with ':' or '*', use '\x7bname\x7d' captures"
  | .partOfSegment => "a capture must span the whole segment"
  | .badName => "a capture needs a plain name"
  | .catchAllNotLast => "a catch-all capture must be the last segment"

/-- Whether a character is a brace. -/
def isBrace (c : Char) : Bool :=
  c == '{' || c == '}'

/-- A name of a capture: not empty, without braces and asterisks. -/
def isName (name : List Char) : Bool :=
  !name.isEmpty && !name.any fun c => isBrace c || c == '*'

/-- The text between an opening brace in front and a closing brace at the end. -/
def unbrace? : List Char → Option (List Char)
  | '{' :: rest => if rest.getLast? == some '}' then some rest.dropLast else none
  | _ => none

/-- Reads a segment; `last` tells whether it ends the pattern. -/
def Segment.parse (last : Bool) (text : List Char) : Except PatternFault Segment :=
  if text.head? == some ':' || text.head? == some '*' then .error .reservedMark
  else if !text.any isBrace then .ok (.literal text)
  else
    match unbrace? text with
    | none => .error .partOfSegment
    | some ('*' :: name) =>
      if !isName name then .error .badName
      else if !last then .error .catchAllNotLast
      else .ok (.catchAll name)
    | some name => if !isName name then .error .badName else .ok (.capture name)

/-- Reads segments from the first to the last. -/
def Pattern.ofSegments : List (List Char) → Except PatternFault Pattern
  | [] => .ok []
  | text :: rest => do
    let segment ← Segment.parse rest.isEmpty text
    let segments ← Pattern.ofSegments rest
    return segment :: segments

/-- Reads a pattern. -/
def Pattern.parse (text : String) : Except PatternFault Pattern :=
  match text.toList with
  | '/' :: rest => Pattern.ofSegments (splitOn '/' rest)
  | _ => .error .noSlash

/-! ### Keys -/

/-- A segment as it is written, the name of a capture erased. -/
def segmentKey : List Char → List Char
  | '{' :: '*' :: _ => ['{', '*', '}']
  | '{' :: _ => ['{', '}']
  | text => text

/-- A path as it is written, the names of its captures erased. -/
def routeKey (path : String) : String :=
  String.ofList (joinWith '/' ((splitOn '/' path.toList).map segmentKey))

end Gateway.Route
