/-
Module: Gateway.Route.Grammar
Layer: Route
Purpose: The written form of a pattern, which patterns have one, and the rules that a path breaks
  that is not the written form of any.
Main exports: Route.Segment.text, Route.Segment.WellFormed, Route.Pattern.text,
  Route.Pattern.WellFormed, Route.SegmentBreaks, Route.PathBreaks, Route.PathBreaksFirst
-/
import Gateway.Route.Pattern

namespace Gateway.Route

/-!
A pattern is written with a slash in front of every segment.  The conditions below are those under
which the written form can be told apart again: a literal that held a brace would be taken for a
capture, and a catch-all before the end would leave nothing to what comes after it.
-/

/-- The written form of a segment. -/
def Segment.text : Segment → List Char
  | .literal text => text
  | .capture name => '{' :: name ++ ['}']
  | .catchAll name => '{' :: '*' :: name ++ ['}']

/-- A name of a capture: at least one character, none of which is a slash, a brace or an
asterisk. -/
def PlainName (name : List Char) : Prop :=
  name ≠ [] ∧ ∀ c ∈ name, c ≠ '/' ∧ c ≠ '{' ∧ c ≠ '}' ∧ c ≠ '*'

/-- A literal: no slash, no brace, and no mark in front that is kept for captures. -/
def PlainLiteral (text : List Char) : Prop :=
  (∀ c ∈ text, c ≠ '/' ∧ c ≠ '{' ∧ c ≠ '}') ∧ text.head? ≠ some ':' ∧ text.head? ≠ some '*'

/-- A segment that has a written form. -/
def Segment.WellFormed : Segment → Prop
  | .literal text => PlainLiteral text
  | .capture name => PlainName name
  | .catchAll name => PlainName name

/-- Whether a segment takes the whole rest of a path. -/
def Segment.isCatchAll : Segment → Bool
  | .catchAll _ => true
  | _ => false

/-- A pattern that has a written form: at least one segment, all of them well formed, and a
catch-all nowhere but at the end. -/
def Pattern.WellFormed (pattern : Pattern) : Prop :=
  pattern ≠ [] ∧ (∀ segment ∈ pattern, segment.WellFormed)
    ∧ ∀ segment ∈ pattern.dropLast, segment.isCatchAll = false

/-- The written form of a pattern. -/
def Pattern.text (pattern : Pattern) : String :=
  String.ofList (pattern.flatMap fun segment => '/' :: segment.text)

/-! ### Broken rules -/

/-- A rule that a segment of a path breaks; `last` tells whether it ends the path. -/
inductive SegmentBreaks (last : Bool) (text : List Char) : PatternFault → Prop where
  | reservedMark : text.head? = some ':' ∨ text.head? = some '*' →
      SegmentBreaks last text .reservedMark
  | partOfSegment : (∃ c ∈ text, c = '{' ∨ c = '}') → (∀ inner, text ≠ '{' :: inner ++ ['}']) →
      SegmentBreaks last text .partOfSegment
  /-- An asterisk in front of a name makes it that of a catch-all. -/
  | captureName {name : List Char} : text = (Segment.capture name).text →
      name.head? ≠ some '*' → ¬ PlainName name → SegmentBreaks last text .badName
  | catchAllName {name : List Char} : text = (Segment.catchAll name).text → ¬ PlainName name →
      SegmentBreaks last text .badName
  | catchAllNotLast {name : List Char} : text = (Segment.catchAll name).text → last = false →
      SegmentBreaks last text .catchAllNotLast

/-- The order in which the rules are looked at. -/
def PatternFault.rank : PatternFault → Nat
  | .noSlash => 0
  | .reservedMark => 1
  | .partOfSegment => 2
  | .badName => 3
  | .catchAllNotLast => 4

/-- The first rule that a segment breaks. -/
def SegmentBreaksFirst (last : Bool) (text : List Char) (fault : PatternFault) : Prop :=
  SegmentBreaks last text fault ∧
    ∀ other, SegmentBreaks last text other → fault.rank ≤ other.rank

/-- The segments of a path, one behind every slash. -/
def segmentsOf (path : String) : List (List Char) :=
  (splitOn '/' path.toList).tail

/-- A rule that some segment of a path breaks. -/
def PathBreaks (path : String) (fault : PatternFault) : Prop :=
  ∃ before segment after, segmentsOf path = before ++ segment :: after ∧
    SegmentBreaks after.isEmpty segment fault

/-- The first rule that the first segment breaks of those that break any. -/
def PathBreaksFirst (path : String) (fault : PatternFault) : Prop :=
  ∃ before segment after, segmentsOf path = before ++ segment :: after ∧
    (∀ sound ∈ before, ∀ other, ¬ SegmentBreaks false sound other) ∧
      SegmentBreaksFirst after.isEmpty segment fault

end Gateway.Route
