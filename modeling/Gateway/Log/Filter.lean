/-
Module: Gateway.Log.Filter
Layer: Observability
Purpose: Which log records are shown.
Main exports: Log.Limit, Log.Directive, Log.Directive.parse, Log.Filter, Log.Filter.passes,
  Log.Filter.strict?, Log.Filter.lenient
-/
import Gateway.Log
import Gateway.Text.Ascii
import Gateway.Text.Split

namespace Gateway.Log

/-!
A filter is a list of directives with commas between them.  A directive is a level, a target, or
`target=level`; a target without a level shows everything of it.  For each record the directive with
the longest target that the record's target opens with decides, and of equal targets the last.  A
filter without directives shows errors.

Directives in brackets are about spans and never show a record on their own.
-/

/-- The least serious level that is shown; `none` shows nothing. -/
abbrev Limit := Option Level

/-- Whether a level is shown. -/
def Limit.shows (limit : Limit) (level : Level) : Bool :=
  limit.any fun l => level.verbosity ≤ l.verbosity

/-- The limits by number. -/
def limits : List Limit :=
  [none, some .error, some .warn, some .info, some .debug, some .trace]

/-- The limits by name. -/
def limitNames : List (String × Limit) :=
  [("", some .error), ("off", none), ("error", some .error), ("warn", some .warn),
    ("info", some .info), ("debug", some .debug), ("trace", some .trace)]

/-- Reads a limit: a name in any case, or a number up to five. -/
def Limit.parse? (text : List Char) : Option Limit :=
  match Ascii.natOfDigits? text with
  | some n => limits[n]?
  | none => limitNames.lookup (String.ofList (text.map Ascii.lower))

/-- One rule of a filter. -/
structure Directive where
  /-- The targets that it is about, by what they open with. -/
  target : String
  limit : Limit
  /-- Whether it is about spans. -/
  spans : Bool
deriving Repr, DecidableEq

/-- Why a text is no directive. -/
inductive DirectiveFault where
  | shape
  | level
deriving Repr, DecidableEq

/-- The wording of a fault. -/
def DirectiveFault.message : DirectiveFault → String
  | .shape => "invalid filter directive"
  | .level => "error parsing level filter: expected one of \"off\", \"error\", \"warn\", "
      ++ "\"info\", \"debug\", \"trace\", or a number 0-5"

/-- The limit after an equals sign; an empty one shows everything. -/
def limitAfter (text : List Char) : Except DirectiveFault Limit :=
  if text.isEmpty then .ok (some .trace)
  else
    match Limit.parse? text with
    | some limit => .ok limit
    | none => .error .level

/-- Whether a directive may begin with a character. -/
def isOpening (c : Char) : Bool :=
  Ascii.isAlphanumeric c || c == '-' || c == ':' || c == '_' || c == '[' || 0x80 ≤ c.toNat

/-- Reads the rest of a directive about spans, from the opening bracket on. -/
def parseSpans (target : List Char) (text : List Char) : Except DirectiveFault Directive :=
  match cutAt ']' text with
  | (_, some []) => .ok ⟨String.ofList target, some .trace, true⟩
  | (_, some ('=' :: level)) => (⟨String.ofList target, ·, true⟩) <$> limitAfter level
  | _ => .error .shape

/-- Reads a directive. -/
def Directive.parse (text : List Char) : Except DirectiveFault Directive :=
  if !text.head?.any isOpening then .error .shape
  else
    let target := text.takeWhile fun c => c != '=' && c != '['
    match text.drop target.length with
    | [] =>
      match Limit.parse? target with
      | some limit => .ok ⟨"", limit, false⟩
      | none => .ok ⟨String.ofList target, some .trace, false⟩
    | '=' :: level => (⟨String.ofList target, ·, false⟩) <$> limitAfter level
    | rest => parseSpans target (rest.drop 1)

/-- A list of directives. -/
abbrev Filter := List Directive

namespace Filter

/-- The texts of the directives of a filter, blanks around them left out. -/
def pieces (text : String) : List String :=
  ((splitOn ',' text.toList).filter (!·.isEmpty)).map String.ofList

/-- Reads the text of one directive. -/
def parsePiece (piece : String) : Except DirectiveFault Directive :=
  Directive.parse piece.trimAscii.toString.toList

/-- Reads a filter, none if any directive is faulty. -/
def strict? (text : String) : Option Filter :=
  ((pieces text).mapM parsePiece).toOption

/-- Reads a filter, faulty directives passed over, each with a complaint. -/
def lenient (text : String) : Filter × List String :=
  let read := (pieces text).map fun piece => (piece, parsePiece piece)
  (read.filterMap (·.2.toOption),
   read.filterMap fun (piece, result) =>
    match result with
    | .error fault => some ("ignoring \x60" ++ piece ++ "\x60: " ++ fault.message)
    | .ok _ => none)

/-- The directive that decides about a target. -/
def deciding? (filter : Filter) (target : String) : Option Directive :=
  (filter.filter fun d => !d.spans && d.target.toList.isPrefixOf target.toList).foldl
    (fun best d =>
      if best.all fun b => b.target.length ≤ d.target.length then some d else best) none

/-- Whether a record is shown. -/
def passes (filter : Filter) (record : Record) : Bool :=
  (deciding? (if filter.isEmpty then [⟨"", some .error, false⟩] else filter) record.target).any
    fun directive => directive.limit.shows record.level

end Filter

end Gateway.Log
