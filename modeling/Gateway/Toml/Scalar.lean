/-
Module: Gateway.Toml.Scalar
Layer: Toml
Purpose: The scalars of TOML: strings, keys, numbers, and dates.
Main exports: Toml.readString?, Toml.readKey?, Toml.readNumber?
-/
import Gateway.Text.Ascii
import Gateway.Document

namespace Gateway.Toml

/-!
Each reader takes the characters from a given place and returns what it read with the characters
left, or `none` when they are ill-formed.  Dates are read only to be checked: no field of a
configuration is one.
-/

/-- A character that neither ends a line nor is a control character. -/
def isLineChar (c : Char) : Bool :=
  c == '\t' || (' ' ≤ c && c != '\x7f')

/-- A blank between tokens of a line. -/
def isBlank (c : Char) : Bool :=
  c == ' ' || c == '\t'

/-- Leaves out blanks. -/
def skipBlanks (s : List Char) : List Char :=
  s.dropWhile isBlank

/-- A line break in front of a text. -/
def lineBreak? : List Char → Option (List Char)
  | '\n' :: rest => some rest
  | '\r' :: '\n' :: rest => some rest
  | _ => none

/-- Leaves out a comment, up to the end of its line. -/
def skipComment : List Char → List Char
  | '#' :: rest => rest.dropWhile isLineChar
  | s => s

/-! ### Strings -/

/-- A number of hexadecimal digits as a character. -/
def codePoint? (count : Nat) (s : List Char) : Option (Char × List Char) := do
  let digits ← (s.take count).mapM Ascii.hexValue?
  if digits.length < count then none
  else
    let n := digits.foldl (fun n d => 16 * n + d) 0
    if n < 0xD800 || (0xE000 ≤ n && n < 0x110000) then some (Char.ofNat n, s.drop count) else none

/-- An escape after its backslash. -/
def escape? : List Char → Option (Char × List Char)
  | 'b' :: rest => some ('\x08', rest)
  | 't' :: rest => some ('\t', rest)
  | 'n' :: rest => some ('\n', rest)
  | 'f' :: rest => some ('\x0c', rest)
  | 'r' :: rest => some ('\r', rest)
  | '"' :: rest => some ('"', rest)
  | '\\' :: rest => some ('\\', rest)
  | 'u' :: rest => codePoint? 4 rest
  | 'U' :: rest => codePoint? 8 rest
  | _ => none

/-- A string on one line after its opening quote, read so far in reverse.  Every round takes a
character, so the length of the text bounds their number. -/
def basicBody : Nat → List Char → List Char → Option (String × List Char)
  | 0, _, _ => none
  | rounds + 1, read, s =>
    match s with
    | [] => none
    | '"' :: rest => some (String.ofList read.reverse, rest)
    | '\\' :: rest => do
      let (c, rest) ← escape? rest
      basicBody rounds (c :: read) rest
    | c :: rest => if isLineChar c then basicBody rounds (c :: read) rest else none

/-- A literal string on one line after its opening quote. -/
def literalBody (s : List Char) : Option (String × List Char) :=
  let body := s.takeWhile fun c => isLineChar c && c != '\''
  match s.drop body.length with
  | '\'' :: rest => some (String.ofList body, rest)
  | _ => none

/-- How many of the quotes at a place belong to the string, and whether it ends after them: fewer
than three are text, three end the string, and up to two more stand before the end. -/
def quoteRun (quote : Char) (s : List Char) : Nat × Bool :=
  let run := (s.takeWhile (· == quote)).length
  if run < 3 then (run, false) else (min (run - 3) 2, true)

/-- Leaves out blanks and line breaks after a backslash that ends a line; `none` if the line goes
on. -/
def lineContinuation? (s : List Char) : Option (List Char) :=
  match lineBreak? (skipBlanks s) with
  | some rest => some (skipSpace rest.length rest)
  | none => none
where
  /-- Leaves out blanks and line breaks. -/
  skipSpace : Nat → List Char → List Char
    | 0, s => s
    | rounds + 1, s =>
      match lineBreak? (skipBlanks s) with
      | some rest => skipSpace rounds rest
      | none => skipBlanks s

/-- A string over several lines after its opening quotes; `escapes` tells whether a backslash opens
an escape. -/
def multilineBody (quote : Char) (escapes : Bool) :
    Nat → List Char → List Char → Option (String × List Char)
  | 0, _, _ => none
  | rounds + 1, read, s =>
    match s with
    | [] => none
    | c :: rest =>
      if c == quote then
        let (own, ends) := quoteRun quote s
        let read := List.replicate own quote ++ read
        if ends then some (String.ofList read.reverse, s.drop (own + 3))
        else multilineBody quote escapes rounds read (s.drop own)
      else if escapes && c == '\\' then
        match lineContinuation? rest with
        | some rest => multilineBody quote escapes rounds read rest
        | none => do
          let (c, rest) ← escape? rest
          multilineBody quote escapes rounds (c :: read) rest
      else
        match lineBreak? s with
        | some rest => multilineBody quote escapes rounds ('\n' :: read) rest
        | none => if isLineChar c then multilineBody quote escapes rounds (c :: read) rest else none

/-- A string over several lines after its opening quotes; a line break right after them is left
out. -/
def multiline (quote : Char) (escapes : Bool) (s : List Char) : Option (String × List Char) :=
  let s := (lineBreak? s).getD s
  multilineBody quote escapes (s.length + 1) [] s

/-- A string of any kind. -/
def readString? : List Char → Option (String × List Char)
  | '"' :: '"' :: '"' :: rest => multiline '"' true rest
  | '"' :: rest => basicBody (rest.length + 1) [] rest
  | '\'' :: '\'' :: '\'' :: rest => multiline '\'' false rest
  | '\'' :: rest => literalBody rest
  | _ => none

/-! ### Keys -/

/-- A character of a bare key. -/
def isBareChar (c : Char) : Bool :=
  Ascii.isAlphanumeric c || c == '_' || c == '-'

/-- One part of a key, with blanks around it. -/
def keyPart? (s : List Char) : Option (String × List Char) := do
  let s := skipBlanks s
  let (part, rest) ←
    match s with
    | '"' :: rest => basicBody (rest.length + 1) [] rest
    | '\'' :: rest => literalBody rest
    | _ =>
      let bare := s.takeWhile isBareChar
      if bare.isEmpty then none else some (String.ofList bare, s.drop bare.length)
  return (part, skipBlanks rest)

/-- The parts of a key, with points between them. -/
def keyParts : Nat → List Char → Option (List String × List Char)
  | 0, _ => none
  | rounds + 1, s => do
    let (part, rest) ← keyPart? s
    match rest with
    | '.' :: rest => do
      let (parts, rest) ← keyParts rounds rest
      return (part :: parts, rest)
    | _ => return ([part], rest)

/-- How many parts a key may have, and how deep arrays and inline tables may be nested. -/
def nestingLimit : Nat := 79

/-- A key. -/
def readKey? (s : List Char) : Option (List String × List Char) :=
  keyParts nestingLimit s

/-! ### Numbers -/

/-- Digits after the first of a number: single underscores may stand between two digits. -/
def moreDigits (isDigit : Char → Bool) : List Char → Option (List Char × List Char)
  | '_' :: d :: rest =>
    if isDigit d then do
      let (digits, rest) ← moreDigits isDigit rest
      return (d :: digits, rest)
    else none
  | ['_'] => none
  | c :: rest =>
    if isDigit c then do
      let (digits, rest) ← moreDigits isDigit rest
      return (c :: digits, rest)
    else some ([], c :: rest)
  | [] => some ([], [])

/-- Digits that may open with a zero. -/
def digitRun (isDigit : Char → Bool) : List Char → Option (List Char × List Char)
  | c :: rest =>
    if isDigit c then do
      let (digits, rest) ← moreDigits isDigit rest
      return (c :: digits, rest)
    else none
  | [] => none

/-- A sign in front of a text: whether it is a minus, and what follows. -/
def sign : List Char → Bool × List Char
  | '-' :: rest => (true, rest)
  | '+' :: rest => (false, rest)
  | s => (false, s)

/-- The digits of an integer: a zero stands alone. -/
def wholeDigits : List Char → Option (List Char × List Char)
  | '0' :: rest => some (['0'], rest)
  | s => digitRun Ascii.isDigit s

/-- The number that digits of a base stand for. -/
def valueOf (base : Nat) (digits : List Char) : Nat :=
  digits.foldl (fun n c => base * n + (Ascii.hexValue? c).getD 0) 0

/-- An integer that fits 64 bits with a sign. -/
def integer? (n : Int) : Option Document :=
  if -(Int.pow 2 63) ≤ n && n < Int.pow 2 63 then some (.integer n) else none

/-- Whether a character is a digit of a base. -/
def isDigitOf (base : Nat) (c : Char) : Bool :=
  (Ascii.hexValue? c).any (· < base)

/-- An integer of another base, after its mark. -/
def basedInteger? (base : Nat) (s : List Char) : Option (Document × List Char) := do
  let (digits, rest) ← digitRun (isDigitOf base) s
  return (← integer? (valueOf base digits), rest)

/-- The double nearest to `± n * 10^exponent`.  Numbers too large for a double are refused unless
they are negative; those too small are zero. -/
def double? (negative : Bool) (n : Nat) (exponent : Int) : Option Double :=
  let digits : Int := (Nat.toDigits 10 n).length
  let magnitude : Float :=
    if n = 0 || exponent + digits < -400 then 0.0
    else if 400 < exponent + digits then 1.0 / 0.0
    else Float.ofScientific n (exponent < 0) exponent.natAbs
  if !negative && magnitude.isInf then none
  else some (Double.ofFloat (if negative then -magnitude else magnitude))

/-- The exponent of a number, after its `e`. -/
def exponent? (s : List Char) : Option (Int × List Char) := do
  let (negative, s) := sign s
  let (digits, rest) ← digitRun Ascii.isDigit s
  let n : Int := valueOf 10 digits
  return (if negative then -n else n, rest)

/-- A decimal number: an integer, or a double where a fraction or an exponent follows. -/
def decimal? (s : List Char) : Option (Document × List Char) := do
  let (negative, s) := sign s
  match s with
  | 'i' :: 'n' :: 'f' :: rest =>
    return (.double (Double.ofFloat (if negative then -(1.0 / 0.0) else 1.0 / 0.0)), rest)
  | 'n' :: 'a' :: 'n' :: rest => return (.double (Double.ofFloat (0.0 / 0.0)), rest)
  | _ =>
    let (whole, rest) ← wholeDigits s
    match rest with
    | '.' :: rest =>
      let (fraction, rest) ← digitRun Ascii.isDigit rest
      let n := valueOf 10 (whole ++ fraction)
      let (exponent, rest) ←
        match rest with
        | c :: rest' => if c == 'e' || c == 'E' then exponent? rest' else some (0, rest)
        | [] => some (0, [])
      return (.double (← double? negative n (exponent - fraction.length)), rest)
    | _ =>
      match rest with
      | c :: rest' =>
        if c == 'e' || c == 'E' then
          let (exponent, rest) ← exponent? rest'
          return (.double (← double? negative (valueOf 10 whole) exponent), rest)
        else whole? negative whole rest
      | [] => whole? negative whole []
where
  /-- The integer of its digits. -/
  whole? (negative : Bool) (digits rest : List Char) : Option (Document × List Char) := do
    let n : Int := valueOf 10 digits
    return (← integer? (if negative then -n else n), rest)

/-! ### Dates -/

/-- A number of exactly so many digits, within bounds. -/
def field? (count low high : Nat) (s : List Char) : Option (Nat × List Char) := do
  let digits := s.take count
  let n ← Ascii.natOfDigits? digits
  if digits.length == count && low ≤ n && n ≤ high then some (n, s.drop count) else none

/-- A given character in front of a text. -/
def skip? (c : Char) : List Char → Option (List Char)
  | d :: rest => if d == c then some rest else none
  | [] => none

/-- The days of a month. -/
def daysOfMonth (year month : Nat) : Nat :=
  if month == 2 then
    if year % 4 == 0 && (year % 100 != 0 || year % 400 == 0) then 29 else 28
  else if [4, 6, 9, 11].contains month then 30
  else 31

/-- The characters after a date. -/
def date? (s : List Char) : Option (List Char) := do
  let (year, s) ← field? 4 0 9999 s
  let (month, s) ← field? 2 1 12 (← skip? '-' s)
  let (_, s) ← field? 2 1 (daysOfMonth year month) (← skip? '-' s)
  return s

/-- The characters after a time of day; a second may be a leap second. -/
def time? (s : List Char) : Option (List Char) := do
  let (_, s) ← field? 2 0 23 s
  let (_, s) ← field? 2 0 59 (← skip? ':' s)
  let (_, s) ← field? 2 0 60 (← skip? ':' s)
  match s with
  | '.' :: rest =>
    let digits := rest.takeWhile Ascii.isDigit
    if digits.isEmpty then none else some (rest.drop digits.length)
  | _ => some s

/-- The characters after the offset of a time, where one follows. -/
def offset? : List Char → Option (List Char)
  | 'Z' :: rest => some rest
  | 'z' :: rest => some rest
  | c :: rest =>
    if c == '+' || c == '-' then do
      let (_, s) ← field? 2 0 23 rest
      let (_, s) ← field? 2 0 59 (← skip? ':' s)
      return s
    else some (c :: rest)
  | [] => some []

/-- The characters after a date, with the time of day where one follows. -/
def dateTime? (s : List Char) : Option (List Char) := do
  let s ← date? s
  match s with
  | c :: rest =>
    if (c == 'T' || c == 't' || c == ' ') && (field? 2 0 23 rest).isSome then
      offset? (← time? rest)
    else some s
  | [] => some []

/-- Whether digits are followed by a mark. -/
def digitsThen (count : Nat) (mark : Char) (s : List Char) : Bool :=
  (s.take count).length == count && (s.take count).all Ascii.isDigit
    && (s.drop count).head? == some mark

/-- The document that stands for a date: a table with one entry, which no structure knows. -/
def dateDocument (text : List Char) : Document :=
  .table [("$__toml_private_datetime", .string (String.ofList text))]

/-- A number or a date. -/
def readNumber? (s : List Char) : Option (Document × List Char) :=
  if digitsThen 4 '-' s then dated (dateTime? s)
  else if digitsThen 2 ':' s then dated (time? s)
  else
    match s with
    | '0' :: 'x' :: rest => basedInteger? 16 rest
    | '0' :: 'o' :: rest => basedInteger? 8 rest
    | '0' :: 'b' :: rest => basedInteger? 2 rest
    | _ => decimal? s
where
  /-- The date between a place and what is left. -/
  dated (rest? : Option (List Char)) : Option (Document × List Char) := do
    let rest ← rest?
    return (dateDocument (s.take (s.length - rest.length)), rest)

end Gateway.Toml
