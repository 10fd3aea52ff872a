/-
Module: Gateway.Json.Reader
Layer: Json
Purpose: Reading JSON text, with the cause and place of each refusal.
Main exports: Json.Fault, Json.Refusal, Json.Refusal.message, Json.read
-/
import Gateway.Json.Value
import Gateway.Text.Utf8
import Gateway.Text.Ascii

namespace Gateway.Json

/-!
The reader works on bytes from left to right.  Every step returns the bytes that it leaves, and a
refusal remembers how many bytes were left where it arose, so that its place in the text is known.
Arrays and objects may be nested to a bounded depth; the reader recurses on that bound.
-/

/-- Why a text is no JSON value. -/
inductive Fault where
  | endInValue
  | endInList
  | endInObject
  | endInString
  | noColon
  | noCommaOrListEnd
  | noCommaOrObjectEnd
  | badWord
  | noValue
  | badEscape
  | badNumber
  | numberOutOfRange
  | brokenText
  | controlCharacter
  | keyNotString
  | loneSurrogate
  | trailingComma
  | trailingText
  | escapeEndsEarly
  | tooDeep
deriving DecidableEq, Repr

/-- The wording of a fault. -/
def Fault.message : Fault → String
  | .endInValue => "EOF while parsing a value"
  | .endInList => "EOF while parsing a list"
  | .endInObject => "EOF while parsing an object"
  | .endInString => "EOF while parsing a string"
  | .noColon => "expected `:`"
  | .noCommaOrListEnd => "expected `,` or `]`"
  | .noCommaOrObjectEnd => "expected `,` or `\x7d`"
  | .badWord => "expected ident"
  | .noValue => "expected value"
  | .badEscape => "invalid escape"
  | .badNumber => "invalid number"
  | .numberOutOfRange => "number out of range"
  | .brokenText => "invalid unicode code point"
  | .controlCharacter => "control character (\\u0000-\\u001F) found while parsing a string"
  | .keyNotString => "key must be a string"
  | .loneSurrogate => "lone leading surrogate in hex escape"
  | .trailingComma => "trailing comma"
  | .trailingText => "trailing characters"
  | .escapeEndsEarly => "unexpected end of hex escape"
  | .tooDeep => "recursion limit exceeded"

/-- A fault, and how many bytes were left where it arose. -/
structure Stop where
  fault : Fault
  left : Nat
deriving DecidableEq, Repr

/-- Stops after the bytes read so far. -/
def stopAt {α : Type} (fault : Fault) (rest : List UInt8) : Except Stop α :=
  .error ⟨fault, rest.length⟩

/-- Stops at the next byte, which counts as read unless the text has ended. -/
def stopOn {α : Type} (fault : Fault) (rest : List UInt8) : Except Stop α :=
  .error ⟨fault, rest.length - 1⟩

/-- The byte of an ASCII character. -/
def byte (c : Char) : UInt8 :=
  UInt8.ofNat c.toNat

/-- The character of the same code. -/
def charOf (b : UInt8) : Char :=
  Char.ofNat b.toNat

/-- A blank between tokens. -/
def isBlank (b : UInt8) : Bool :=
  b == byte ' ' || b == byte '\n' || b == byte '\t' || b == byte '\r'

/-- Leaves out the blanks in front. -/
def skipBlanks (s : List UInt8) : List UInt8 :=
  s.dropWhile isBlank

/-! ### Numbers -/

/-- The value of a digit. -/
def digitOf? (b : UInt8) : Option Nat :=
  if Ascii.isDigit (charOf b) then some (b.toNat - 0x30) else none

/-- Digits are gathered into a significand for as long as it fits 64 bits. -/
def fits (n : Nat) : Bool :=
  n < Nat.pow 2 64

/-- Gathers integer digits into the significand; the flag tells that a digit no longer fitted, and
then that digit and what follows is left. -/
def gather (significand : Nat) : List UInt8 → Nat × Bool × List UInt8
  | [] => (significand, false, [])
  | b :: rest =>
    match digitOf? b with
    | none => (significand, false, b :: rest)
    | some d =>
      if fits (significand * 10 + d) then gather (significand * 10 + d) rest
      else (significand, true, b :: rest)

/-- Passes over digits, counting them. -/
def countDigits : List UInt8 → Nat × List UInt8
  | [] => (0, [])
  | b :: rest =>
    match digitOf? b with
    | none => (0, b :: rest)
    | some _ => ((countDigits rest).1 + 1, (countDigits rest).2)

/-- The largest exponent that is read as a number. -/
def exponentBound : Nat := Nat.pow 2 31 - 1

/-- Gathers exponent digits; `none` with the bytes after the digit that passes the bound. -/
def gatherExponent (exponent : Nat) : List UInt8 → Option Nat × List UInt8
  | [] => (some exponent, [])
  | b :: rest =>
    match digitOf? b with
    | none => (some exponent, b :: rest)
    | some d =>
      if exponent * 10 + d ≤ exponentBound then gatherExponent (exponent * 10 + d) rest
      else (none, rest)

/-- The double nearest to ten to the power `k`. -/
def powerOfTen (k : Nat) : Float :=
  Float.ofScientific 1 false k

/-- Divides by powers of ten, `10^308` at a time.  Two such steps already turn a 64-bit significand
to zero, so three suffice. -/
def divideByPower : Nat → Float → Nat → Float
  | 0, f, _ => f
  | steps + 1, f, k =>
    if k ≤ 308 then f / powerOfTen k
    else if f == 0.0 then f
    else divideByPower steps (f / powerOfTen 308) (k - 308)

/-- The double `± significand * 10^exponent`: the significand is rounded to a double, and then one
rounded multiplication or division by a power of ten follows.  `none` when it is not finite. -/
def scale (negative : Bool) (significand : Nat) (exponent : Int) : Option Double :=
  let f := (UInt64.ofNat significand).toFloat
  let signed (f : Float) : Double := Double.ofFloat (if negative then -f else f)
  if exponent < 0 then some (signed (divideByPower 4 f exponent.natAbs))
  else if 308 < exponent then if significand = 0 then some (signed f) else none
  else
    let product := f * powerOfTen exponent.natAbs
    if product.isInf then none else some (signed product)

/-- A scaled number as a step. -/
def scaled (negative : Bool) (significand : Nat) (exponent : Int) (rest : List UInt8) :
    Except Stop (Number × List UInt8) :=
  match scale negative significand exponent with
  | some d => .ok (.double d, rest)
  | none => stopAt .numberOutOfRange rest

/-- The part of a number after its `e`. -/
def exponentPart (negative : Bool) (significand : Nat) (start : Int) (s : List UInt8) :
    Except Stop (Number × List UInt8) :=
  let (down, s) :=
    match s with
    | b :: rest =>
      if b == byte '+' then (false, rest) else if b == byte '-' then (true, rest) else (false, s)
    | [] => (false, [])
  match s with
  | [] => stopAt .endInValue []
  | b :: rest =>
    match digitOf? b with
    | none => stopAt .badNumber rest
    | some d =>
      match gatherExponent d rest with
      | (some e, rest) => scaled negative significand (if down then start - e else start + e) rest
      | (none, rest) =>
        if significand != 0 && !down then stopAt .numberOutOfRange rest
        else scaled negative 0 0 (countDigits rest).2

/-- Whether a byte opens an exponent. -/
def opensExponent (b : UInt8) : Bool :=
  b == byte 'e' || b == byte 'E'

/-- What may follow the digits of a fraction. -/
def afterFraction (negative : Bool) (significand : Nat) (exponent : Int) (s : List UInt8) :
    Except Stop (Number × List UInt8) :=
  match s with
  | b :: rest =>
    if opensExponent b then exponentPart negative significand exponent rest
    else scaled negative significand exponent s
  | [] => scaled negative significand exponent []

/-- The part of a number after its point.  Digits that no longer fit the significand are dropped. -/
def fractionPart (negative : Bool) (significand : Nat) (start : Int) (s : List UInt8) :
    Except Stop (Number × List UInt8) :=
  let (gathered, overfull, rest) := gather significand s
  let taken : Int := (s.length : Int) - rest.length
  if overfull then afterFraction negative gathered (start - taken) (countDigits rest).2
  else if taken == 0 then
    if rest.isEmpty then stopOn .endInValue rest else stopOn .badNumber rest
  else afterFraction negative gathered (start - taken) rest

/-- The integer of a sign and a magnitude, where 64 bits hold it; `-0` is a double. -/
def wholeNumber (negative : Bool) (significand : Nat) : Number :=
  if !negative then .integer significand
  else if significand = 0 || Nat.pow 2 63 < significand then
    .double (Double.ofFloat (-(UInt64.ofNat significand).toFloat))
  else .integer (-significand)

/-- What may follow the integer digits of a number. -/
def afterInteger (negative : Bool) (significand : Nat) (s : List UInt8) :
    Except Stop (Number × List UInt8) :=
  match s with
  | b :: rest =>
    if b == byte '.' then fractionPart negative significand 0 rest
    else if opensExponent b then exponentPart negative significand 0 rest
    else .ok (wholeNumber negative significand, s)
  | [] => .ok (wholeNumber negative significand, [])

/-- A number whose integer digits outgrow the significand: those left only count as powers of
ten. -/
def longInteger (negative : Bool) (significand : Nat) (s : List UInt8) :
    Except Stop (Number × List UInt8) :=
  let (count, s) := countDigits s
  match s with
  | b :: rest =>
    if b == byte '.' then fractionPart negative significand count rest
    else if opensExponent b then exponentPart negative significand count rest
    else scaled negative significand count s
  | [] => scaled negative significand count []

/-- A number after its sign. -/
def readNumber (negative : Bool) (s : List UInt8) : Except Stop (Number × List UInt8) :=
  match s with
  | [] => stopAt .endInValue []
  | b :: rest =>
    match digitOf? b with
    | none => stopAt .badNumber rest
    | some 0 =>
      match rest with
      | next :: _ =>
        if (digitOf? next).isSome then stopOn .badNumber rest
        else afterInteger negative 0 rest
      | [] => afterInteger negative 0 []
    | some (d + 1) =>
      match gather (d + 1) rest with
      | (n, false, rest) => afterInteger negative n rest
      | (n, true, rest) => longInteger negative n rest

/-! ### Strings -/

/-- Where the reader stands inside a string. -/
inductive StringState where
  | plain
  | escape
  /-- Inside the digits of an escape; `high` is a leading surrogate that waits for its partner. -/
  | hex (high : Option Nat) (digits : List UInt8)
  /-- After a leading surrogate: a backslash, then a `u`, must follow. -/
  | wantBackslash (high : Nat)
  | wantU (high : Nat)
deriving Repr

/-- The value of four hexadecimal digits. -/
def hexFour? (digits : List UInt8) : Option Nat :=
  digits.foldl (fun n? b => do return (← n?) * 16 + (← Ascii.hexValue? (charOf b))) (some 0)

/-- The UTF-8 bytes of a scalar value. -/
def scalarBytes (n : Nat) : List UInt8 :=
  String.utf8EncodeChar (Char.ofNat n)

/-- What four digits of an escape stand for: a finished character, or a leading surrogate. -/
def closeEscape (high : Option Nat) (n : Nat) : Except Fault (List UInt8 × StringState) :=
  match high with
  | none =>
    if 0xDC00 ≤ n && n ≤ 0xDFFF then .error .loneSurrogate
    else if 0xD800 ≤ n && n ≤ 0xDBFF then .ok ([], .wantBackslash n)
    else .ok (scalarBytes n, .plain)
  | some first =>
    if 0xDC00 ≤ n && n ≤ 0xDFFF then
      .ok (scalarBytes (0x10000 + (first - 0xD800) * 0x400 + (n - 0xDC00)), .plain)
    else .error .loneSurrogate

/-- The byte that a one-letter escape stands for. -/
def escapedByte? (b : UInt8) : Option UInt8 :=
  match charOf b with
  | '"' => some (byte '"')
  | '\\' => some (byte '\\')
  | '/' => some (byte '/')
  | 'b' => some 0x08
  | 'f' => some 0x0C
  | 'n' => some 0x0A
  | 'r' => some 0x0D
  | 't' => some 0x09
  | _ => none

/-- The bytes of a string after its opening quote, gathered in reverse. -/
def stringBytes :
    StringState → List UInt8 → List UInt8 → Except Stop (List UInt8 × List UInt8)
  | _, _, [] => stopAt .endInString []
  | .plain, read, b :: rest =>
    if b == byte '"' then .ok (read.reverse, rest)
    else if b == byte '\\' then stringBytes .escape read rest
    else if b < 0x20 then stopAt .controlCharacter rest
    else stringBytes .plain (b :: read) rest
  | .escape, read, b :: rest =>
    if b == byte 'u' then stringBytes (.hex none []) read rest
    else
      match escapedByte? b with
      | some c => stringBytes .plain (c :: read) rest
      | none => stopAt .badEscape rest
  | .hex high digits, read, b :: rest =>
    if digits.length < 3 then stringBytes (.hex high (digits ++ [b])) read rest
    else
      match hexFour? (digits ++ [b]) with
      | none => stopAt .badEscape rest
      | some n =>
        match closeEscape high n with
        | .ok (bytes, state) => stringBytes state (bytes.reverse ++ read) rest
        | .error fault => stopAt fault rest
  | .wantBackslash high, read, b :: rest =>
    if b == byte '\\' then stringBytes (.wantU high) read rest else stopAt .escapeEndsEarly rest
  | .wantU high, read, b :: rest =>
    if b == byte 'u' then stringBytes (.hex (some high) []) read rest
    else stopAt .escapeEndsEarly rest

/-- A string after its opening quote. -/
def readString (s : List UInt8) : Except Stop (String × List UInt8) := do
  let (bytes, rest) ← stringBytes .plain [] s
  match Utf8.decode? bytes with
  | some text => return (text, rest)
  | none => stopAt .brokenText rest

/-! ### Values -/

/-- The letters of `null`, `true` or `false` after the first. -/
def readWord : List Char → List UInt8 → Except Stop (Unit × List UInt8)
  | [], s => .ok ((), s)
  | _ :: _, [] => stopAt .endInValue []
  | c :: word, b :: rest =>
    if b == byte c then readWord word rest else stopAt .badWord rest

/-- The items of an array after its bracket, read by `item`.  Each item takes at least one byte, so
the length of the text bounds the number of rounds. -/
def readItems (item : List UInt8 → Except Stop (Json × List UInt8)) :
    Nat → Bool → List Json → List UInt8 → Except Stop (List Json × List UInt8)
  | 0, _, _, s => stopAt .endInList s
  | rounds + 1, first, items, s =>
    let s := skipBlanks s
    match s with
    | [] => stopOn .endInList []
    | b :: rest =>
      if b == byte ']' then .ok (items.reverse, rest)
      else if first then do
        let (v, s) ← item s
        readItems item rounds false (v :: items) s
      else if b == byte ',' then
        let s := skipBlanks rest
        match s with
        | [] => stopOn .endInValue []
        | b :: _ =>
          if b == byte ']' then stopOn .trailingComma s
          else do
            let (v, s) ← item s
            readItems item rounds false (v :: items) s
      else stopOn .noCommaOrListEnd s

/-- A key and its value; `s` starts at the key's quote. -/
def readEntry (item : List UInt8 → Except Stop (Json × List UInt8)) (s : List UInt8) :
    Except Stop ((String × Json) × List UInt8) := do
  let (key, s) ← readString (s.drop 1)
  let s := skipBlanks s
  match s with
  | [] => stopOn .endInObject []
  | b :: rest =>
    if b == byte ':' then
      let (v, s) ← item rest
      return ((key, v), s)
    else stopOn .noColon s

/-- The entries of an object after its brace, put in key order; a later entry replaces an earlier
one of the same key. -/
def readFields (item : List UInt8 → Except Stop (Json × List UInt8)) :
    Nat → Bool → Fields → List UInt8 → Except Stop (Fields × List UInt8)
  | 0, _, _, s => stopAt .endInObject s
  | rounds + 1, first, fields, s =>
    let s := skipBlanks s
    match s with
    | [] => stopOn .endInObject []
    | b :: rest =>
      if b == byte '\x7d' then .ok (fields, rest)
      else if first then
        if b == byte '"' then do
          let ((k, v), s) ← readEntry item s
          readFields item rounds false (insertSorted k v fields) s
        else stopOn .keyNotString s
      else if b == byte ',' then
        let s := skipBlanks rest
        match s with
        | [] => stopOn .endInValue []
        | b :: _ =>
          if b == byte '"' then do
            let ((k, v), s) ← readEntry item s
            readFields item rounds false (insertSorted k v fields) s
          else if b == byte '\x7d' then stopOn .trailingComma s
          else stopOn .keyNotString s
      else stopOn .noCommaOrObjectEnd s

/-- One value, with blanks in front of it, nested at most to the given depth. -/
def readValue : Nat → List UInt8 → Except Stop (Json × List UInt8)
  | depth, s =>
    let s := skipBlanks s
    match s with
    | [] => stopOn .endInValue []
    | b :: rest =>
      if b == byte 'n' then do
        let ((), s) ← readWord ['u', 'l', 'l'] rest
        return (.null, s)
      else if b == byte 't' then do
        let ((), s) ← readWord ['r', 'u', 'e'] rest
        return (.bool true, s)
      else if b == byte 'f' then do
        let ((), s) ← readWord ['a', 'l', 's', 'e'] rest
        return (.bool false, s)
      else if b == byte '-' then do
        let (n, s) ← readNumber true rest
        return (.number n, s)
      else if (digitOf? b).isSome then do
        let (n, s) ← readNumber false s
        return (.number n, s)
      else if b == byte '"' then do
        let (text, s) ← readString rest
        return (.string text, s)
      else if b == byte '[' then
        match depth with
        | 0 => stopOn .tooDeep s
        | depth + 1 => do
          let (items, s) ← readItems (readValue depth) (rest.length + 1) true [] rest
          return (.array items, s)
      else if b == byte '\x7b' then
        match depth with
        | 0 => stopOn .tooDeep s
        | depth + 1 => do
          let (fields, s) ← readFields (readValue depth) (rest.length + 1) true [] rest
          return (.object fields, s)
      else stopOn .noValue s

/-- How deep arrays and objects may be nested. -/
def nestingLimit : Nat := 127

/-- A whole text as one value, nested at most to the given depth. -/
def readWhole (depth : Nat) (text : List UInt8) : Except Stop Json := do
  let (value, rest) ← readValue depth text
  let rest := skipBlanks rest
  if rest.isEmpty then return value else stopOn .trailingText rest

/-- A refusal: the fault, and its line and column, both in bytes. -/
structure Refusal where
  fault : Fault
  line : Nat
  column : Nat
deriving DecidableEq, Repr

/-- Lines count from one; a column is the number of bytes since the last line break. -/
def Stop.locate (stop : Stop) (text : List UInt8) : Refusal :=
  let before := text.take (text.length - stop.left)
  { fault := stop.fault
    line := 1 + before.count (byte '\n')
    column := (before.reverse.takeWhile (· != byte '\n')).length }

/-- The wording of a refusal. -/
def Refusal.message (r : Refusal) : String :=
  r.fault.message ++ " at line " ++ toString r.line ++ " column " ++ toString r.column

/-- Reads a text as one JSON value. -/
def read (text : List UInt8) : Except Refusal Json :=
  match readWhole nestingLimit text with
  | .ok value => .ok value
  | .error stop => .error (stop.locate text)

end Gateway.Json
