/-
Module: Gateway.Http.Form
Layer: Http
Purpose: Query strings as lists of name and value: reading and writing.
Main exports: Http.Form.parse, Http.Form.print
-/
import Gateway.Text.Ascii
import Gateway.Text.Split
import Gateway.Text.Utf8

namespace Gateway.Http.Form

/-!
A query string is a list of pairs joined by `&`, a name and its value joined by `=`.  Inside either,
`+` stands for a blank and `%` with two hexadecimal digits for a byte.  Reading never fails: a
percent sign without its digits stands for itself, and broken text is read with replacement
characters.
-/

/-- The byte that a percent sign and two digits stand for. -/
def escapedByte? (a b c : UInt8) : Option UInt8 :=
  if a == 0x25 then do
    let high ← Ascii.hexValue? (Char.ofNat b.toNat)
    let low ← Ascii.hexValue? (Char.ofNat c.toNat)
    return UInt8.ofNat (16 * high + low)
  else none

/-- Resolves the percent escapes. -/
def percentDecode : List UInt8 → List UInt8
  | a :: b :: c :: rest =>
    match escapedByte? a b c with
    | some byte => byte :: percentDecode rest
    | none => a :: percentDecode (b :: c :: rest)
  | [a, b] => [a, b]
  | [a] => [a]
  | [] => []

/-- A name or a value as it was meant. -/
def decode (bytes : List UInt8) : String :=
  Utf8.decodeLossy (percentDecode (bytes.map fun b => if b == 0x2B then 0x20 else b))

/-- A piece as a pair; without `=` the value is empty. -/
def decodePair (piece : List UInt8) : String × String :=
  let (name, value) := cutAt 0x3D piece
  (decode name, decode (value.getD []))

/-- The pairs of a query string in their order; empty pieces are passed over. -/
def parse (query : List UInt8) : List (String × String) :=
  ((splitOn 0x26 query).filter (!·.isEmpty)).map decodePair

/-- The pairs of a query given as text. -/
def parseText (query : String) : List (String × String) :=
  parse (Utf8.encode query)

/-- A character that stands for itself in a written name or value. -/
def isPlain (c : Char) : Bool :=
  Ascii.isAlphanumeric c || c == '*' || c == '-' || c == '.' || c == '_'

/-- A byte inside a written name or value. -/
def encodeByte (b : UInt8) : List Char :=
  if isPlain (Char.ofNat b.toNat) then [Char.ofNat b.toNat]
  else if b == 0x20 then ['+']
  else ['%', Ascii.hexDigitUpper (b.toNat / 16), Ascii.hexDigitUpper (b.toNat % 16)]

/-- A name or a value in written form. -/
def encode (text : String) : List Char :=
  (Utf8.encode text).flatMap encodeByte

/-- A pair in written form. -/
def encodePair (pair : String × String) : List Char :=
  encode pair.1 ++ '=' :: encode pair.2

/-- The query string of a list of pairs. -/
def print (pairs : List (String × String)) : String :=
  String.ofList (joinWith '&' (pairs.map encodePair))

end Gateway.Http.Form
