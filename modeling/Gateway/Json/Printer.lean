/-
Module: Gateway.Json.Printer
Layer: Json
Purpose: The compact text of a JSON value.
Main exports: Json.print, Json.chars
-/
import Gateway.Json.Value
import Gateway.Decimal.Format
import Gateway.Text.Ascii

namespace Gateway.Json

/-!
The text of a value has no blanks.  Inside a string the quote, the backslash and the characters
below U+0020 are escaped, five of those by a letter and the others by four hexadecimal digits; every
other character stands for itself.
-/

/-- A character inside a string. -/
def escapeChar (c : Char) : List Char :=
  if c == '"' then ['\\', '"']
  else if c == '\\' then ['\\', '\\']
  else if c == '\x08' then ['\\', 'b']
  else if c == '\t' then ['\\', 't']
  else if c == '\n' then ['\\', 'n']
  else if c == '\x0c' then ['\\', 'f']
  else if c == '\r' then ['\\', 'r']
  else if c.toNat < 0x20 then
    ['\\', 'u', '0', '0', Ascii.hexDigitLower (c.toNat / 16), Ascii.hexDigitLower (c.toNat % 16)]
  else [c]

/-- A string with its quotes. -/
def printString (text : String) : List Char :=
  '"' :: text.toList.flatMap escapeChar ++ ['"']

/-- A number: an integer in decimal, a double with the fewest digits that read back. -/
def printNumber : Number → List Char
  | .integer n => (toString n).toList
  | .double d => (Decimal.scientific.write d).toList

mutual

/-- The characters of a value's text. -/
def chars : Json → List Char
  | .null => ['n', 'u', 'l', 'l']
  | .bool true => ['t', 'r', 'u', 'e']
  | .bool false => ['f', 'a', 'l', 's', 'e']
  | .number n => printNumber n
  | .string s => printString s
  | .array items => '[' :: charsOfItems items ++ [']']
  | .object fields => '{' :: charsOfFields fields ++ ['}']

/-- The items of an array, separated by commas. -/
def charsOfItems : List Json → List Char
  | [] => []
  | [item] => chars item
  | item :: next :: items => chars item ++ ',' :: charsOfItems (next :: items)

/-- The entries of an object, separated by commas. -/
def charsOfFields : List (String × Json) → List Char
  | [] => []
  | [(key, value)] => printString key ++ ':' :: chars value
  | (key, value) :: next :: fields =>
    printString key ++ ':' :: chars value ++ ',' :: charsOfFields (next :: fields)

end

/-- The text of a value. -/
def print (value : Json) : String :=
  String.ofList value.chars

end Gateway.Json
