/-
Module: Gateway.Text.Ascii
Layer: Text
Purpose: The character classes of the protocols' ASCII grammars, and hexadecimal digits.
Main exports: Ascii.isDigit, Ascii.isAlphanumeric, Ascii.isTokenChar, Ascii.lower,
  Ascii.hexValue?, Ascii.hexDigitLower, Ascii.hexDigitUpper
-/
namespace Gateway.Ascii

/-!
Every class below is a set of ASCII characters.  A character outside ASCII is in none of them, so a
byte sequence may be classified byte by byte through the character of the same code.
-/

/-- A decimal digit. -/
def isDigit (c : Char) : Bool :=
  '0' ≤ c && c ≤ '9'

/-- A lower-case letter. -/
def isLower (c : Char) : Bool :=
  'a' ≤ c && c ≤ 'z'

/-- An upper-case letter. -/
def isUpper (c : Char) : Bool :=
  'A' ≤ c && c ≤ 'Z'

/-- A letter or a decimal digit. -/
def isAlphanumeric (c : Char) : Bool :=
  isDigit c || isLower c || isUpper c

/-- The marks that a token may hold beside letters and digits. -/
def tokenMarks : List Char :=
  ['!', '#', '$', '%', '&', '\'', '*', '+', '-', '.', '^', '_', '\x60', '|', '~']

/-- A character of an HTTP token: method names and header names are built from these. -/
def isTokenChar (c : Char) : Bool :=
  isAlphanumeric c || tokenMarks.contains c

/-- Upper-case letters become lower case; every other character stays. -/
def lower (c : Char) : Char :=
  if isUpper c then Char.ofNat (c.toNat + 32) else c

/-- The value of a hexadecimal digit of either case. -/
def hexValue? (c : Char) : Option Nat :=
  if isDigit c then some (c.toNat - '0'.toNat)
  else if 'a' ≤ c && c ≤ 'f' then some (c.toNat - 'a'.toNat + 10)
  else if 'A' ≤ c && c ≤ 'F' then some (c.toNat - 'A'.toNat + 10)
  else none

/-- The digit of a value below sixteen, letters in lower case. -/
def hexDigitLower (n : Nat) : Char :=
  if n < 10 then Char.ofNat ('0'.toNat + n) else Char.ofNat ('a'.toNat + (n - 10))

/-- The digit of a value below sixteen, letters in upper case. -/
def hexDigitUpper (n : Nat) : Char :=
  if n < 10 then Char.ofNat ('0'.toNat + n) else Char.ofNat ('A'.toNat + (n - 10))

/-- A number in hexadecimal, lower case, with no leading zeros. -/
def hexLower (n : Nat) : String :=
  String.ofList (Nat.toDigits 16 n)

/-- The value of a run of decimal digits, or `none` if a character is no digit or there is none. -/
def natOfDigits? (digits : List Char) : Option Nat :=
  if digits.isEmpty || !digits.all isDigit then none
  else some (digits.foldl (fun n c => 10 * n + (c.toNat - '0'.toNat)) 0)

end Gateway.Ascii
