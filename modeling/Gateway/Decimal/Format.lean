/-
Module: Gateway.Decimal.Format
Layer: Decimal
Purpose: How a double is written: digits, point, exponent, and the texts of the special values.
Main exports: Decimal.Format, Decimal.Format.write, Decimal.scientific, Decimal.positional
-/
import Gateway.Decimal.Shortest

namespace Gateway.Decimal

/-- The decisions of a number format. -/
structure Format where
  /-- Numbers `d.ddd * 10^k` with `least ≤ k < bound` are written without an exponent. -/
  least : Int
  bound : Int
  /-- A positive exponent carries a plus sign. -/
  plusSign : Bool
  notANumber : String
  infinity : String
deriving Repr

/-- JSON numbers are positional from `1e-5` up to `1e16`, and carry a signed exponent elsewhere. -/
def scientific : Format where
  least := -5
  bound := 16
  plusSign := true
  notANumber := "NaN"
  infinity := "inf"

/-- Plain numbers in messages never carry an exponent. -/
def positional : Format where
  least := -400
  bound := 400
  plusSign := false
  notANumber := "NaN"
  infinity := "inf"

/-- The digits of a positive decimal without an exponent; a whole number keeps one zero after the
point. -/
def writePositional (digits : List Char) (point : Int) : List Char :=
  let n : Int := digits.length
  if point ≤ 0 then
    ['0', '.'] ++ List.replicate (-point).toNat '0' ++ digits
  else if point < n then
    digits.take point.toNat ++ ['.'] ++ digits.drop point.toNat
  else
    digits ++ List.replicate (point - n).toNat '0' ++ ['.', '0']

/-- The digits of a positive decimal with one digit before the point and an exponent. -/
def writeExponent (plusSign : Bool) (digits : List Char) (point : Int) : List Char :=
  let exponent := point - 1
  let mantissa :=
    match digits with
    | [] => []
    | [d] => [d]
    | d :: rest => d :: '.' :: rest
  let sign := if exponent < 0 then ['-'] else if plusSign then ['+'] else []
  mantissa ++ ['e'] ++ sign ++ Nat.toDigits 10 exponent.natAbs

/-- Removes the zeros at the end of a coefficient. -/
def trimZeros (digits : List Char) : List Char :=
  (digits.reverse.dropWhile (· == '0')).reverse

/-- Writes a double with the fewest digits that read back to it. -/
def Format.write (style : Format) (d : Double) : String :=
  let signed (negative : Bool) (text : String) := if negative then "-" ++ text else text
  match d.classify with
  | .notANumber => style.notANumber
  | .infinite negative => signed negative style.infinity
  | .zero negative => signed negative "0.0"
  | .finite negative m q =>
    let decimal := shortest m q
    let all := Nat.toDigits 10 decimal.coefficient
    let digits := trimZeros all
    -- The value is `0.digits * 10^point`.
    let point : Int := (all.length : Int) + decimal.exponent
    let body :=
      if style.least ≤ point - 1 && point - 1 < style.bound then writePositional digits point
      else writeExponent style.plusSign digits point
    signed negative (String.ofList body)

end Gateway.Decimal
