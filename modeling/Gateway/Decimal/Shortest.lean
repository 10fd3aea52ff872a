/-
Module: Gateway.Decimal.Shortest
Layer: Decimal
Purpose: Double-precision values, and the fewest decimal digits that read back to one.
Main exports: Double, Double.ofFloat, Double.classify, Decimal.shortest
-/
namespace Gateway

/-!
A finite positive double is `m * 2^q` for an integer `m` below `2^53`.  The decimals that round to
it form an interval around it, which holds its ends exactly when `m` is even.  `Decimal.shortest`
looks for the coarsest decimal grid with a point in that interval, and takes the point nearest to
the value.
-/

/-- A double-precision number, given by its bits. -/
structure Double where
  bits : UInt64
deriving DecidableEq, Repr, Inhabited

namespace Double

/-- The number as a machine float. -/
def toFloat (d : Double) : Float :=
  Float.ofBits d.bits

/-- The bits of a machine float. -/
def ofFloat (f : Float) : Double :=
  ⟨f.toBits⟩

/-- What the bits of a double stand for. -/
inductive Kind where
  | notANumber
  | infinite (negative : Bool)
  | zero (negative : Bool)
  /-- The number `± significand * 2^exponent`, with a positive significand. -/
  | finite (negative : Bool) (significand : Nat) (exponent : Int)
deriving DecidableEq, Repr

/-- Reads the sign, exponent and fraction fields. -/
def classify (d : Double) : Kind :=
  let bits : Nat := d.bits.toNat
  let negative : Bool := bits / Nat.pow 2 63 == 1
  let field : Nat := bits / Nat.pow 2 52 % 2048
  let fraction : Nat := bits % Nat.pow 2 52
  if field == 2047 then
    if fraction == 0 then .infinite negative else .notANumber
  else if field == 0 then
    if fraction == 0 then .zero negative else .finite negative fraction (-1074)
  else .finite negative (fraction + Nat.pow 2 52) ((field : Int) - 1075)

end Double

namespace Decimal

/-- A positive decimal `coefficient * 10^exponent`. -/
structure Scaled where
  coefficient : Nat
  exponent : Int
deriving DecidableEq, Repr

/-- `a * 2^q` compared with `b * 10^e`, over a common integer scale. -/
def compareScaled (a : Nat) (q : Int) (b : Nat) (e : Int) : Ordering :=
  let left := a * Nat.pow 2 q.toNat * Nat.pow 10 (-e).toNat
  let right := b * Nat.pow 10 e.toNat * Nat.pow 2 (-q).toNat
  compare left right

/-- The largest `c` with `c * 10^e ≤ m * 2^q`. -/
def floorOnGrid (m : Nat) (q : Int) (e : Int) : Nat :=
  (m * Nat.pow 2 q.toNat * Nat.pow 10 (-e).toNat) / (Nat.pow 10 e.toNat * Nat.pow 2 (-q).toNat)

/-- The interval of reals that round to `m * 2^q`, its ends as multiples of `2^(q - 2)`. -/
structure Rounding where
  low : Nat
  high : Nat
  exponent : Int
  closed : Bool
deriving Repr

/-- Below a power of two the spacing halves, so the lower half-gap there is half as wide. -/
def roundingInterval (m : Nat) (q : Int) : Rounding where
  low := if m == Nat.pow 2 52 && q > -1074 then 4 * m - 1 else 4 * m - 2
  high := 4 * m + 2
  exponent := q - 2
  closed := m % 2 == 0

/-- Whether `c * 10^e` lies in the interval. -/
def Rounding.holds (r : Rounding) (c : Nat) (e : Int) : Bool :=
  let low := compareScaled r.low r.exponent c e
  let high := compareScaled r.high r.exponent c e
  (low == .lt || (r.closed && low == .eq)) && (high == .gt || (r.closed && high == .eq))

/-- Of the value's two neighbours on the grid of `10^e`, the nearer one that the interval holds. -/
def onGrid (m : Nat) (q : Int) (e : Int) : Option Scaled :=
  let r := roundingInterval m q
  let below := floorOnGrid m q e
  let above := below + 1
  match r.holds below e && below != 0, r.holds above e with
  | false, false => none
  | true, false => some ⟨below, e⟩
  | false, true => some ⟨above, e⟩
  | true, true =>
    -- The middle between the two neighbours decides; a value at the middle takes the even one.
    match compareScaled (2 * m) q (2 * below + 1) e with
    | .lt => some ⟨below, e⟩
    | .gt => some ⟨above, e⟩
    | .eq => some ⟨if below % 2 == 0 then below else above, e⟩

/-- The coarsest of the grids `10^e`, `10^(e-1)`, …, with a point in the interval. -/
def searchGrids (m : Nat) (q : Int) : Nat → Int → Scaled
  | 0, e => ⟨floorOnGrid m q e, e⟩
  | tries + 1, e =>
    match onGrid m q e with
    | some found => found
    | none => searchGrids m q tries (e - 1)

/-- A power of ten above the value `m * 2^q`, within a digit or two. -/
def magnitude (m : Nat) (q : Int) : Int :=
  ((m.log2 : Int) + q + 1) * 30103 / 100000 + 1

/-- The shortest decimal that rounds to `m * 2^q`, and the nearest one of that length. -/
def shortest (m : Nat) (q : Int) : Scaled :=
  searchGrids m q 20 (magnitude m q)

end Decimal

end Gateway
