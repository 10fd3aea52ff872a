/-
Module: Gateway.Json.Value
Layer: Json
Purpose: JSON values, with objects listed by ascending key.
Main exports: Json, Json.Number, Json.Fields, Json.ofFields, Json.Canonical, Json.Integral
-/
import Gateway.SortedMap
import Gateway.Decimal.Shortest

namespace Gateway

/-!
An object is kept as the listing of its entries by ascending key, with one entry a key, so that two
objects with the same content are the same value and have the same text.  `Json.ofFields` builds
that listing; `Json.Canonical` says of a whole value that every object in it is listed so, and
`Json.Integral` that it holds no number but integers of 64 bits.
-/

/-- A JSON number: an integer that fits 64 bits, signed or unsigned, or a double. -/
inductive Json.Number where
  | integer (value : Int)
  | double (value : Double)
deriving DecidableEq, Repr, Inhabited

/-- A JSON value. -/
inductive Json where
  | null
  | bool (value : Bool)
  | number (value : Json.Number)
  | string (value : String)
  | array (items : List Json)
  | object (fields : List (String × Json))
deriving Repr, Inhabited, BEq

namespace Json

/-- The entries of an object. -/
abbrev Fields := List (String × Json)

/-- An integer. -/
def int (n : Int) : Json :=
  .number (.integer n)

/-- A natural number. -/
def nat (n : Nat) : Json :=
  int n

/-- The object of a list of entries; of two entries with one key the later stays. -/
def ofFields (entries : Fields) : Json :=
  .object (entries.foldl (fun fields e => insertSorted e.1 e.2 fields) [])

/-- The value under a key of an object. -/
def field? (key : String) : Json → Option Json
  | .object fields => fields.lookup key
  | _ => none

mutual

/-- Every object of the value is listed by strictly ascending key. -/
def Canonical : Json → Prop
  | .array items => CanonicalItems items
  | .object fields => Ascending fields ∧ CanonicalFields fields
  | _ => True

/-- `Canonical` for each item. -/
def CanonicalItems : List Json → Prop
  | [] => True
  | item :: items => Canonical item ∧ CanonicalItems items

/-- `Canonical` for the value of each entry. -/
def CanonicalFields : List (String × Json) → Prop
  | [] => True
  | (_, value) :: fields => Canonical value ∧ CanonicalFields fields

end

/-- The smallest integer that is kept as an integer. -/
def minInteger : Int := -(Int.pow 2 63)

/-- The largest integer that is kept as an integer. -/
def maxInteger : Int := Int.pow 2 64 - 1

mutual

/-- Every number of the value is an integer that is kept as one. -/
def Integral : Json → Prop
  | .number (.integer n) => minInteger ≤ n ∧ n ≤ maxInteger
  | .number (.double _) => False
  | .array items => IntegralItems items
  | .object fields => IntegralFields fields
  | _ => True

/-- `Integral` for each item. -/
def IntegralItems : List Json → Prop
  | [] => True
  | item :: items => Integral item ∧ IntegralItems items

/-- `Integral` for the value of each entry. -/
def IntegralFields : List (String × Json) → Prop
  | [] => True
  | (_, value) :: fields => Integral value ∧ IntegralFields fields

end

end Json

end Gateway
