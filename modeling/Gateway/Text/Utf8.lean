/-
Module: Gateway.Text.Utf8
Layer: Text
Purpose: Text as UTF-8 bytes, read strictly or with replacement characters.
Main exports: Utf8.encode, Utf8.units, Utf8.decode?, Utf8.decodeLossy
-/
namespace Gateway.Utf8

/-!
`units` cuts a byte sequence into scalar values and *broken* units.  A broken unit is the longest
start of a well-formed sequence that the bytes do not complete, or a single byte that starts none;
so reading with replacement puts one U+FFFD for each, and reading strictly fails if there is one.
-/

/-- The bytes of a text. -/
def encode (text : String) : List UInt8 :=
  text.toList.flatMap String.utf8EncodeChar

/-- Where a reader stands between two bytes. -/
inductive Progress where
  /-- Between two sequences. -/
  | boundary
  /-- Inside a sequence that still owes `owed + 1` bytes, the next of them from `low` to `high`;
  `value` holds the bits read so far. -/
  | inside (owed : Nat) (low high : UInt8) (value : Nat)
deriving Repr, DecidableEq

/-- What the first byte of a unit does: it is a whole unit, or it opens a sequence. -/
def opening (a : UInt8) : List (Option Char) × Progress :=
  if a < 0x80 then ([some (Char.ofNat a.toNat)], .boundary)
  else if 0xC2 ≤ a && a ≤ 0xDF then ([], .inside 0 0x80 0xBF (a.toNat % 32))
  else if a == 0xE0 then ([], .inside 1 0xA0 0xBF (a.toNat % 16))
  else if a == 0xED then ([], .inside 1 0x80 0x9F (a.toNat % 16))
  else if 0xE1 ≤ a && a ≤ 0xEF then ([], .inside 1 0x80 0xBF (a.toNat % 16))
  else if a == 0xF0 then ([], .inside 2 0x90 0xBF (a.toNat % 8))
  else if a == 0xF4 then ([], .inside 2 0x80 0x8F (a.toNat % 8))
  else if 0xF1 ≤ a && a ≤ 0xF3 then ([], .inside 2 0x80 0xBF (a.toNat % 8))
  else ([none], .boundary)

/-- One byte: the units that it completes, and where the reader stands after it.  A byte that does
not continue the open sequence breaks it and starts anew. -/
def advance : Progress → UInt8 → List (Option Char) × Progress
  | .boundary, b => opening b
  | .inside owed low high value, b =>
    if low ≤ b && b ≤ high then
      let value := value * 64 + b.toNat % 64
      match owed with
      | 0 => ([some (Char.ofNat value)], .boundary)
      | owed + 1 => ([], .inside owed 0x80 0xBF value)
    else (none :: (opening b).1, (opening b).2)

/-- The units of a byte sequence, from a given standing. -/
def unitsFrom : Progress → List UInt8 → List (Option Char)
  | .boundary, [] => []
  | .inside .., [] => [none]
  | p, b :: rest => (advance p b).1 ++ unitsFrom (advance p b).2 rest

/-- The scalar values of a byte sequence in order, `none` for a broken unit. -/
def units (bytes : List UInt8) : List (Option Char) :=
  unitsFrom .boundary bytes

/-- The replacement character, U+FFFD. -/
def replacement : Char := '\ufffd'

/-- Reads bytes as text, one replacement character for each broken unit. -/
def decodeLossy (bytes : List UInt8) : String :=
  String.ofList ((units bytes).map (·.getD replacement))

/-- Reads bytes as text, or fails when a unit is broken. -/
def decode? (bytes : List UInt8) : Option String :=
  let read := units bytes
  if read.all Option.isSome then some (String.ofList (read.filterMap id)) else none

end Gateway.Utf8
