/-
Module: Gateway.SocketAddress
Layer: Data
Purpose: Addresses that a listener can be bound to.
Main exports: IpAddress, SocketAddress, SocketAddress.parse?, SocketAddress.print
-/
import Gateway.Text.Ascii

namespace Gateway

/-!
An address is an IP address in numbers, a colon, and a number of sixteen bits.  Octets have no
leading zeros, groups have at most four hexadecimal digits, and the number after the colon may have
leading zeros.  A version 6 address stands in brackets and may carry a numeric zone after a percent
sign; `::` stands for one group of zeros or more.
-/

/-- An IP address: four octets, or eight groups of sixteen bits. -/
inductive IpAddress where
  | v4 (octets : List Nat)
  | v6 (groups : List Nat) (zone : Nat)
deriving Repr, DecidableEq

/-- An IP address, and the number of a service there; zero asks for any that is free. -/
structure SocketAddress where
  ip : IpAddress
  portNumber : Nat
deriving Repr, DecidableEq

namespace SocketAddress

/-- The digits of a base that a text opens with. -/
def digits (base : Nat) (s : List Char) : List Nat :=
  (s.map Ascii.hexValue?).takeWhile (fun d => d.any (· < base)) |>.filterMap id

/-- A number of a base in front of a text: at least one digit, all its digits taken. -/
def number? (base bound : Nat) (s : List Char) : Option (Nat × List Nat × List Char) :=
  let ds := digits base s
  let n := ds.foldl (fun n d => base * n + d) 0
  if ds.isEmpty || bound < n then none else some (n, ds, s.drop ds.length)

/-- A given character in front of a text. -/
def skip? (c : Char) : List Char → Option (List Char)
  | d :: rest => if d == c then some rest else none
  | [] => none

/-- An octet: no leading zero, at most 255. -/
def octet? (s : List Char) : Option (Nat × List Char) := do
  let (n, ds, rest) ← number? 10 255 s
  if ds.length > 1 && ds.head? == some 0 then none else some (n, rest)

/-- Four octets with points between them. -/
def v4? (s : List Char) : Option (List Nat × List Char) := do
  let (a, s) ← octet? s
  let (b, s) ← octet? (← skip? '.' s)
  let (c, s) ← octet? (← skip? '.' s)
  let (d, s) ← octet? (← skip? '.' s)
  return ([a, b, c, d], s)

/-- A group: one to four hexadecimal digits. -/
def group? (s : List Char) : Option (Nat × List Char) := do
  let (n, ds, rest) ← number? 16 0xFFFF s
  if ds.length > 4 then none else some (n, rest)

/-- Groups with colons between them, at most `room`; the last two may be written as four octets,
which the flag tells. -/
def groups : Nat → Bool → List Char → List Nat × Bool × List Char
  | 0, _, s => ([], false, s)
  | room + 1, first, s =>
    match if first then some s else skip? ':' s with
    | none => ([], false, s)
    | some body =>
      match if room = 0 then none else v4? body with
      | some ([a, b, c, d], rest) => ([256 * a + b, 256 * c + d], true, rest)
      | _ =>
        match group? body with
        | some (g, rest) =>
          let (gs, octets, rest) := groups room false rest
          (g :: gs, octets, rest)
        | none => ([], false, s)

/-- Eight groups, or fewer around a `::`. -/
def v6? (s : List Char) : Option (List Nat × List Char) :=
  let (front, octets, s) := groups 8 true s
  if front.length = 8 then some (front, s)
  else if octets then none
  else do
    let s ← skip? ':' (← skip? ':' s)
    let (back, _, s) := groups (7 - front.length) true s
    return (front ++ List.replicate (8 - front.length - back.length) 0 ++ back, s)

/-- A colon and a number of sixteen bits at the end of a text. -/
def portNumber? (s : List Char) : Option Nat := do
  let (n, _, rest) ← number? 10 65535 (← skip? ':' s)
  if rest.isEmpty then some n else none

/-- Reads an address with a version 4 IP. -/
def parseV4? (s : List Char) : Option SocketAddress := do
  let (octets, s) ← v4? s
  return ⟨.v4 octets, ← portNumber? s⟩

/-- A percent sign and a zone in front of a text. -/
def zone? (s : List Char) : Option (Nat × List Char) := do
  let (n, _, rest) ← number? 10 (Nat.pow 2 32 - 1) (← skip? '%' s)
  return (n, rest)

/-- Reads an address with a version 6 IP. -/
def parseV6? (s : List Char) : Option SocketAddress := do
  let (groups, s) ← v6? (← skip? '[' s)
  let (zone, s) := (zone? s).getD (0, s)
  return ⟨.v6 groups zone, ← portNumber? (← skip? ']' s)⟩

/-- Reads an address. -/
def parse? (text : String) : Option SocketAddress :=
  parseV4? text.toList <|> parseV6? text.toList

/-! ### Writing -/

/-- The runs of zeros in a list of groups: where each begins and how long it is. -/
def zeroRuns (place : Nat) : List Nat → List (Nat × Nat)
  | [] => []
  | g :: rest =>
    if g = 0 then
      match zeroRuns (place + 1) rest with
      | (start, length) :: runs =>
        if start = place + 1 then (place, length + 1) :: runs
        else (place, 1) :: (start, length) :: runs
      | [] => [(place, 1)]
    else zeroRuns (place + 1) rest

/-- The first of the longest runs of zeros, if it has two groups or more. -/
def longestRun (groups : List Nat) : Option (Nat × Nat) :=
  (zeroRuns 0 groups).foldl (fun best run =>
    if run.2 > (best.map (·.2)).getD 1 then some run else best) none

/-- Numbers with points between them. -/
def printOctets (octets : List Nat) : String :=
  ".".intercalate (octets.map toString)

/-- Groups with colons between them. -/
def printGroups (groups : List Nat) : String :=
  ":".intercalate (groups.map Ascii.hexLower)

/-- A version 6 IP in its shortest form; one that stands for a version 4 IP ends in octets. -/
def printV6 (groups : List Nat) : String :=
  match groups with
  | [0, 0, 0, 0, 0, 0xFFFF, a, b] =>
    "::ffff:" ++ printOctets [a / 256, a % 256, b / 256, b % 256]
  | _ =>
    match longestRun groups with
    | some (start, length) =>
      printGroups (groups.take start) ++ "::" ++ printGroups (groups.drop (start + length))
    | none => printGroups groups

/-- Writes an address. -/
def print (address : SocketAddress) : String :=
  match address.ip with
  | .v4 octets => printOctets octets ++ ":" ++ toString address.portNumber
  | .v6 groups zone =>
    let zone := if zone = 0 then "" else "%" ++ toString zone
    "[" ++ printV6 groups ++ zone ++ "]:" ++ toString address.portNumber

end SocketAddress

end Gateway
