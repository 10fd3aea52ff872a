/-
Module: Gateway.Http.Uri
Layer: Http
Purpose: Request targets: scheme, authority, path and query.
Main exports: Http.Uri, Http.UriFault, Http.UriFault.message, Http.Uri.parse
-/
import Gateway.Text.Ascii
import Gateway.Text.Split
import Gateway.Text.Utf8

namespace Gateway.Http

/-!
Three forms of target are read: a path with an optional query (`/p?q`), an authority alone
(`host:80`), and a full address (`scheme://authority/p?q`).  A fragment is dropped unread.  Paths
and queries are kept as written, percent signs included.
-/

/-- Why a text is no request target. -/
inductive UriFault where
  | badCharacter
  | badAuthority
  | badFormat
  | tooLong
  | empty
  | schemeTooLong
deriving DecidableEq, Repr

/-- The wording of a fault. -/
def UriFault.message : UriFault → String
  | .badCharacter => "invalid uri character"
  | .badAuthority => "invalid authority"
  | .badFormat => "invalid format"
  | .tooLong => "uri too long"
  | .empty => "empty string"
  | .schemeTooLong => "scheme too long"

/-- A request target. -/
structure Uri where
  scheme : Option String
  authority : Option String
  path : String
  query : Option String
deriving DecidableEq, Repr, Inhabited

namespace Uri

/-- The longest target, in bytes. -/
def longest : Nat := 65534

/-- The longest scheme. -/
def longestScheme : Nat := 64

/-- Whether a character's code lies in one of the ranges. -/
def inRanges (ranges : List (Nat × Nat)) (c : Char) : Bool :=
  ranges.any fun r => r.1 ≤ c.toNat && c.toNat ≤ r.2

/-- A character that a path may hold.  All characters outside ASCII may stand in it, and of those in
ASCII no control character, U+007F included. -/
def isPathChar (c : Char) : Bool :=
  0x80 ≤ c.toNat ||
    inRanges [(0x21, 0x22), (0x24, 0x3B), (0x3D, 0x3D), (0x40, 0x5F), (0x61, 0x7E)] c

/-- A character that a query may hold.  Control characters and those outside ASCII are as in a
path. -/
def isQueryChar (c : Char) : Bool :=
  0x80 ≤ c.toNat || inRanges [(0x21, 0x21), (0x24, 0x3B), (0x3D, 0x3D), (0x3F, 0x7E)] c

/-- A character that an authority may hold, the percent sign apart. -/
def isAuthorityChar (c : Char) : Bool :=
  Ascii.isAlphanumeric c ||
    ['!', '$', '&', '\'', '(', ')', '*', '+', ',', '-', '.', ':', ';', '=', '@', '[', ']', '_',
      '~'].contains c

/-- A character that ends an authority. -/
def endsAuthority (c : Char) : Bool :=
  c == '/' || c == '?' || c == '#'

/-- A character of a scheme. -/
def isSchemeChar (c : Char) : Bool :=
  Ascii.isAlphanumeric c || c == '+' || c == '-' || c == '.'

/-- A path and the query after its question mark, the fragment left out. -/
def readPathAndQuery (s : List Char) : Except UriFault (List Char × Option (List Char)) :=
  let s := (cutAt '#' s).1
  let (path, query) := cutAt '?' s
  if !path.all isPathChar then .error .badCharacter
  else if !(query.getD []).all isQueryChar then .error .badCharacter
  else .ok (path, query)

/-- What has been seen of an authority. -/
structure AuthorityScan where
  /-- Colons since the last `@` or closing bracket. -/
  colons : Nat := 0
  opened : Bool := false
  closed : Bool := false
  /-- A percent sign since the last `@` or closing bracket. -/
  percent : Bool := false
  /-- The character before the current one was `@`. -/
  afterAt : Bool := false

/-- The most colons in a row of groups. -/
def mostColons : Nat := 8

/-- One character of an authority. -/
def AuthorityScan.step (scan : AuthorityScan) (c : Char) : Except UriFault AuthorityScan :=
  let scan := { scan with afterAt := c == '@' }
  if c == ':' then
    if mostColons ≤ scan.colons then .error .badAuthority
    else .ok { scan with colons := scan.colons + 1 }
  else if c == '[' then
    if scan.percent || scan.opened then .error .badAuthority else .ok { scan with opened := true }
  else if c == ']' then
    if !scan.opened || scan.closed then .error .badAuthority
    else .ok { scan with closed := true, colons := 0, percent := false }
  else if c == '@' then .ok { scan with colons := 0, percent := false }
  else if c == '%' then .ok { scan with percent := true }
  else if isAuthorityChar c then .ok scan
  else .error .badCharacter

/-- Checks an authority: brackets pair up, one colon at most stands outside them and outside the
user part, a percent sign stands only inside one of these, and something follows an `@`. -/
def checkAuthority (authority : List Char) : Except UriFault Unit := do
  let scan ← authority.foldlM AuthorityScan.step {}
  if scan.opened != scan.closed || 1 < scan.colons || scan.afterAt || scan.percent then
    .error .badAuthority

/-- Cuts the authority off a text. -/
def splitAuthority (s : List Char) : List Char × List Char :=
  (s.takeWhile (!endsAuthority ·), s.dropWhile (!endsAuthority ·))

/-- The length of the scheme that a text opens with, where `://` follows it; that mark alone opens
none. -/
def schemeLength? (s : List Char) : Option Nat :=
  let scheme := s.takeWhile isSchemeChar
  match s.drop scheme.length with
  | ':' :: '/' :: '/' :: _ => if s.length == 3 then none else some scheme.length
  | _ => none

/-- A target that does not open with a slash. -/
def parseFull (s : List Char) : Except UriFault Uri :=
  match schemeLength? s with
  | some n =>
    if longestScheme < n then .error .schemeTooLong
    else do
      let rest := s.drop (n + 3)
      if rest.isEmpty then .error .empty
      let (authority, rest) := splitAuthority rest
      checkAuthority authority
      if authority.isEmpty then .error .badFormat
      let (path, query) ← readPathAndQuery rest
      return {
        scheme := some (String.ofList (s.take n))
        authority := some (String.ofList authority)
        path := if path.isEmpty then "/" else String.ofList path
        query := query.map String.ofList }
  | none => do
    let (authority, rest) := splitAuthority s
    checkAuthority authority
    if !rest.isEmpty then .error (if s.length == 1 then .badCharacter else .badFormat)
    return {
      scheme := none
      authority := some (String.ofList authority)
      path := ""
      query := none }

/-- Reads a request target. -/
def parse (text : String) : Except UriFault Uri :=
  let s := text.toList
  if longest < text.utf8ByteSize then .error .tooLong
  else
    match s with
    | [] => .error .empty
    | ['*'] => .ok { scheme := none, authority := none, path := "*", query := none }
    | '/' :: _ => do
      let (path, query) ← readPathAndQuery s
      return {
        scheme := none
        authority := none
        path := String.ofList path
        query := query.map String.ofList }
    | _ => parseFull s

end Uri

end Gateway.Http
