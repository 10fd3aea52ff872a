/-
Module: Gateway.Http.Header
Layer: Http
Purpose: Header names, header values and the headers of a message.
Main exports: Http.HeaderName, Http.HeaderValue, Http.Headers, Http.Headers.values,
  Http.Headers.set
-/
import Gateway.Http.Method
import Gateway.Text.Utf8

namespace Gateway.Http

/-!
Header names compare without regard to case, so a name is kept in lower case.  The headers of a
message are the list of its fields in the order in which they arrived; fields of one name keep their
order, and nothing depends on how fields of different names are interleaved.
-/

/-- The longest header name, in bytes. -/
def longestName : Nat := 65535

/-- A token of admissible length without upper-case letters. -/
def isHeaderName (text : String) : Bool :=
  isToken text && text.toList.length ≤ longestName && !text.toList.any Ascii.isUpper

/-- A header name, in lower case. -/
structure HeaderName where
  text : String
  valid : isHeaderName text = true
deriving DecidableEq, Repr

namespace HeaderName

/-- The name of that spelling, whatever its case. -/
def ofString? (text : String) : Option HeaderName :=
  let lowered := String.ofList (text.toList.map Ascii.lower)
  if h : isHeaderName lowered = true then some ⟨lowered, h⟩ else none

/-- The name spelled by bytes. -/
def ofBytes? (bytes : List UInt8) : Option HeaderName :=
  ofString? (String.ofList (bytes.map fun b => Char.ofNat b.toNat))

end HeaderName

/-- A byte of a header value: a tab, or anything but a control character. -/
def isValueByte (b : UInt8) : Bool :=
  b == 0x09 || (0x20 ≤ b && b != 0x7F)

/-- A header value: bytes, which need not be text. -/
structure HeaderValue where
  bytes : List UInt8
  valid : bytes.all isValueByte = true
deriving DecidableEq, Repr

namespace HeaderValue

/-- The value of those bytes, unless one of them is a control character. -/
def ofBytes? (bytes : List UInt8) : Option HeaderValue :=
  if h : bytes.all isValueByte = true then some ⟨bytes, h⟩ else none

/-- The value with the bytes of a text. -/
def ofString? (text : String) : Option HeaderValue :=
  ofBytes? (Utf8.encode text)

/-- The value as text, with a replacement character for each broken unit. -/
def text (value : HeaderValue) : String :=
  Utf8.decodeLossy value.bytes

end HeaderValue

/-- The fields of a message in the order in which they arrived. -/
abbrev Headers := List (HeaderName × HeaderValue)

namespace Headers

/-- All values of a name, in their order. -/
def values (headers : Headers) (name : HeaderName) : List HeaderValue :=
  (headers.filter (·.1 == name)).map (·.2)

/-- The first value of a name. -/
def first? (headers : Headers) (name : HeaderName) : Option HeaderValue :=
  (headers.find? (·.1 == name)).map (·.2)

/-- Makes a value the only one of its name. -/
def set (headers : Headers) (name : HeaderName) (value : HeaderValue) : Headers :=
  headers.filter (·.1 != name) ++ [(name, value)]

end Headers

end Gateway.Http
