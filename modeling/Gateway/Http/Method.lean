/-
Module: Gateway.Http.Method
Layer: Http
Purpose: HTTP methods, standard ones and extensions alike.
Main exports: Http.Method, Http.Method.ofString?, Http.Method.ofBytes?
-/
import Gateway.Text.Ascii

namespace Gateway.Http

/-- Whether a text is a token: at least one character, and token characters only. -/
def isToken (text : String) : Bool :=
  !text.toList.isEmpty && text.toList.all Ascii.isTokenChar

/-- A request method: any token, its case as it was written. -/
structure Method where
  text : String
  valid : isToken text = true
deriving DecidableEq, Repr

namespace Method

/-- The method of that name, unless the name is no token. -/
def ofString? (text : String) : Option Method :=
  if h : isToken text = true then some ⟨text, h⟩ else none

/-- The method spelled by bytes.  A byte outside ASCII is no token character. -/
def ofBytes? (bytes : List UInt8) : Option Method :=
  ofString? (String.ofList (bytes.map fun b => Char.ofNat b.toNat))

def get : Method := ⟨"GET", by decide +kernel⟩
def head : Method := ⟨"HEAD", by decide +kernel⟩
def connect : Method := ⟨"CONNECT", by decide +kernel⟩

instance : Inhabited Method := ⟨get⟩

end Method

end Gateway.Http
