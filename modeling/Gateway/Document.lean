/-
Module: Gateway.Document
Layer: Data
Purpose: Untyped documents, the common form of what configuration formats hold.
Main exports: Document, Document.ofJson
-/
import Gateway.Json.Value

namespace Gateway

/-- An untyped document.  A table lists its entries in the order in which they are to be read. -/
inductive Document where
  | null
  | bool (value : Bool)
  | integer (value : Int)
  | double (value : Double)
  | string (value : String)
  | list (items : List Document)
  | table (entries : List (String × Document))
deriving Repr, Inhabited, BEq

namespace Document

mutual

/-- A JSON value as a document. -/
def ofJson : Json → Document
  | .null => .null
  | .bool b => .bool b
  | .number (.integer n) => .integer n
  | .number (.double d) => .double d
  | .string s => .string s
  | .array items => .list (ofItems items)
  | .object fields => .table (ofFields fields)

/-- The items of an array as documents. -/
def ofItems : List Json → List Document
  | [] => []
  | item :: items => ofJson item :: ofItems items

/-- The entries of an object as documents. -/
def ofFields : List (String × Json) → List (String × Document)
  | [] => []
  | (key, value) :: fields => (key, ofJson value) :: ofFields fields

end

end Document

end Gateway
