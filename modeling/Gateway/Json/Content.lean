/-
Module: Gateway.Json.Content
Layer: Json
Purpose: What a JSON value holds, in whatever order its entries are listed.
Main exports: Json.Step, Json.Kind, Json.find?, Json.SameContent, Json.assemble, Json.nesting,
  Json.Within
-/
import Gateway.Json.Value

namespace Gateway.Json

/-!
A value is looked into along a path of keys and indices.  Two values hold the same if the same is
found along every path; in what order the entries of an object are listed does not show then, and of
two entries with one key only the later does.  `assemble` puts the entries of every object in one
after the other, in the order in which they are listed.
-/

/-- A step of a path. -/
inductive Step where
  | index (i : Nat)
  | key (key : String)
deriving DecidableEq, Repr

/-- What there is to see of a value without another step. -/
inductive Kind where
  | null
  | bool (value : Bool)
  | number (value : Number)
  | string (value : String)
  | array (length : Nat)
  | object
deriving DecidableEq, Repr

/-- The kind of a value. -/
def kind : Json → Kind
  | .null => .null
  | .bool value => .bool value
  | .number value => .number value
  | .string value => .string value
  | .array items => .array items.length
  | .object _ => .object

/-- The value of the last entry with a key. -/
def latest? {β : Type} (key : String) (entries : List (String × β)) : Option β :=
  entries.foldl (fun found e => if e.1 = key then some e.2 else found) none

/-- What is found along a path. -/
def find? : List Step → Json → Option Kind
  | [], value => some value.kind
  | .index i :: path, .array items => items[i]?.bind (find? path)
  | .key key :: path, .object fields => (latest? key fields).bind (find? path)
  | _, _ => none

/-- The same is found along every path. -/
def SameContent (v w : Json) : Prop :=
  ∀ path, find? path v = find? path w

mutual

/-- The value whose objects are put together entry by entry. -/
def assemble : Json → Json
  | .array items => .array (assembleItems items)
  | .object fields => ofFields (assembleFields fields)
  | value => value

/-- `assemble` for each item. -/
def assembleItems : List Json → List Json
  | [] => []
  | item :: items => assemble item :: assembleItems items

/-- `assemble` for the value of each entry. -/
def assembleFields : Fields → Fields
  | [] => []
  | (key, value) :: fields => (key, assemble value) :: assembleFields fields

end

mutual

/-- How deep arrays and objects are nested. -/
def nesting : Json → Nat
  | .array items => nestingItems items + 1
  | .object fields => nestingFields fields + 1
  | _ => 0

/-- The deepest `nesting` of an item. -/
def nestingItems : List Json → Nat
  | [] => 0
  | item :: items => max (nesting item) (nestingItems items)

/-- The deepest `nesting` of the value of an entry. -/
def nestingFields : Fields → Nat
  | [] => 0
  | (_, value) :: fields => max (nesting value) (nestingFields fields)

end

/-- The first value stands somewhere in the second. -/
inductive Within : Json → Json → Prop where
  | self {v : Json} : Within v v
  | item {part item : Json} {items : List Json} : item ∈ items → Within part item →
      Within part (.array items)
  | field {part : Json} {e : String × Json} {fields : Fields} : e ∈ fields → Within part e.2 →
      Within part (.object fields)

end Gateway.Json
