/-
Module: Gateway.Toml.Tree
Layer: Toml
Purpose: Tables under construction, and the rules against defining one twice.
Main exports: Toml.Node, Toml.Table, Toml.Table.insertAt?, Toml.Table.openTable?,
  Toml.Table.closeTable?, Toml.Table.openItem?, Toml.Table.closeItem?, Toml.Table.toDocument
-/
import Gateway.Document

namespace Gateway.Toml

/-!
A table comes to be in one of four ways: by its own header, by the header of a table inside it, by a
dotted key, or as an item of an array of tables.  It may be defined by a header once, dotted keys
extend only tables that no header defined, and a value is never extended.  Entries keep the order in
which they were put in; a table that a later header defines is listed at the place of that header.
-/

/-- What stands under a key. -/
inductive Node where
  | value (content : Document)
  /-- `implied`: no header of its own defined it.  `dotted`: a dotted key made it. -/
  | table (implied dotted : Bool) (entries : List (String × Node))
  | tables (items : List (List (String × Node)))
deriving Inhabited

/-- A table under construction. -/
structure Table where
  implied : Bool
  dotted : Bool
  entries : List (String × Node)
deriving Inhabited

namespace Table

/-- The table of a document that has not begun. -/
def empty : Table := ⟨false, false, []⟩

/-- The table as what stands under a key. -/
def toNode (t : Table) : Node :=
  .table t.implied t.dotted t.entries

/-- Puts a node under a key, in place or at the end. -/
def put (t : Table) (key : String) (node : Node) : Table :=
  if (t.entries.lookup key).isSome then
    { t with entries := t.entries.map fun e => if e.1 == key then (key, node) else e }
  else { t with entries := t.entries ++ [(key, node)] }

/-- Takes a key out. -/
def remove (t : Table) (key : String) : Table :=
  { t with entries := t.entries.filter (·.1 != key) }

/-- Changes the last item of an array of tables. -/
def modifyLast? (items : List (List (String × Node))) (f : Table → Option Table) :
    Option (List (List (String × Node))) :=
  match items.reverse with
  | [] => none
  | last :: before => do
    let changed ← f { implied := false, dotted := false, entries := last }
    return (changed.entries :: before).reverse

/-- Changes the table at the end of a path.  Tables that are missing on the way are made; of an
array of tables the way leads into its last item.  A dotted path does not enter a table that a
header defined. -/
def modifyAt? (dotted : Bool) (f : Table → Option Table) : List String → Table → Option Table
  | [], t => f t
  | key :: path, t =>
    match t.entries.lookup key with
    | none => do
      let child ← modifyAt? dotted f path { implied := true, dotted := dotted, entries := [] }
      return t.put key child.toNode
    | some (.value _) => none
    | some (.tables items) => do
      let items ← modifyLast? items (modifyAt? dotted f path)
      return t.put key (.tables items)
    | some (.table implied isDotted entries) =>
      if dotted && !implied then none
      else do
        let child ← modifyAt? dotted f path ⟨implied, isDotted, entries⟩
        return t.put key child.toNode

/-- Puts a value under a dotted key, which must be new.  The last table on the way must have been
made by dotted keys, unless it is the starting one. -/
def insertAt? (t : Table) (key : List String) (value : Document) : Option Table :=
  match key.reverse with
  | [] => none
  | name :: path =>
    modifyAt? true (fun target =>
      if target.dotted == path.isEmpty then none
      else if (target.entries.lookup name).isSome then none
      else some (target.put name (.value value))) path.reverse t

/-- What a header finds under its key, and the document without it. -/
def take? (root : Table) (key : List String) : Option (Option Node × Table) :=
  match key.reverse with
  | [] => none
  | name :: path => do
    let found := find root (path.reverse ++ [name])
    let root ← modifyAt? false (fun parent => some (parent.remove name)) path.reverse root
    return (found, root)
where
  /-- The node at the end of a path. -/
  find (t : Table) : List String → Option Node
    | [] => none
    | [name] => t.entries.lookup name
    | key :: path =>
      match t.entries.lookup key with
      | some (.table implied dotted entries) => find ⟨implied, dotted, entries⟩ path
      | some (.tables items) => find ⟨false, false, items.getLast?.getD []⟩ path
      | _ => none

/-- Opens the table of a header: a new one, or one that is only implied so far, which is taken out
of the document until it is closed. -/
def openTable? (root : Table) (key : List String) : Option (Table × Table) := do
  let (found, root) ← take? root key
  match found with
  | none => return (empty, root)
  | some (.table true false entries) => return ({ empty with entries := entries }, root)
  | some _ => none

/-- Puts the table of a header into the document. -/
def closeTable? (root : Table) (key : List String) (t : Table) : Option Table :=
  match key.reverse with
  | [] => none
  | name :: path =>
    modifyAt? false (fun parent => some (parent.put name t.toNode)) path.reverse root

/-- Makes sure that an array of tables stands under a key. -/
def openItem? (root : Table) (key : List String) : Option Table :=
  match key.reverse with
  | [] => none
  | name :: path =>
    modifyAt? false (fun parent =>
      match parent.entries.lookup name with
      | none => some (parent.put name (.tables []))
      | some (.tables _) => some parent
      | some _ => none) path.reverse root

/-- Puts an item at the end of an array of tables. -/
def closeItem? (root : Table) (key : List String) (t : Table) : Option Table :=
  match key.reverse with
  | [] => none
  | name :: path =>
    modifyAt? false (fun parent =>
      match parent.entries.lookup name with
      | some (.tables items) => some (parent.put name (.tables (items ++ [t.entries])))
      | _ => none) path.reverse root

mutual

/-- A finished node as a document. -/
def nodeDocument : Node → Document
  | .value content => content
  | .table _ _ entries => .table (entriesDocument entries)
  | .tables items => .list (itemsDocument items)

/-- Finished entries as documents. -/
def entriesDocument : List (String × Node) → List (String × Document)
  | [] => []
  | (key, node) :: entries => (key, nodeDocument node) :: entriesDocument entries

/-- The items of a finished array of tables as documents. -/
def itemsDocument : List (List (String × Node)) → List Document
  | [] => []
  | entries :: items => .table (entriesDocument entries) :: itemsDocument items

end

/-- A finished table as a document. -/
def toDocument (t : Table) : Document :=
  .table (entriesDocument t.entries)

end Table

end Gateway.Toml
