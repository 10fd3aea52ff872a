/-
Module: Gateway.Toml.Reader
Layer: Toml
Purpose: Reading TOML text as a document.
Main exports: Toml.readValue?, Toml.read?
-/
import Gateway.Toml.Scalar
import Gateway.Toml.Tree

namespace Gateway.Toml

/-!
A text is a sequence of lines: blank ones, comments, headers, and keys with values.  The reader
holds the document built so far and the table that the last header opened, which joins the document
when the next header or the end of the text comes.
-/

/-! ### Values -/

/-- Leaves out blanks, line breaks and comments inside an array; a comment ends with its line. -/
def skipLines : Nat → List Char → Option (List Char)
  | 0, s => some s
  | rounds + 1, s =>
    let s := skipBlanks s
    match s with
    | '#' :: _ => do skipLines rounds (← lineBreak? (skipComment s))
    | '\n' :: _ => do skipLines rounds (← lineBreak? s)
    | '\r' :: _ => do skipLines rounds (← lineBreak? s)
    | _ => some s

/-- Leaves out all that may stand between the values of an array. -/
def skipSpace? (s : List Char) : Option (List Char) :=
  skipLines (s.length + 1) s

/-- The values of an array after its bracket, read by `item`; a comma may stand after the last. -/
def readItems (item : List Char → Option (Document × List Char)) :
    Nat → List Char → Option (List Document × List Char)
  | 0, _ => none
  | rounds + 1, s => do
    let s ← skipSpace? s
    match s with
    | ']' :: rest => return ([], rest)
    | _ =>
      let (v, s) ← item s
      let s ← skipSpace? s
      match s with
      | ',' :: rest => do
        let (vs, rest) ← readItems item rounds rest
        return (v :: vs, rest)
      | ']' :: rest => return ([v], rest)
      | _ => none

/-- A key, an equals sign, and the value that `item` reads. -/
def readEntry? (item : List Char → Option (Document × List Char)) (s : List Char) :
    Option (List String × Document × List Char) := do
  let (key, s) ← readKey? s
  let (v, s) ← item (skipBlanks (← skip? '=' s))
  return (key, v, s)

/-- The entries of an inline table after its brace: on one line, without a comma after the last. -/
def readFields (item : List Char → Option (Document × List Char)) :
    Nat → Table → List Char → Option (Table × List Char)
  | 0, _, _ => none
  | rounds + 1, t, s => do
    let (key, v, s) ← readEntry? item s
    let t ← t.insertAt? key v
    match skipBlanks s with
    | ',' :: rest => readFields item rounds t rest
    | '}' :: rest => return (t, rest)
    | _ => none

/-- A word in front of a text. -/
def word? (word : List Char) (value : Document) (s : List Char) : Option (Document × List Char) :=
  if s.take word.length == word then some (value, s.drop word.length) else none

/-- A value, nested at most to the given depth. -/
def readValue? : Nat → List Char → Option (Document × List Char)
  | depth, s =>
    match s with
    | '"' :: _ => do
      let (text, rest) ← readString? s
      return (.string text, rest)
    | '\'' :: _ => do
      let (text, rest) ← readString? s
      return (.string text, rest)
    | '[' :: rest =>
      match depth with
      | 0 => none
      | depth + 1 => do
        let (items, rest) ← readItems (readValue? depth) (rest.length + 1) rest
        return (.list items, rest)
    | '{' :: rest =>
      match depth with
      | 0 => none
      | depth + 1 =>
        match skipBlanks rest with
        | '}' :: rest => return (.table [], rest)
        | _ => do
          let (t, rest) ← readFields (readValue? depth) (rest.length + 1) Table.empty rest
          return (t.toDocument, rest)
    | 't' :: _ => word? ['t', 'r', 'u', 'e'] (.bool true) s
    | 'f' :: _ => word? ['f', 'a', 'l', 's', 'e'] (.bool false) s
    | 'i' :: _ => decimal? s
    | 'n' :: _ => decimal? s
    | c :: _ => if c == '+' || c == '-' || Ascii.isDigit c then readNumber? s else none
    | [] => none

/-! ### Lines -/

/-- A document under construction. -/
structure Draft where
  root : Table
  /-- The table that is open, its key, and whether it is an item of an array of tables.  The key is
  empty before the first header. -/
  current : Table
  key : List String
  isItem : Bool

/-- A document that has not begun. -/
def Draft.empty : Draft := ⟨Table.empty, Table.empty, [], false⟩

/-- Puts the open table into the document. -/
def Draft.close? (d : Draft) : Option Table :=
  if d.key.isEmpty then some d.current
  else if d.isItem then d.root.closeItem? d.key d.current
  else d.root.closeTable? d.key d.current

/-- The rest of a line: blanks, a comment, and the line's end. -/
def lineEnd? (s : List Char) : Option (List Char) :=
  let s := skipComment (skipBlanks s)
  if s.isEmpty then some [] else lineBreak? s

/-- One line that is not blank, from its first character. -/
def readLine? (d : Draft) (s : List Char) : Option (Draft × List Char) :=
  match s with
  | '#' :: _ => do return (d, ← lineEnd? s)
  | '\n' :: rest => some (d, rest)
  | '\r' :: '\n' :: rest => some (d, rest)
  | '[' :: '[' :: rest => do
    let (key, s) ← readKey? rest
    let s ← lineEnd? (← skip? ']' (← skip? ']' s))
    let root ← (← d.close?).openItem? key
    return (⟨root, Table.empty, key, true⟩, s)
  | '[' :: rest => do
    let (key, s) ← readKey? rest
    let s ← lineEnd? (← skip? ']' s)
    let (current, root) ← (← d.close?).openTable? key
    return (⟨root, current, key, false⟩, s)
  | _ => do
    let (key, v, s) ← readEntry? (readValue? nestingLimit) s
    let s ← lineEnd? s
    return ({ d with current := ← d.current.insertAt? key v }, s)

/-- All lines of a text. -/
def readLines : Nat → Draft → List Char → Option Draft
  | 0, _, _ => none
  | rounds + 1, d, s =>
    match skipBlanks s with
    | [] => some d
    | s => do
      let (d, rest) ← readLine? d s
      readLines rounds d rest

/-- Reads a text as a document; a byte order mark in front is left out. -/
def read? (text : String) : Option Document := do
  let s := text.toList
  let s := if s.head? == some '\ufeff' then s.drop 1 else s
  let d ← readLines (s.length + 1) Draft.empty s
  return (← d.close?).toDocument

end Gateway.Toml
