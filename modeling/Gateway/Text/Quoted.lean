/-
Module: Gateway.Text.Quoted
Layer: Text
Purpose: Texts as they are quoted in messages.
Main exports: Quoted.quote
-/
import Gateway.Text.Ascii
import Gateway.Text.Printable

namespace Gateway.Quoted

/-!
A quoted text stands between double quotes.  The quote and the backslash are escaped, line breaks,
tabs and the null character have escapes of their own, and any other character that is not printable
is given by its code in braces.
-/

/-- A character inside a quoted text. -/
def quoteChar (c : Char) : List Char :=
  if c == '"' then ['\\', '"']
  else if c == '\\' then ['\\', '\\']
  else if c == '\n' then ['\\', 'n']
  else if c == '\r' then ['\\', 'r']
  else if c == '\t' then ['\\', 't']
  else if c == '\x00' then ['\\', '0']
  else if Printable.isPrintable c then [c]
  else ['\\', 'u', '{'] ++ (Ascii.hexLower c.toNat).toList ++ ['}']

/-- A text between quotes. -/
def quote (text : String) : String :=
  String.ofList ('"' :: text.toList.flatMap quoteChar ++ ['"'])

end Gateway.Quoted
