import TabCompletion.Document.Basic
import TabCompletion.Number.Shortest
import TabCompletion.Text.Quoted

/-!
# Writing JSON

`write` gives a document on one line, `writeIndented` with one item to a line and two
spaces to a level. Both write ASCII only: a character outside it becomes one `\uXXXX`
escape, or two for a character beyond the basic plane.
-/

namespace TabCompletion.Json

/-- A 16-bit unit as an escape. -/
def unitEscape (n : Nat) : List Char := ['\\', 'u'] ++ Text.hexDigits 4 n

/-- A code point inside a JSON text. -/
def codeForm (n : Nat) : List Char :=
  if n = 0x22 then ['\\', '\x22']
  else if n = 0x5C then ['\\', '\\']
  else if n = 8 then ['\\', 'b']
  else if n = 9 then ['\\', 't']
  else if n = 10 then ['\\', 'n']
  else if n = 12 then ['\\', 'f']
  else if n = 13 then ['\\', 'r']
  else if 32 ≤ n && n < 127 then [Char.ofNat n]
  else if n < 0x10000 then unitEscape n
  else unitEscape (0xD800 + (n - 0x10000) / 1024) ++ unitEscape (0xDC00 + (n - 0x10000) % 1024)

/-- A text given by its code points. -/
def codesForm (codes : List Nat) : List Char := '\x22' :: codes.flatMap codeForm ++ ['\x22']

/-- A text. -/
def textForm (s : String) : List Char := codesForm (s.toList.map Char.toNat)

/-- A number of 64 bits. -/
def floatForm : Number.Binary64 → List Char
  | .nan => "NaN".toList
  | .infinite negative => if negative then "-Infinity".toList else "Infinity".toList
  | x => x.text.toList

/-- A value that is neither a list nor a mapping. -/
def scalarForm : Document → List Char
  | .bool b => if b then "true".toList else "false".toList
  | .int n => (toString n).toList
  | .float x => floatForm x
  | .text s => textForm s
  | .brokenText codes => codesForm codes
  | .bytes bs => codesForm (bs.map UInt8.toNat)
  | .date d => textForm d.text
  | .moment m => textForm m.text
  | _ => "null".toList

/-- A key: a text as it is, another value as the text of its form. -/
def keyForm : Document → List Char
  | .text s => textForm s
  | .brokenText codes => codesForm codes
  | d => '\x22' :: scalarForm d ++ ['\x22']

/-- How items are set apart: on one line, or one to a line under an indentation. -/
inductive Layout where
  | line
  | indented (depth : Nat)

/-- The layout one level further in. -/
def Layout.deeper : Layout → Layout
  | .line => .line
  | .indented depth => .indented (depth + 1)

/-- What stands before the first item. -/
def Layout.opening : Layout → List Char
  | .line => []
  | .indented depth => '\n' :: List.replicate (2 * (depth + 1)) ' '

/-- What stands between two items. -/
def Layout.between : Layout → List Char
  | .line => [',', ' ']
  | .indented depth => ',' :: '\n' :: List.replicate (2 * (depth + 1)) ' '

/-- What stands after the last item. -/
def Layout.closing : Layout → List Char
  | .line => []
  | .indented depth => '\n' :: List.replicate (2 * depth) ' '

/-- Items between two brackets; nothing stands between the brackets of an empty list. -/
def Layout.enclose (layout : Layout) (opened closed : Char) (items : List (List Char)) :
    List Char :=
  if items.isEmpty then [opened, closed]
  else opened :: layout.opening ++ layout.between.intercalate items ++ layout.closing ++ [closed]

mutual

/-- A document in a layout. -/
def form (layout : Layout) : Document → List Char
  | .list items => layout.enclose '[' ']' (itemForms layout items)
  | .set items => layout.enclose '[' ']' (itemForms layout items)
  | .map entries => layout.enclose '\x7b' '\x7d' (entryForms layout entries)
  | d => scalarForm d

/-- The items of a list in a layout. -/
def itemForms (layout : Layout) : List Document → List (List Char)
  | [] => []
  | d :: rest => form layout.deeper d :: itemForms layout rest

/-- The entries of a mapping in a layout. -/
def entryForms (layout : Layout) : List (Document × Document) → List (List Char)
  | [] => []
  | e :: rest => entryForm layout e :: entryForms layout rest

/-- An entry of a mapping in a layout. -/
def entryForm (layout : Layout) : Document × Document → List Char
  | (k, v) => keyForm k ++ [':', ' '] ++ form layout.deeper v

end

/-- A document on one line. -/
def write (d : Document) : String := String.ofList (form .line d)

/-- A document with one item to a line. -/
def writeIndented (d : Document) : String := String.ofList (form (.indented 0) d)

end TabCompletion.Json
