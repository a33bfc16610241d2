import TabCompletion.Document.Basic
import TabCompletion.Number.Shortest
import TabCompletion.Text.Quoted

/-!
# Documents as literals

How a value is shown inside a log line: texts as quoted literals, lists in brackets,
mappings in braces, items separated by a comma and a space.
-/

namespace TabCompletion.Document

/-- The literal of bytes. -/
def bytesLiteral (bs : List UInt8) : String :=
  let one (b : UInt8) : List Char :=
    if b = 0x5C || b = 0x27 then ['\\', Char.ofNat b.toNat]
    else if b = 9 then ['\\', 't']
    else if b = 10 then ['\\', 'n']
    else if b = 13 then ['\\', 'r']
    else if 32 ≤ b && b < 127 then [Char.ofNat b.toNat]
    else ['\\', 'x'] ++ Text.hexDigits 2 b.toNat
  "b'" ++ String.ofList (bs.flatMap one) ++ "'"

mutual

/-- The literal of a value. -/
def literal : Document → String
  | null => "None"
  | bool b => if b then "True" else "False"
  | int n => toString n
  | float x => x.text
  | text s => Text.quoted s
  | brokenText codes => Text.quotedCodes codes
  | bytes bs => bytesLiteral bs
  | date d => d.text
  | moment m => m.text
  | list items => "[" ++ String.intercalate ", " (literals items) ++ "]"
  | set items => "\x7b" ++ String.intercalate ", " (literals items) ++ "\x7d"
  | map entries => "\x7b" ++ String.intercalate ", " (entryLiterals entries) ++ "\x7d"

/-- The literals of the items of a list. -/
def literals : List Document → List String
  | [] => []
  | d :: rest => literal d :: literals rest

/-- The literals of the entries of a mapping. -/
def entryLiterals : List (Document × Document) → List String
  | [] => []
  | e :: rest => entryLiteral e :: entryLiterals rest

/-- The literal of an entry of a mapping. -/
def entryLiteral : Document × Document → String
  | (k, v) => literal k ++ ": " ++ literal v

end

end TabCompletion.Document
