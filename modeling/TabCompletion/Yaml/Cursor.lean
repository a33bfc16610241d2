import TabCompletion.Yaml.Error

/-!
# Moving through a YAML text

A cursor is the unread text with the position, the line and the column of its first
character. Five characters end a line; a carriage return and a line feed count as one end.
-/

namespace TabCompletion.Yaml

/-- The character ends a line. -/
def isBreak (c : Char) : Bool :=
  c = '\n' || c = '\r' || c = '\x85' || c = '\u2028' || c = '\u2029'

/-- A line ends here, or the text. -/
def endsLine : Option Char → Bool
  | none => true
  | some c => isBreak c

/-- A space or the end of a line stands here, or the end of the text. -/
def endsWord : Option Char → Bool
  | none => true
  | some c => c = ' ' || isBreak c

/-- A space, a tab or the end of a line stands here, or the end of the text. -/
def endsToken : Option Char → Bool
  | none => true
  | some c => c = ' ' || c = '\t' || isBreak c

/-- The unread text, how long it is, and where it starts. -/
structure Cursor where
  rest : List Char
  left : Nat := rest.length
  index : Nat := 0
  line : Nat := 0
  column : Nat := 0
  left_eq : left = rest.length := by rfl

namespace Cursor

/-- The next character. -/
def peek (cur : Cursor) : Option Char := cur.rest.head?

/-- The character after `n` others. -/
def peekAt (cur : Cursor) (n : Nat) : Option Char := cur.rest[n]?

/-- Behind the next character. -/
def next (cur : Cursor) : Cursor :=
  match h : cur.rest with
  | [] => cur
  | c :: rest =>
    have left_eq : cur.left - 1 = rest.length := by simp [cur.left_eq, h]
    if (isBreak c && c != '\r') || (c = '\r' && rest.head? != some '\n') then
      ⟨rest, cur.left - 1, cur.index + 1, cur.line + 1, 0, left_eq⟩
    else if c = '\uFEFF' then
      ⟨rest, cur.left - 1, cur.index + 1, cur.line, cur.column, left_eq⟩
    else ⟨rest, cur.left - 1, cur.index + 1, cur.line, cur.column + 1, left_eq⟩

/-- Behind the next `n` characters. -/
def advance (cur : Cursor) : Nat → Cursor
  | 0 => cur
  | n + 1 => cur.next.advance n

/-- The characters up to the first that fails the test, and the cursor behind them. -/
def takeWhile (cur : Cursor) (test : Char → Bool) : List Char × Cursor :=
  let cs := cur.rest.takeWhile test
  (cs, cur.advance cs.length)

/-- Behind the characters that pass the test. -/
def skipWhile (cur : Cursor) (test : Char → Bool) : Cursor := (cur.takeWhile test).2

/-- Behind the spaces. -/
def skipSpaces (cur : Cursor) : Cursor := cur.skipWhile (· = ' ')

/-- Behind a comment, if one stands here. -/
def skipComment (cur : Cursor) : Cursor :=
  if cur.peek = some '#' then cur.skipWhile fun c => !isBreak c else cur

/-- The end of a line that stands here, and the cursor behind it. The two separators of
Unicode are kept, every other end becomes a line feed. -/
def takeBreak (cur : Cursor) : List Char × Cursor :=
  match cur.rest with
  | '\r' :: '\n' :: _ => (['\n'], cur.advance 2)
  | c :: _ =>
    if c = '\u2028' || c = '\u2029' then ([c], cur.next)
    else if isBreak c then (['\n'], cur.next)
    else ([], cur)
  | [] => ([], cur)

/-- A mark between documents stands here. -/
def atMark (cur : Cursor) : Bool :=
  (['-', '-', '-'].isPrefixOf cur.rest || ['.', '.', '.'].isPrefixOf cur.rest) &&
    endsToken (cur.peekAt 3)

/-- A bound for the number of steps through the unread text. -/
def fuel (cur : Cursor) : Nat := cur.left + 1

end Cursor

end TabCompletion.Yaml
