import TabCompletion.Host.Room
import TabCompletion.Shell.Words

/-!
# Requests

A request is what one press of the Tab key asks: the words of the command line and the
place of the cursor among them. `Request.ofWords` starts from words that the shell has
split, `Request.ofLine` from a line and a cursor offset. In both cases the cursor stands
on a word, an empty one where nothing is typed yet. A cursor may be so far behind the words
that the machine has no room for the empty ones (`Request.ofWordsIn`); the words of a line
are all there already.
-/

namespace TabCompletion

/-- A word of the command line; `isCurrent` marks the word under the cursor. -/
structure Token where
  text : String
  isCurrent : Bool
  deriving DecidableEq, Repr

/-- The words of a command line with the cursor on a marked word. -/
structure Request where
  tokens : List Token
  cursor : Nat
  cursor_lt : cursor < tokens.length
  marked : (tokens.get ⟨cursor, cursor_lt⟩).isCurrent = true

namespace Request

/-- The words with as many empty ones behind them as make `index` the index of a word. -/
def padTo (index : Nat) (words : List String) : List String :=
  words ++ List.replicate (index + 1 - words.length) ""

/-- The words as tokens, the one at `index` marked. -/
def mark (index : Nat) (words : List String) : List Token :=
  words.mapIdx fun i text => ⟨text, i = index⟩

theorem lt_length_padTo (index : Nat) (words : List String) :
    index < (padTo index words).length := by
  simp [padTo]; omega

theorem length_mark (index : Nat) (words : List String) :
    (mark index words).length = words.length := by
  simp [mark]

theorem get_mark (index : Nat) (words : List String) (i : Nat)
    (h : i < (mark index words).length) :
    (mark index words).get ⟨i, h⟩ = ⟨words.get ⟨i, by simpa [mark] using h⟩, i = index⟩ := by
  simp [mark]

/-- The request with those words and the cursor on the word at `cursor`. A negative index
counts as zero, and a cursor behind the last word stands on an empty word. -/
def ofWords (words : List String) (cursor : Int) : Request where
  tokens := mark cursor.toNat (padTo cursor.toNat words)
  cursor := cursor.toNat
  cursor_lt := by rw [length_mark]; exact lt_length_padTo _ _
  marked := by rw [get_mark]; simp

/-- Why a machine has no room for the empty words behind `count` words, if it has none. -/
def refusal? (room : Room) (count : Nat) (cursor : Int) : Option Fault :=
  room.refusal? count (cursor.toNat + 1 - count)

/-- The request with those words, if the machine has room for it. -/
def ofWordsIn (room : Room) (words : List String) (cursor : Int) : Except Fault Request :=
  match refusal? room words.length cursor with
  | some fault => .error fault
  | none => .ok (ofWords words cursor)

/-- The words of a line up to the cursor, a new empty one if none is being typed. -/
def lineWords (head : List Char) : List String :=
  let words := (Shell.Words.splitOpen head).map String.ofList
  if words.isEmpty || (head.getLast?.map Text.isBlank).getD false then words ++ [""] else words

/-- The text of a line before the cursor, which stands at its end unless `point` says
otherwise. -/
def headOfLine (line : String) (point : Option Int) : List Char :=
  match point with
  | none => line.toList
  | some p => line.toList.take p.toNat

/-- The request of a line with the cursor at the offset `point`. -/
def ofLine (line : String) (point : Option Int) : Request :=
  let words := lineWords (headOfLine line point)
  ofWords words ((words.length : Int) - 1)

/-- The text of the first word. -/
def command (r : Request) : String := (r.tokens.head?.map Token.text).getD ""

/-- The text of the word under the cursor. -/
def current (r : Request) : String := (r.tokens.get ⟨r.cursor, r.cursor_lt⟩).text

/-- The text of the word before the cursor, empty if there is none. -/
def previous (r : Request) : String :=
  match r.cursor with
  | 0 => ""
  | i + 1 => ((r.tokens[i]?).map Token.text).getD ""

end Request

end TabCompletion
