/-!
# What is wrong with a JSON text

An error names the problem and the position of the character at which reading stopped, with
the line and the column of that position, both counted from one.
-/

namespace TabCompletion.Json

/-- What is wrong. -/
inductive Problem where
  | byteOrderMark
  | value
  | propertyName
  | colon
  | comma
  | controlCharacter
  | unterminatedText
  | escape
  | unicodeEscape
  | extraData
  | longInteger (digits : Nat)
  deriving DecidableEq, Repr

/-- The most digits an integer may have. -/
def maxIntegerDigits : Nat := 4300

/-- An integer of too many digits in words. -/
def longIntegerMessage (digits : Nat) : String :=
  "Exceeds the limit (" ++ toString maxIntegerDigits ++
    " digits) for integer string conversion: value has " ++ toString digits ++
    " digits; use sys.set_int_max_str_digits() to increase the limit"

/-- The problem in words. -/
def Problem.message : Problem → String
  | .byteOrderMark => "Unexpected UTF-8 BOM (decode using utf-8-sig)"
  | .value => "Expecting value"
  | .propertyName => "Expecting property name enclosed in double quotes"
  | .colon => "Expecting ':' delimiter"
  | .comma => "Expecting ',' delimiter"
  | .controlCharacter => "Invalid control character at"
  | .unterminatedText => "Unterminated string starting at"
  | .escape => "Invalid \\escape"
  | .unicodeEscape => "Invalid \\uXXXX escape"
  | .extraData => "Extra data"
  | .longInteger digits => longIntegerMessage digits

/-- Why a text cannot be read, and where. -/
structure Error where
  problem : Problem
  position : Nat
  line : Nat
  column : Nat
  deriving DecidableEq, Repr

/-- The text breaks a rule of JSON. The alternative is a rule of this reader: an integer of too
many digits. -/
def Error.isMalformed (e : Error) : Bool :=
  match e.problem with
  | .longInteger _ => false
  | _ => true

/-- The error in words; a malformed text is named by the place at which reading stopped. -/
def Error.message (e : Error) : String :=
  if e.isMalformed then
    e.problem.message ++ ": line " ++ toString e.line ++ " column " ++ toString e.column ++
      " (char " ++ toString e.position ++ ")"
  else e.problem.message

/-- The problem at a position of a text. -/
def Error.at (text : List Char) (problem : Problem) (position : Nat) : Error :=
  let before := text.take position
  ⟨problem, position, before.count '\n' + 1,
    (before.reverse.takeWhile (· != '\n')).length + 1⟩

end TabCompletion.Json
