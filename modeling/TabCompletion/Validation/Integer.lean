import TabCompletion.Text.Blank
import TabCompletion.Validation.Issue

/-!
# Integers written as texts

The plain form of an integer is a minus sign, if it is negative, and digits, of which the
first is zero only if it is the only one. A text in another form is brought into the plain
form if it can be: blanks at both ends, a plus sign, zeros in front of the number, a fraction
of zeros and single underscores between digits are left out.

A plain form that is too long is told apart from a text that is no integer. A text that has
to be brought into the plain form first is no integer if it comes out too long.
-/

namespace TabCompletion.Validation

/-- The most characters of an integer in its plain form. -/
def maxIntegerLength : Nat := 4300

/-- The natural number that digits write. -/
def ofDigits (ds : List Char) : Nat := ds.foldl (fun n c => n * 10 + (c.toNat - 48)) 0

/-- The integer with that sign and the digits at the start of a text, which has to end with
them. -/
def signedInteger (negative : Bool) (cs : List Char) : Except Cause Int :=
  let digits := cs.takeWhile Char.isDigit
  let length := digits.length + if negative then 1 else 0
  if digits.isEmpty || (digits.head? = some '0' && 1 < digits.length) then
    .error .unreadableInteger
  else if maxIntegerLength < length then .error .longInteger
  else if digits.length < cs.length then .error .unreadableInteger
  else .ok (if negative then -(ofDigits digits : Int) else (ofDigits digits : Int))

/-- The integer that a text writes in the plain form. -/
def plainInteger : List Char → Except Cause Int
  | '-' :: cs => signedInteger true cs
  | cs => signedInteger false cs

/-- The text from its first digit that is not zero on, behind zeros and underscores of which
`last` is the last one. It stays behind a zero if a point or nothing follows. -/
def afterZeros (last : Char) : List Char → Option (List Char)
  | [] => some [last]
  | c :: rest =>
    if c = '0' || c = '_' then afterZeros c rest
    else if c.isDigit || c = '-' then some (c :: rest)
    else if c = '.' then some (last :: c :: rest)
    else none

/-- The text without zeros in front of the number; none if it starts with no number. -/
def dropZeros : List Char → Option (List Char)
  | [] => none
  | c :: rest =>
    if c = '0' then afterZeros c rest
    else if c.isDigit || c = '-' then some (c :: rest)
    else none

/-- The text without a point and zeros, at least one, behind it. -/
def dropZeroFraction (cs : List Char) : List Char :=
  let whole := cs.takeWhile (· != '.')
  match cs.drop (whole.length + 1) with
  | [] => cs
  | fraction => if fraction.all (· = '0') then whole else cs

/-- Two underscores stand side by side. -/
def hasEmptyGroup : List Char → Bool
  | '_' :: '_' :: _ => true
  | _ :: rest => hasEmptyGroup rest
  | [] => false

/-- The text without the underscores in it; none if one stands at an end or beside another. -/
def joinGroups (cs : List Char) : Option (List Char) :=
  if cs.head? = some '_' || cs.getLast? = some '_' || hasEmptyGroup cs then none
  else some (cs.filter (· != '_'))

/-- A number without sign, brought into the plain form. -/
def plainDigits (cs : List Char) : Option (List Char) :=
  (dropZeros cs).bind fun cs => joinGroups (dropZeroFraction cs)

/-- A text brought into the plain form of an integer, if it can be. -/
def plainForm (cs : List Char) : Option (List Char) :=
  match Text.stripMargin cs with
  | '+' :: '-' :: _ => none
  | '+' :: rest => plainDigits rest
  | '-' :: rest => (plainDigits rest).map ('-' :: ·)
  | rest => plainDigits rest

/-- The integer that a text writes in any form. -/
def integerOf (cs : List Char) : Except Cause Int :=
  match plainInteger cs with
  | .ok n => .ok n
  | .error .longInteger => .error .longInteger
  | .error _ =>
    match (plainForm cs).map plainInteger with
    | some (.ok n) => .ok n
    | _ => .error .unreadableInteger

/-- An integer written as a text. -/
def integerOfText (s : String) : Checked Int :=
  match integerOf s.toList with
  | .ok n => .ok n
  | .error cause => refuse cause

end TabCompletion.Validation
