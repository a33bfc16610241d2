import TabCompletion.Text.Blank
import TabCompletion.Text.Newline

/-!
# Decimal digits

Every script with decimal digits has ten of them at consecutive code points. The
table lists the zeros of Unicode 14.0; `digitValue?` reads a digit of any script, and
`integerOf?` an integer that is written with such digits.
-/

namespace TabCompletion.Text

/-- Code points of the digit zero in each script that has decimal digits. -/
def decimalZeros : List Nat :=
  [
    48, 1632, 1776, 1984, 2406, 2534, 2662, 2790, 2918, 3046, 3174, 3302, 3430, 3558, 3664, 3792,
    3872, 4160, 4240, 6112, 6160, 6470, 6608, 6784, 6800, 6992, 7088, 7232, 7248, 42528, 43216,
    43264, 43472, 43504, 43600, 44016, 65296, 66720, 68912, 69734, 69872, 69942, 70096, 70384,
    70736, 70864, 71248, 71360, 71472, 71904, 72016, 72784, 73040, 73120, 92768, 92864, 93008,
    120782, 120792, 120802, 120812, 120822, 123200, 123632, 125264, 130032]

/-- The value of a decimal digit of any script. -/
def digitValue? (c : Char) : Option Nat :=
  let n := c.toNat
  (decimalZeros.find? fun z => z ≤ n && n < z + 10).map (n - ·)

/-- The natural number that digits write, at most 4300 of them. Single underscores may stand between
digits. -/
def naturalOf? (cs : List Char) : Option Nat := do
  let groups := splitAt '_' cs
  if groups.any List.isEmpty then none
  let digits ← groups.flatten.mapM digitValue?
  if 4300 < digits.length then none
  return digits.foldl (fun n d => n * 10 + d) 0

/-- The integer that a text writes with digits behind a sign, if there is one, and with blanks around
it. -/
def integerOf? (text : String) : Option Int :=
  match stripMargin text.toList with
  | '-' :: digits => (naturalOf? digits).map fun n => -(n : Int)
  | '+' :: digits => (naturalOf? digits).map Int.ofNat
  | digits => (naturalOf? digits).map Int.ofNat

end TabCompletion.Text
