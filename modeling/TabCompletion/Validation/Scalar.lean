import TabCompletion.Document.Basic
import TabCompletion.Text.Codes
import TabCompletion.Text.Utf8
import TabCompletion.Validation.Integer

/-!
# Reading the parts of a document

How a part of a document becomes a text, a truth value, an integer, a list or a record.
Reading is generous where nothing is lost: bytes that are UTF-8 count as a text, the usual
words and the numbers 0 and 1 as truth values, and a whole number as an integer however it
is written.

`readCodes` reads a text as its code points, surrogates among them. `readText` gives the text in
characters, where every surrogate is the replacement character: so it is for settings and
requests, whose texts the rest of the library takes to be of characters.
-/

namespace TabCompletion.Validation

/-- The code points of a text. -/
def readCodes : Document → Checked (List Nat)
  | .text s => .ok (Text.codes s)
  | .brokenText codes => .ok codes
  | .bytes bs =>
    match Text.Utf8.decode bs with
    | .ok cs => .ok (cs.map Char.toNat)
    | .error _ => refuse .notCharacters
  | _ => refuse .notText

/-- A text, in characters. -/
def readText (d : Document) : Checked String := (readCodes d).map Text.inCharacters

@[simp] theorem readText_text (s : String) : readText (.text s) = .ok s :=
  congrArg Except.ok (Text.inCharacters_codes s)

/-- The code points of a text that may be absent. -/
def readOptionalCodes : Document → Checked (Option (List Nat))
  | .null => .ok none
  | d => (readCodes d).map some

/-- A text that may be absent, in characters. -/
def readOptionalText (d : Document) : Checked (Option String) :=
  (readOptionalCodes d).map fun codes => codes.map Text.inCharacters

/-- The words for a truth value. -/
def truthWords : List (String × Bool) :=
  [("0", false), ("f", false), ("n", false), ("no", false), ("off", false), ("false", false),
   ("1", true), ("t", true), ("y", true), ("on", true), ("yes", true), ("true", true)]

/-- The integer fits into 64 bits. -/
def fitsWord (n : Int) : Bool := -0x8000000000000000 ≤ n && n < 0x8000000000000000

/-- The integer fits into 64 bits and is not the least of them. -/
def fitsInside (n : Int) : Bool := fitsWord n && n != -0x8000000000000000

/-- The truth value of 0 or 1; another integer is no truth value, and not even the form of one
unless it `fits`. -/
def truthOfInt (fits : Bool) (n : Int) : Checked Bool :=
  if n = 0 then .ok false
  else if n = 1 then .ok true
  else if fits then refuse .unreadableTruth
  else refuse .notTruth

/-- A truth value. -/
def readTruth : Document → Checked Bool
  | .bool b => .ok b
  | .text s =>
    match truthWords.lookup (String.ofList (s.toList.map Char.toLower)) with
    | some b => .ok b
    | none => refuse .unreadableTruth
  | .brokenText _ => refuse .notCharacters
  | .int n => truthOfInt (fitsWord n) n
  | .float x =>
    match x.toInt? with
    | some n => truthOfInt (fitsInside n) n
    | none => refuse .notTruth
  | _ => refuse .notTruth

/-- An integer. -/
def readInteger : Document → Checked Int
  | .bool b => .ok (if b then 1 else 0)
  | .int n => .ok n
  | .float x =>
    if !x.isFinite then refuse .infiniteInteger
    else match x.toInt? with
      | some n => if fitsInside n then .ok n else refuse .longInteger
      | none => refuse .fractionalInteger
  | .text s => integerOfText s
  | .brokenText _ => refuse .notCharacters
  | _ => refuse .notInteger

/-- The items of a list, each read by `read`, from the index `i` on. -/
def readItemsFrom {α : Type} (read : Document → Checked α) (i : Nat) :
    List Document → Checked (List α)
  | [] => .ok []
  | d :: rest =>
    match within (toString i) (read d), readItemsFrom read (i + 1) rest with
    | .ok a, .ok as => .ok (a :: as)
    | .ok _, .error js => .error js
    | .error is, .ok _ => .error is
    | .error is, .error js => .error (is ++ js)

/-- A list or a set; anything else is refused for `cause`. -/
def readItems {α : Type} (cause : Cause) (read : Document → Checked α) :
    Document → Checked (List α)
  | .list items => readItemsFrom read 0 items
  | .set items => readItemsFrom read 0 items
  | _ => refuse cause

/-- The entries of a mapping. -/
def readRecord : Document → Checked (List (Document × Document))
  | .map entries => .ok entries
  | _ => refuse .notRecord

/-- The field of that name; without a default it has to be there. -/
def readField {α : Type} (name : String) (read : Document → Checked α) (default : Option α)
    (entries : List (Document × Document)) : Checked α :=
  match Document.lookup? name entries, default with
  | some d, _ => within name (read d)
  | none, some a => .ok a
  | none, none => within name (refuse .missing)

end TabCompletion.Validation
