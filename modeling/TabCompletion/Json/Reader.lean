import TabCompletion.Document.Basic
import TabCompletion.Json.Error

/-!
# Reading JSON

`read` gives the document of a JSON text. Beyond the standard it knows the numbers `NaN`,
`Infinity` and `-Infinity`, and it keeps surrogates that have no partner. Of two entries
with one key the later value counts, at the place of the earlier. A text that is malformed
is refused with the position at which reading stopped.
-/

namespace TabCompletion.Json

/-- The unread text and the position of its first character. -/
structure Cursor where
  rest : List Char
  pos : Nat

/-- What a reading step gives: a value and where to go on, or the problem and its place. -/
abbrev Step (α : Type) := Except (Problem × Nat) (α × Cursor)

/-- The character may stand between the parts of a JSON text. -/
def isSpace (c : Char) : Bool := c = ' ' || c = '\t' || c = '\n' || c = '\r'

/-- Behind the next `n` characters. -/
def Cursor.advance (cur : Cursor) (n : Nat) : Cursor := ⟨cur.rest.drop n, cur.pos + n⟩

/-- Behind the spaces. -/
def Cursor.skip (cur : Cursor) : Cursor := cur.advance (cur.rest.takeWhile isSpace).length

/-- The next character. -/
def Cursor.peek (cur : Cursor) : Option Char := cur.rest.head?

/-- The value of a hexadecimal digit. -/
def hexValue? (c : Char) : Option Nat :=
  let n := c.toNat
  if '0' ≤ c && c ≤ '9' then some (n - 48)
  else if 'a' ≤ c && c ≤ 'f' then some (n - 87)
  else if 'A' ≤ c && c ≤ 'F' then some (n - 55)
  else none

/-- The unit that four hexadecimal digits name. -/
def unitOf? (a b c d : Char) : Option Nat := do
  let a ← hexValue? a
  let b ← hexValue? b
  let c ← hexValue? c
  let d ← hexValue? d
  return ((a * 16 + b) * 16 + c) * 16 + d

/-- The unit is the first of a pair. -/
def isHighUnit (n : Nat) : Bool := 0xD800 ≤ n && n < 0xDC00

/-- The unit is the second of a pair. -/
def isLowUnit (n : Nat) : Bool := 0xDC00 ≤ n && n < 0xE000

/-- The character named by a letter after a backslash. -/
def shortEscape? (c : Char) : Option Nat :=
  if c = '\x22' || c = '\\' || c = '/' then some c.toNat
  else if c = 'b' then some 8
  else if c = 'f' then some 12
  else if c = 'n' then some 10
  else if c = 'r' then some 13
  else if c = 't' then some 9
  else none

/-- The code point of an escape and the number of characters it takes after the backslash,
which stands at position `pos`. `rest` is the text after the backslash and is not empty. -/
def escapeOf (pos : Nat) (c : Char) (rest : List Char) : Except (Problem × Nat) (Nat × Nat) :=
  if c != 'u' then
    match shortEscape? c with
    | some n => .ok (n, 1)
    | none => .error (.escape, pos)
  else match rest with
    | a :: b :: c :: d :: tail@(_ :: _) =>
      match unitOf? a b c d with
      | none => .error (.unicodeEscape, pos + 1)
      | some n =>
        if isHighUnit n then
          match tail with
          | '\\' :: 'u' :: e :: f :: g :: h :: _ :: _ =>
            match unitOf? e f g h with
            | none => .error (.unicodeEscape, pos + 7)
            | some m =>
              if isLowUnit m then .ok (0x10000 + (n - 0xD800) * 1024 + (m - 0xDC00), 11)
              else .ok (n, 5)
          | _ => .ok (n, 5)
        else .ok (n, 5)
    | _ => .error (.unicodeEscape, pos + 1)

/-- The code points of a text up to its closing quote. The opening quote stands at `start`;
`done` holds the code points before `pos`, last first. -/
def readCodes (start pos : Nat) (done : List Nat) : List Char → Step (List Nat)
  | [] => .error (.unterminatedText, start)
  | c :: rest =>
    if c = '\x22' then .ok (done.reverse, ⟨rest, pos + 1⟩)
    else if c = '\\' then
      match rest with
      | [] => .error (.unterminatedText, start)
      | e :: after =>
        match escapeOf pos e after with
        | .error problem => .error problem
        | .ok (n, taken) =>
          readCodes start (pos + 1 + taken) (n :: done) (after.drop (taken - 1))
    else if c.toNat ≤ 0x1F then .error (.controlCharacter, pos)
    else readCodes start (pos + 1) (c.toNat :: done) rest
  termination_by cs => cs.length
  decreasing_by all_goals (simp; try omega)

/-- The text whose opening quote is the next character. -/
def readText (cur : Cursor) : Step Document :=
  match readCodes cur.pos (cur.pos + 1) [] (cur.rest.drop 1) with
  | .error problem => .error problem
  | .ok (codes, cur) => .ok (Document.ofCodes codes, cur)

/-- The natural number that decimal digits write. -/
def natOfDigits (ds : List Char) : Nat := ds.foldl (fun n c => n * 10 + (c.toNat - 48)) 0

/-- A number as it is written: its sign, the digits before the point, the digits after it,
and the exponent. -/
structure Numeral where
  negative : Bool
  whole : List Char
  fraction : Option (List Char)
  exponent : Option Int

/-- The value of a number: an integer unless it has a fraction or an exponent. An integer of
too many digits has none. -/
def Numeral.value (n : Numeral) : Except Problem Document :=
  if n.fraction.isNone && n.exponent.isNone then
    if maxIntegerDigits < n.whole.length then .error (.longInteger n.whole.length)
    else
      let m : Nat := natOfDigits n.whole
      .ok (.int (if n.negative then -(m : Int) else (m : Int)))
  else
    let fraction := n.fraction.getD []
    .ok (.float (.ofDecimal n.negative (natOfDigits (n.whole ++ fraction))
      (n.exponent.getD 0 - fraction.length)))

/-- The exponent at the front of the text and how many characters it takes; none if no digit
follows its letter and sign. -/
def readExponent : List Char → Option (Int × Nat)
  | 'e' :: rest | 'E' :: rest =>
    let (negative, digits, taken) :=
      match rest with
      | '-' :: r => (true, r, 2)
      | '+' :: r => (false, r, 2)
      | r => (false, r, 1)
    let ds := digits.takeWhile Char.isDigit
    if ds.isEmpty then none
    else
      let n : Nat := natOfDigits ds
      some (if negative then -(n : Int) else (n : Int), taken + ds.length)
  | _ => none

/-- The number at the front of the text and how many characters it takes. -/
def readNumeral (cs : List Char) : Option (Numeral × Nat) :=
  let (negative, rest) :=
    match cs with
    | '-' :: r => (true, r)
    | r => (false, r)
  let whole :=
    match rest with
    | '0' :: _ => ['0']
    | r => r.takeWhile Char.isDigit
  if whole.isEmpty then none
  else
    let rest := rest.drop whole.length
    let taken := (if negative then 1 else 0) + whole.length
    let (fraction, rest, taken) :=
      match rest with
      | '.' :: r =>
        let ds := r.takeWhile Char.isDigit
        if ds.isEmpty then (none, rest, taken)
        else (some ds, r.drop ds.length, taken + 1 + ds.length)
      | _ => (none, rest, taken)
    match readExponent rest with
    | some (e, n) => some (⟨negative, whole, fraction, some e⟩, taken + n)
    | none => some (⟨negative, whole, fraction, none⟩, taken)

/-- The words that stand for values. -/
def keywords : List (String × Document) :=
  [("null", .null), ("true", .bool true), ("false", .bool false), ("NaN", .float .nan),
   ("Infinity", .float (.infinite false)), ("-Infinity", .float (.infinite true))]

/-- The value of the word at the front of the text and its length. -/
def readKeyword (cs : List Char) : Option (Document × Nat) :=
  (keywords.find? fun (word, _) => word.toList.isPrefixOf cs).map fun (word, d) =>
    (d, word.length)

/-- A word or a number. -/
def readWord (cur : Cursor) : Step Document :=
  match readKeyword cur.rest with
  | some (d, n) => .ok (d, cur.advance n)
  | none =>
    match readNumeral cur.rest with
    | some (numeral, n) =>
      match numeral.value with
      | .ok d => .ok (d, cur.advance n)
      | .error problem => .error (problem, cur.pos)
    | none => .error (.value, cur.pos)

mutual

/-- The value that starts with the next character. No more than `fuel` brackets, items and
entries follow each other. -/
def readValue : Nat → Cursor → Step Document
  | 0, cur => .error (.value, cur.pos)
  | fuel + 1, cur =>
    match cur.peek with
    | some '\x22' => readText cur
    | some '[' =>
      let cur := (cur.advance 1).skip
      if cur.peek = some ']' then .ok (.list [], cur.advance 1)
      else match readItems fuel cur with
        | .ok (items, cur) => .ok (.list items, cur)
        | .error problem => .error problem
    | some '\x7b' =>
      let cur := (cur.advance 1).skip
      if cur.peek = some '\x7d' then .ok (.map [], cur.advance 1)
      else match readEntries fuel cur with
        | .ok (entries, cur) => .ok (.map (Document.ofEntries entries), cur)
        | .error problem => .error problem
    | _ => readWord cur

/-- The items of a list from the next one to the closing bracket. -/
def readItems : Nat → Cursor → Step (List Document)
  | 0, cur => .error (.value, cur.pos)
  | fuel + 1, cur =>
    match readValue fuel cur with
    | .error problem => .error problem
    | .ok (d, cur) =>
      let cur := cur.skip
      if cur.peek = some ']' then .ok ([d], cur.advance 1)
      else if cur.peek = some ',' then
        match readItems fuel (cur.advance 1).skip with
        | .ok (items, cur) => .ok (d :: items, cur)
        | .error problem => .error problem
      else .error (.comma, cur.pos)

/-- The entries of a mapping from the next one to the closing bracket. -/
def readEntries : Nat → Cursor → Step (List (Document × Document))
  | 0, cur => .error (.propertyName, cur.pos)
  | fuel + 1, cur =>
    if cur.peek != some '\x22' then .error (.propertyName, cur.pos)
    else match readText cur with
      | .error problem => .error problem
      | .ok (key, cur) =>
        let cur := cur.skip
        if cur.peek != some ':' then .error (.colon, cur.pos)
        else match readValue fuel (cur.advance 1).skip with
          | .error problem => .error problem
          | .ok (d, cur) =>
            let cur := cur.skip
            if cur.peek = some '\x7d' then .ok ([(key, d)], cur.advance 1)
            else if cur.peek = some ',' then
              match readEntries fuel (cur.advance 1).skip with
              | .ok (entries, cur) => .ok ((key, d) :: entries, cur)
              | .error problem => .error problem
            else .error (.comma, cur.pos)

end

/-- The document of a JSON text given as characters. -/
def readChars (cs : List Char) : Except Error Document :=
  if cs.head? = some '\uFEFF' then .error (Error.at cs .byteOrderMark 0)
  else match readValue (2 * cs.length + 2) (Cursor.skip ⟨cs, 0⟩) with
    | .error (problem, pos) => .error (Error.at cs problem pos)
    | .ok (d, cur) =>
      let cur := cur.skip
      if cur.rest.isEmpty then .ok d else .error (Error.at cs .extraData cur.pos)

/-- The document of a JSON text. -/
def read (s : String) : Except Error Document := readChars s.toList

end TabCompletion.Json
