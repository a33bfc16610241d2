import TabCompletion.Document.Basic
import TabCompletion.Text.Blank
import TabCompletion.Text.Digit
import TabCompletion.Yaml.Error
import TabCompletion.Yaml.Scalar.Form

/-!
# The values of scalars

What a scalar with a tag of the core is worth. A tag may be put on a text that does not have
its form; a text that makes no value of the tag is a fault.
-/

namespace TabCompletion.Yaml

/-- The value of a digit in any base up to 36. -/
def digitIn (base : Nat) (c : Char) : Option Nat :=
  let v :=
    match Text.digitValue? c with
    | some n => some n
    | none =>
      if 'a' ≤ c && c ≤ 'z' then some (c.toNat - 87)
      else if 'A' ≤ c && c ≤ 'Z' then some (c.toNat - 55)
      else none
  v.filter (· < base)

/-- The text without the mark of its base, if a digit follows that. -/
def dropBaseMark (base : Nat) (cs : List Char) : List Char :=
  match cs with
  | '0' :: m :: rest =>
    if (base = 2 && (m = 'b' || m = 'B')) || (base = 8 && (m = 'o' || m = 'O')) ||
        (base = 16 && (m = 'x' || m = 'X')) then rest
    else cs
  | _ => cs

/-- The integer that a text writes in a base, with blanks around it and a sign. A decimal
integer has at most 4300 digits. -/
def integerIn (base : Nat) (cs : List Char) : Reading Int :=
  let trimmed := Text.stripMargin cs
  let negative := trimmed.head? = some '-'
  let digits := dropBaseMark base (dropSign trimmed)
  if digits.isEmpty || (base = 10 && 4300 < digits.length) then .error (.fault .badValue)
  else
    match digits.foldl (fun n c => do return (← n) * base + (← digitIn base c)) (some 0) with
    | some (n : Nat) => .ok (if negative then -(n : Int) else (n : Int))
    | none => .error (.fault .badValue)

/-- The sum of parts, each worth sixty times what the next is worth. -/
def sixties (parts : List Int) : Int := parts.foldl (fun n part => n * 60 + part) 0

/-- An integer, by the mark of its base, in base 60 with colons, or in base 10. -/
def integerValue (cs : List Char) : Reading Int := do
  let cs := cs.filter (· != '_')
  if cs.isEmpty then .error (.fault .badIndex)
  let signed (n : Int) : Int := if cs.head? = some '-' then -n else n
  match dropSign cs with
  | [] => .error (.fault .badIndex)
  | ['0'] => return 0
  | '0' :: 'b' :: ds => return signed (← integerIn 2 ds)
  | '0' :: 'x' :: ds => return signed (← integerIn 16 ds)
  | '0' :: ds => return signed (← integerIn 8 ('0' :: ds))
  | ds =>
    if ds.contains ':' then
      let parts ← (colonPieces ds).mapM (integerIn 10)
      return signed (sixties parts)
    else return signed (← integerIn 10 ds)

/-- Digits of any script as numbers, if there are only digits. -/
def digitsOf? (cs : List Char) : Option (List Nat) := cs.mapM Text.digitValue?

/-- The number that decimal digits write. -/
def ofDigits (ds : List Nat) : Nat := ds.foldl (fun n d => n * 10 + d) 0

/-- An exponent: a letter, a sign or none, and digits; or nothing. -/
def exponentValue? : List Char → Option Int
  | [] => some 0
  | e :: rest =>
    if e = 'e' || e = 'E' then do
      let ds ← digitsOf? (dropSign rest)
      if ds.isEmpty then none
      else some (if rest.head? = some '-' then -(ofDigits ds : Int) else (ofDigits ds : Int))
    else none

/-- The number that a text without a sign writes. -/
def unsignedFloat? (negative : Bool) (cs : List Char) : Option Number.Binary64 := do
  let lower := String.ofList (cs.map Char.toLower)
  if lower = "inf" || lower = "infinity" then return .infinite negative
  if lower = "nan" then return .nan
  let isDigit (c : Char) : Bool := (Text.digitValue? c).isSome
  let whole := cs.takeWhile isDigit
  let rest := cs.drop whole.length
  let (fraction, rest) :=
    match rest with
    | '.' :: r => (r.takeWhile isDigit, r.dropWhile isDigit)
    | r => ([], r)
  let e ← exponentValue? rest
  let ds ← digitsOf? (whole ++ fraction)
  if ds.isEmpty then none
  else return .ofDecimal negative (ofDigits ds) (e - fraction.length)

/-- The number that a text writes, with blanks around it and a sign. -/
def floatOf (cs : List Char) : Reading Number.Binary64 :=
  let trimmed := Text.stripMargin cs
  match unsignedFloat? (trimmed.head? = some '-') (dropSign trimmed) with
  | some x => .ok x
  | none => .error (.fault .badValue)

/-- The sum of parts of base 60, the last part first; `scale` is what the next part is worth. -/
def floatSixties : Number.Binary64 → Nat → List Number.Binary64 → Reading Number.Binary64
  | sum, _, [] => .ok sum
  | sum, scale, part :: rest =>
    match Number.Binary64.ofInt scale with
    | .infinite _ => .error (.fault .overflow)
    | factor => floatSixties (sum.add (part.mul factor)) (scale * 60) rest

/-- The text is a word for what is no number, in letters of any case, signed or not. -/
def isNotNumber (cs : List Char) : Bool :=
  dropSign ((cs.filter (· != '_')).map Char.toLower) = ".nan".toList

/-- A floating-point number: infinite, no number, in base 60 with colons, or in base 10. -/
def floatValue (cs : List Char) : Reading Number.Binary64 := do
  let cs := (cs.filter (· != '_')).map Char.toLower
  if cs.isEmpty then .error (.fault .badIndex)
  let negative := cs.head? = some '-'
  let body := dropSign cs
  let signed (x : Number.Binary64) : Number.Binary64 := if negative then x.neg else x
  if body = ".inf".toList then return .infinite negative
  else if body = ".nan".toList then return .nan
  else if body.contains ':' then
    let parts ← (colonPieces body).mapM floatOf
    return signed (← floatSixties (.zero false) 1 parts.reverse)
  else return signed (← floatOf body)

/-- A truth value by its word, in letters of any case. -/
def boolValue (cs : List Char) : Reading Bool :=
  let word := String.ofList (cs.map Char.toLower)
  if ["yes", "true", "on"].contains word then .ok true
  else if ["no", "false", "off"].contains word then .ok false
  else .error (.fault .badKey)

/-- The year is a leap year. -/
def isLeap (y : Nat) : Bool := y % 4 = 0 && (y % 100 != 0 || y % 400 = 0)

/-- The number of days in a month. -/
def daysIn (y m : Nat) : Nat :=
  if m = 2 then (if isLeap y then 29 else 28)
  else if m = 4 || m = 6 || m = 9 || m = 11 then 30
  else 31

/-- The day, if there is one of that number. -/
def dayOf (y m d : Nat) : Reading Date :=
  if 1 ≤ y && 1 ≤ m && m ≤ 12 && 1 ≤ d && d ≤ daysIn y m then .ok ⟨y, m, d⟩
  else .error (.fault .badValue)

/-- The number that ASCII digits write. -/
def plainNumber (cs : List Char) : Nat := cs.foldl (fun n c => n * 10 + (c.toNat - 48)) 0

/-- Microseconds from the digits of a fraction; digits past the sixth are dropped. -/
def microsecondsOf (ds : List Char) : Nat :=
  let six := ds.take 6
  plainNumber (six ++ List.replicate (6 - six.length) '0')

/-- The offset from universal time in minutes; it has to be less than a day. -/
def offsetOf (cs : List Char) : Reading (Option Int) :=
  match cs.dropWhile fun c => c = ' ' || c = '\t' with
  | [] => .ok none
  | 'Z' :: _ => .ok (some 0)
  | s :: rest =>
    let hours := plainNumber (rest.takeWhile Char.isDigit)
    let minutes := plainNumber ((rest.dropWhile Char.isDigit).drop 1)
    let total := hours * 60 + minutes
    if 1440 ≤ total then .error (.fault .badValue)
    else .ok (some (if s = '-' then -(total : Int) else (total : Int)))

/-- A day, or a moment, from a text of its form. -/
def timestampValue (cs : List Char) : Reading Document := do
  let cs := dropLastBreak cs
  if !(isTimestampForm cs || isLooseDay cs) then .error (.fault .badMember)
  let digits (cs : List Char) : List Char × List Char :=
    (cs.takeWhile Char.isDigit, cs.dropWhile Char.isDigit)
  let (year, rest) := digits cs
  let (month, rest) := digits (rest.drop 1)
  let (day, rest) := digits (rest.drop 1)
  let (y, m, d) := (plainNumber year, plainNumber month, plainNumber day)
  if rest.isEmpty then return .date (← dayOf y m d)
  let rest := (rest.drop 1).dropWhile fun c => c = ' ' || c = '\t'
  let (hour, rest) := digits rest
  let (minute, rest) := digits (rest.drop 1)
  let (second, rest) := digits (rest.drop 1)
  let (fraction, rest) :=
    match rest with
    | '.' :: r => digits r
    | r => ([], r)
  let offset ← offsetOf rest
  let date ← dayOf y m d
  let (hour, minute, second) := (plainNumber hour, plainNumber minute, plainNumber second)
  if hour < 24 && minute < 60 && second < 60 then
    return .moment ⟨date, hour, minute, second, microsecondsOf fraction, offset⟩
  else .error (.fault .badValue)
where
  /-- A day whose month and day may have one digit. -/
  isLooseDay (cs : List Char) : Bool :=
    startsWithDigits 4 cs && (after '-' (cs.drop 4)).any fun cs =>
      (afterOneOrTwo cs).any fun cs => (after '-' cs).any fun cs =>
        (afterOneOrTwo cs).any List.isEmpty

/-- The value of a character of base 64. -/
def sixBits? (c : Char) : Option Nat :=
  if 'A' ≤ c && c ≤ 'Z' then some (c.toNat - 65)
  else if 'a' ≤ c && c ≤ 'z' then some (c.toNat - 71)
  else if c.isDigit then some (c.toNat + 4)
  else if c = '+' then some 62
  else if c = '/' then some 63
  else none

/-- The bytes of characters of base 64. `count` characters of the current four are read, whose
last bits are `left`; `pads` signs of padding came since. Other characters are passed over. -/
def base64From (count left pads : Nat) : List Char → Option (List UInt8)
  | [] => if count = 0 then some [] else none
  | c :: rest =>
    if c = '=' then
      if 2 ≤ count && 4 ≤ count + (pads + 1) then some []
      else base64From count left (if 2 ≤ count then pads + 1 else pads) rest
    else match sixBits? c with
      | none => base64From count left pads rest
      | some n =>
        match count with
        | 0 => base64From 1 n 0 rest
        | 1 => (base64From 2 (n % 16) 0 rest).map (UInt8.ofNat (left * 4 + n / 16) :: ·)
        | 2 => (base64From 3 (n % 4) 0 rest).map (UInt8.ofNat (left * 16 + n / 4) :: ·)
        | _ => (base64From 0 0 0 rest).map (UInt8.ofNat (left * 64 + n) :: ·)

/-- Bytes written in base 64. -/
def binaryValue (codes : List Nat) : Reading (List UInt8) :=
  if codes.any fun n => 128 ≤ n then refuse .badBinary
  else match base64From 0 0 0 (codes.map Char.ofNat) with
    | some bytes => .ok bytes
    | none => refuse .badBinary

end TabCompletion.Yaml
