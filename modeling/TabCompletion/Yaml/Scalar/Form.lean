/-!
# The forms of plain scalars

What a plain scalar means is seen from its form: a truth value, a number, nothing, a day or
a moment, or one of two marks of mappings; any other scalar is a text. The forms are those
of version 1.1 of the language, with numbers of base 60 and octal numbers that start with a
zero. A line feed at the end of a scalar does not change its form.
-/

namespace TabCompletion.Yaml

/-- A tag of the core of the language. -/
def coreTag (name : String) : String := "tag:yaml.org,2002:" ++ name

/-- What a plain scalar may mean. -/
inductive Form where
  | bool
  | float
  | int
  | merge
  | null
  | timestamp
  | value
  | reserved
  | text
  deriving DecidableEq, Repr

/-- The tag of a form. -/
def Form.tag : Form → String
  | .bool => coreTag "bool"
  | .float => coreTag "float"
  | .int => coreTag "int"
  | .merge => coreTag "merge"
  | .null => coreTag "null"
  | .timestamp => coreTag "timestamp"
  | .value => coreTag "value"
  | .reserved => coreTag "yaml"
  | .text => coreTag "str"

/-- The characters of code points, if all are characters. -/
def charsOf? (codes : List Nat) : Option (List Char) :=
  if codes.all Nat.isValidChar then some (codes.map Char.ofNat) else none

/-- The words for truth values. -/
def boolWords : List String :=
  ["yes", "Yes", "YES", "no", "No", "NO", "true", "True", "TRUE", "false", "False", "FALSE",
   "on", "On", "ON", "off", "Off", "OFF"]

/-- The words for nothing. -/
def nullWords : List String := ["~", "null", "Null", "NULL", ""]

/-- A digit or an underscore. -/
def isDigitOrLine (c : Char) : Bool := c.isDigit || c = '_'

/-- The text without a sign at its start. -/
def dropSign : List Char → List Char
  | '+' :: cs => cs
  | '-' :: cs => cs
  | cs => cs

/-- A part of a number of base 60: one digit, or two of which the first is at most 5. -/
def isSixtieth : List Char → Bool
  | [a] => a.isDigit
  | [a, b] => '0' ≤ a && a ≤ '5' && b.isDigit
  | _ => false

/-- The pieces of a text between its colons. -/
def colonPieces : List Char → List (List Char)
  | [] => [[]]
  | c :: rest =>
    if c = ':' then [] :: colonPieces rest
    else match colonPieces rest with
      | [] => [[c]]
      | piece :: pieces => (c :: piece) :: pieces

/-- The text starts with a digit and goes on with digits and underscores. -/
def isNumberBody : List Char → Bool
  | [] => false
  | c :: cs => c.isDigit && cs.all isDigitOrLine

/-- An exponent: a letter, a sign and digits; or nothing. -/
def isExponent : List Char → Bool
  | [] => true
  | e :: s :: d :: ds =>
    (e = 'e' || e = 'E') && (s = '+' || s = '-') && (d :: ds).all Char.isDigit
  | _ => false

/-- Digits, a point, and a fraction with or without an exponent. -/
def isPointFloat (cs : List Char) : Bool :=
  let whole := cs.takeWhile isDigitOrLine
  match cs.drop whole.length with
  | '.' :: rest => isNumberBody whole && isExponent (rest.dropWhile isDigitOrLine)
  | _ => false

/-- A point and a fraction with or without an exponent. -/
def isBareFraction : List Char → Bool
  | '.' :: c :: rest => c.isDigit && isExponent (rest.dropWhile isDigitOrLine)
  | _ => false

/-- A number of base 60 with a fraction. -/
def isSixtyFloat (cs : List Char) : Bool :=
  let whole := cs.takeWhile (· != '.')
  match cs.drop whole.length with
  | '.' :: rest =>
    rest.all isDigitOrLine &&
      match colonPieces whole with
      | first :: more@(_ :: _) => isNumberBody first && more.all isSixtieth
      | _ => false
  | _ => false

/-- The form of a floating-point number. -/
def isFloatForm (cs : List Char) : Bool :=
  let unsigned := dropSign cs
  isPointFloat unsigned || isBareFraction cs || isSixtyFloat unsigned ||
    [".inf".toList, ".Inf".toList, ".INF".toList].contains unsigned ||
    [".nan".toList, ".NaN".toList, ".NAN".toList].contains cs

/-- A hexadecimal digit or an underscore. -/
def isHexOrLine (c : Char) : Bool :=
  c.isDigit || ('a' ≤ c && c ≤ 'f') || ('A' ≤ c && c ≤ 'F') || c = '_'

/-- The form of an integer. -/
def isIntForm (cs : List Char) : Bool :=
  match dropSign cs with
  | [] => false
  | ['0'] => true
  | '0' :: 'b' :: ds => !ds.isEmpty && ds.all fun c => c = '0' || c = '1' || c = '_'
  | '0' :: 'x' :: ds => !ds.isEmpty && ds.all isHexOrLine
  | '0' :: ds => ds.all fun c => ('0' ≤ c && c ≤ '7') || c = '_'
  | c :: rest =>
    c.isDigit &&
      match colonPieces (c :: rest) with
      | first :: more => first.all isDigitOrLine && more.all isSixtieth
      | [] => false

/-- `n` digits stand at the front of the text. -/
def startsWithDigits (n : Nat) (cs : List Char) : Bool :=
  n ≤ cs.length && (cs.take n).all Char.isDigit

/-- The text behind one or two digits, in each way to read them. -/
def afterOneOrTwo (cs : List Char) : List (List Char) :=
  (if startsWithDigits 1 cs then [cs.drop 1] else []) ++
    (if startsWithDigits 2 cs then [cs.drop 2] else [])

/-- The text behind the character `c`, if it stands at the front. -/
def after (c : Char) (cs : List Char) : List (List Char) :=
  match cs with
  | d :: rest => if c = d then [rest] else []
  | [] => []

/-- The form of an offset from universal time, after blanks; or nothing. -/
def isOffsetForm (cs : List Char) : Bool :=
  cs.isEmpty ||
    match cs.dropWhile fun c => c = ' ' || c = '\t' with
    | ['Z'] => true
    | s :: rest =>
      (s = '+' || s = '-') && (afterOneOrTwo rest).any fun cs =>
        cs.isEmpty || (after ':' cs).any fun cs => startsWithDigits 2 cs && cs.length = 2
    | [] => false

/-- The form of a time of day, with a fraction and an offset. -/
def isTimeForm (cs : List Char) : Bool :=
  (afterOneOrTwo cs).any fun cs =>
    (after ':' cs).any fun cs => startsWithDigits 2 cs && (after ':' (cs.drop 2)).any fun cs =>
      startsWithDigits 2 cs &&
        match cs.drop 2 with
        | '.' :: rest => isOffsetForm (rest.dropWhile Char.isDigit)
        | rest => isOffsetForm rest

/-- The text behind what separates a day from a time. -/
def afterDaySeparator : List Char → List (List Char)
  | 'T' :: rest | 't' :: rest => [rest]
  | c :: rest =>
    if c = ' ' || c = '\t' then [rest.dropWhile fun c => c = ' ' || c = '\t'] else []
  | [] => []

/-- The form of a day, or of a day and a time. -/
def isTimestampForm (cs : List Char) : Bool :=
  startsWithDigits 4 cs && (after '-' (cs.drop 4)).any fun cs =>
    (startsWithDigits 2 cs && (after '-' (cs.drop 2)).any fun cs =>
      startsWithDigits 2 cs && cs.length = 2) ||
    (afterOneOrTwo cs).any fun cs => (after '-' cs).any fun cs => (afterOneOrTwo cs).any fun cs =>
      (afterDaySeparator cs).any isTimeForm

/-- The text without one line feed at its end. -/
def dropLastBreak (cs : List Char) : List Char :=
  if cs.getLast? = some '\n' then cs.dropLast else cs

/-- The form of a plain scalar. The empty scalar is nothing, but a lone line feed is a text. -/
def formOf (cs : List Char) : Form :=
  let body := dropLastBreak cs
  if cs.head? = some '\n' then .text
  else if boolWords.contains (String.ofList body) then .bool
  else if isFloatForm body then .float
  else if isIntForm body then .int
  else if body = ['<', '<'] then .merge
  else if nullWords.contains (String.ofList body) then .null
  else if isTimestampForm body then .timestamp
  else if body = ['='] then .value
  else if body = ['!'] || body = ['&'] || body = ['*'] then .reserved
  else .text

end TabCompletion.Yaml
