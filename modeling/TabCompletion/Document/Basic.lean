import TabCompletion.Number.Binary64

/-!
# Documents

The value of a parsed document: what JSON can say, and beyond it dates, moments, bytes,
sets, and keys that are not texts. A text may hold surrogate code points that are no
characters; such a text is kept as its code points.

Two keys are the same when they are equal as values: a whole number equals itself however
it is written, and a truth value equals the number that stands for it (`Document.sameKey`).
-/

namespace TabCompletion

/-- A day of the calendar. -/
structure Date where
  year : Nat
  month : Nat
  day : Nat
  deriving DecidableEq, Repr

/-- A time of a day; `offset` is the distance from universal time in minutes, if known. -/
structure Moment where
  date : Date
  hour : Nat
  minute : Nat
  second : Nat
  microsecond : Nat
  offset : Option Int
  deriving DecidableEq, Repr

/-- The value of a parsed document. -/
inductive Document where
  | null
  | bool (b : Bool)
  | int (n : Int)
  | float (x : Number.Binary64)
  | text (s : String)
  | brokenText (codes : List Nat)
  | bytes (bs : List UInt8)
  | date (d : Date)
  | moment (m : Moment)
  | list (items : List Document)
  | set (items : List Document)
  | map (entries : List (Document × Document))
  deriving Repr, Inhabited

/-- A number written with at least `width` digits. -/
def padded (width n : Nat) : String :=
  let ds := Nat.toDigits 10 n
  String.ofList (List.replicate (width - ds.length) '0' ++ ds)

/-- The day as `YYYY-MM-DD`. -/
def Date.text (d : Date) : String :=
  padded 4 d.year ++ "-" ++ padded 2 d.month ++ "-" ++ padded 2 d.day

/-- The offset from universal time as `+HH:MM`. -/
def offsetText (minutes : Int) : String :=
  (if minutes < 0 then "-" else "+") ++ padded 2 (minutes.natAbs / 60) ++ ":" ++
    padded 2 (minutes.natAbs % 60)

/-- The moment as `YYYY-MM-DDTHH:MM:SS`, with its microseconds and its offset if it has any. -/
def Moment.text (m : Moment) : String :=
  m.date.text ++ "T" ++ padded 2 m.hour ++ ":" ++ padded 2 m.minute ++ ":" ++
    padded 2 m.second ++
    (if m.microsecond = 0 then "" else "." ++ padded 6 m.microsecond) ++
    (m.offset.map offsetText).getD ""

/-- Days from a fixed day to the day `d`. -/
def Date.number (d : Date) : Int :=
  let y : Int := if d.month ≤ 2 then d.year - 1 else d.year
  let m : Int := if d.month ≤ 2 then d.month + 9 else (d.month : Int) - 3
  y * 365 + y / 4 - y / 100 + y / 400 + (m * 306 + 5) / 10 + d.day

/-- Microseconds from a fixed instant, without regard to the offset. -/
def Moment.clock (m : Moment) : Int :=
  (((m.date.number * 24 + m.hour) * 60 + m.minute) * 60 + m.second) * 1000000 + m.microsecond

/-- Two moments name one instant, or one time of day if neither has an offset. -/
def Moment.sameInstant (m n : Moment) : Bool :=
  match m.offset, n.offset with
  | none, none => m.clock = n.clock
  | some a, some b => m.clock - a * 60000000 = n.clock - b * 60000000
  | _, _ => false

namespace Document

/-- A truth value or a whole number as an integer. -/
def whole? : Document → Option Int
  | bool b => some (if b then 1 else 0)
  | int n => some n
  | float x => x.toInt?
  | _ => none

/-- Two keys of a mapping are the same key. -/
def sameKey (a b : Document) : Bool :=
  match a.whole?, b.whole? with
  | some m, some n => m = n
  | some _, none | none, some _ => false
  | none, none =>
    match a, b with
    | null, null => true
    | float x, float y => x.sameValue y
    | text s, text t => s = t
    | brokenText s, brokenText t => s = t
    | bytes s, bytes t => s = t
    | date d, date e => d = e
    | moment m, moment n => m.sameInstant n
    | _, _ => false

/-- The entries with the value of `key` set; a new key goes to the end. -/
def insert (key value : Document) : List (Document × Document) → List (Document × Document)
  | [] => [(key, value)]
  | (k, v) :: rest =>
    if k.sameKey key then (k, value) :: rest else (k, v) :: insert key value rest

/-- The entries of a list in which a later value of a key replaces an earlier one. -/
def ofEntries (entries : List (Document × Document)) : List (Document × Document) :=
  entries.foldl (fun done entry => insert entry.1 entry.2 done) []

/-- The value of the key with that text. -/
def lookup? (name : String) : List (Document × Document) → Option Document
  | [] => none
  | (text s, v) :: rest => if s = name then some v else lookup? name rest
  | _ :: rest => lookup? name rest

/-- The name of the kind of value, as messages give it. -/
def kindName : Document → String
  | null => "NoneType"
  | bool _ => "bool"
  | int _ => "int"
  | float _ => "float"
  | text _ | brokenText _ => "str"
  | bytes _ => "bytes"
  | date _ => "date"
  | moment _ => "datetime"
  | list _ => "list"
  | set _ => "set"
  | map _ => "dict"

/-- The mapping of a list of named values. -/
def record (fields : List (String × Document)) : Document :=
  map (fields.map fun (name, value) => (text name, value))

/-- The list of a list of texts. -/
def texts (items : List String) : Document := list (items.map text)

/-- The text of a list of code points, kept as code points if some are surrogates. -/
def ofCodes (codes : List Nat) : Document :=
  if codes.all fun n => (Nat.isValidChar n) then text (String.ofList (codes.map Char.ofNat))
  else brokenText codes

end Document

end TabCompletion
