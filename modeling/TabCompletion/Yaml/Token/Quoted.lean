import TabCompletion.Yaml.Token.Basic

/-!
# Quoted scalars

Scalars between single or double quotes. A line end between words becomes a space, each
further one a line feed. Between double quotes a backslash starts an escape, and one at the
end of a line joins the line to the next; between single quotes only the quote itself is
written twice.
-/

namespace TabCompletion.Yaml

/-- The code points named by one character after a backslash. -/
def shortEscapes : List (Char × Nat) :=
  [('0', 0), ('a', 7), ('b', 8), ('t', 9), ('\t', 9), ('n', 10), ('v', 11), ('f', 12), ('r', 13),
   ('e', 27), (' ', 32), ('\x22', 34), ('\\', 92), ('/', 47), ('N', 0x85), ('_', 0xA0),
   ('L', 0x2028), ('P', 0x2029)]

/-- The number of digits after a letter that starts a numeric escape. -/
def escapeWidth? (c : Char) : Option Nat :=
  if c = 'x' then some 2 else if c = 'u' then some 4 else if c = 'U' then some 8 else none

/-- The value of a hexadecimal digit. -/
def hexValue? (c : Char) : Option Nat :=
  if '0' ≤ c && c ≤ '9' then some (c.toNat - 48)
  else if 'a' ≤ c && c ≤ 'f' then some (c.toNat - 87)
  else if 'A' ≤ c && c ≤ 'F' then some (c.toNat - 55)
  else none

/-- The number that hexadecimal digits write. -/
def hexNumber? (cs : List Char) : Option Nat :=
  cs.foldl (fun n c => do return (← n) * 16 + (← hexValue? c)) (some 0)

/-- The line ends behind the first one inside quotes; `fuel` bounds their number. -/
def quotedBreaks : Nat → Cursor → Reading (List Nat × Cursor)
  | 0, cur => .ok ([], cur)
  | fuel + 1, cur =>
    if cur.atMark then refuse .documentMark
    else
      let cur := cur.skipWhile fun c => c = ' ' || c = '\t'
      match cur.takeBreak with
      | ([], _) => .ok ([], cur)
      | (line, cur) =>
        match quotedBreaks fuel cur with
        | .ok (more, cur) => .ok (codesOf line ++ more, cur)
        | .error stop => .error stop

/-- The escape behind a backslash between double quotes. -/
def quotedEscape (cur : Cursor) : Reading (List Nat × Cursor) :=
  match cur.peek with
  | none => refuse .escape
  | some c =>
    match shortEscapes.lookup c with
    | some n => .ok ([n], cur.next)
    | none =>
      match escapeWidth? c with
      | some width =>
        let digits := cur.next.rest.take width
        match hexNumber? digits with
        | none => refuse .escape
        | some n =>
          if digits.length < width then refuse .escape
          else if 0x7FFFFFFF < n then .error (.fault .overflow)
          else if 0x10FFFF < n then .error (.fault .badValue)
          else .ok ([n], cur.next.advance width)
      | none =>
        if isBreak c then quotedBreaks cur.fuel cur.takeBreak.2 else refuse .escape

/-- The blanks and line ends that stand here between two words inside quotes. -/
def quotedBlanks (cur : Cursor) : Reading (List Nat × Cursor) :=
  let (blanks, cur) := cur.takeWhile fun c => c = ' ' || c = '\t'
  match cur.peek with
  | none => refuse .openQuote
  | some c =>
    if isBreak c then
      let (line, cur) := cur.takeBreak
      match quotedBreaks cur.fuel cur with
      | .error stop => .error stop
      | .ok (breaks, cur) =>
        let first :=
          if line != ['\n'] then codesOf line
          else if breaks.isEmpty then [32]
          else []
        .ok (first ++ breaks, cur)
    else .ok (codesOf blanks, cur)

/-- The rest of a quoted scalar, from inside its quotes; `done` is what is read of it, last code
point first. -/
def quotedRest (double : Bool) : Nat → List Nat → Cursor → Reading (List Nat × Cursor)
  | 0, _, _ => refuse .openQuote
  | fuel + 1, done, cur =>
    match cur.peek with
    | none => refuse .openQuote
    | some c =>
      if c = '\x27' && !double then
        if cur.peekAt 1 = some '\x27' then quotedRest double fuel (39 :: done) (cur.advance 2)
        else .ok (done.reverse, cur.next)
      else if c = '\x22' && double then .ok (done.reverse, cur.next)
      else if c = '\\' && double then
        match quotedEscape cur.next with
        | .ok (codes, cur) => quotedRest double fuel (codes.reverse ++ done) cur
        | .error stop => .error stop
      else if c = ' ' || c = '\t' || isBreak c then
        match quotedBlanks cur with
        | .ok (codes, cur) => quotedRest double fuel (codes.reverse ++ done) cur
        | .error stop => .error stop
      else quotedRest double fuel (c.toNat :: done) cur.next

/-- The quoted scalar that starts here. -/
def quotedScalar (double : Bool) (cur : Cursor) : Reading (Token × Cursor) :=
  match quotedRest double cur.fuel [] cur.next with
  | .ok (codes, cur) => .ok (.scalar codes false, cur)
  | .error stop => .error stop

end TabCompletion.Yaml
