import TabCompletion.Yaml.Token.Basic

/-!
# Plain scalars

Scalars without quotes. A plain scalar ends before a colon or a comment that is set off by
a blank, inside brackets also before a mark of the brackets, and at a line that is indented
no further than what it belongs to. Line ends inside it are folded.
-/

namespace TabCompletion.Yaml

/-- The character is a mark inside brackets. -/
def isFlowMark (c : Char) : Bool :=
  c = ',' || c = '?' || c = '[' || c = ']' || c = '\x7b' || c = '\x7d'

/-- A plain scalar stops at a colon before this character. -/
def endsKey (inFlow : Bool) (o : Option Char) : Bool :=
  endsToken o ||
    (inFlow && (o = some ',' || o = some '[' || o = some ']' || o = some '\x7b' ||
      o = some '\x7d'))

/-- The characters of a plain scalar up to a blank or its end. -/
def plainWord (inFlow : Bool) : List Char → List Char
  | [] => []
  | c :: rest =>
    if endsToken (some c) || (c = ':' && endsKey inFlow rest.head?) || (inFlow && isFlowMark c)
    then []
    else c :: plainWord inFlow rest

/-- The empty lines behind the first line end inside a plain scalar, and the cursor behind
them. A mark between documents ends the scalar: then there are none. -/
def plainBreaks : Nat → Cursor → Option (List Char) × Cursor
  | 0, cur => (some [], cur)
  | fuel + 1, cur =>
    match cur.peek with
    | some ' ' => plainBreaks fuel cur.next
    | _ =>
      match cur.takeBreak with
      | ([], _) => (some [], cur)
      | (line, cur) =>
        if cur.atMark then (none, cur)
        else
          let (more, cur) := plainBreaks fuel cur
          (more.map (line ++ ·), cur)

/-- The blanks between two words of a plain scalar, folded; whether a line ended among them;
and the cursor behind them. Nothing is left of blanks before a mark between documents. -/
def plainBlanks (cur : Cursor) : List Char × Bool × Cursor :=
  let (spaces, cur) := cur.takeWhile (· = ' ')
  match cur.takeBreak with
  | ([], _) => (spaces, false, cur)
  | (line, cur) =>
    if cur.atMark then ([], true, cur)
    else match plainBreaks cur.fuel cur with
      | (none, cur) => ([], true, cur)
      | (some breaks, cur) =>
        let first := if line != ['\n'] then line else if breaks.isEmpty then [' '] else []
        (first ++ breaks, true, cur)

/-- The words of a plain scalar from here on, whether the last blanks held a line end, and the
cursor behind them. `blanks` are the blanks before the next word. -/
def plainWords (inFlow : Bool) (indent : Int) : Nat → List Char → List Char → Bool → Cursor →
    List Char × Bool × Cursor
  | 0, done, _, broken, cur => (done, broken, cur)
  | fuel + 1, done, blanks, broken, cur =>
    if cur.peek = some '#' then (done, broken, cur)
    else match plainWord inFlow cur.rest with
      | [] => (done, broken, cur)
      | word =>
        let (more, ended, cur) := plainBlanks (cur.advance word.length)
        let done := done ++ blanks ++ word
        if more.isEmpty || (!inFlow && (cur.column : Int) < indent) then (done, ended, cur)
        else plainWords inFlow indent fuel done more ended cur

/-- The plain scalar that starts here, and whether a line ended behind it. -/
def plainScalar (inFlow : Bool) (parent : Int) (cur : Cursor) : Token × Bool × Cursor :=
  let (cs, ended, cur) := plainWords inFlow (parent + 1) cur.fuel [] [] false cur
  (.scalar (codesOf cs) true, ended, cur)

end TabCompletion.Yaml
