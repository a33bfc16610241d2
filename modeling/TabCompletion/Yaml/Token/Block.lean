import TabCompletion.Yaml.Token.Basic

/-!
# Block scalars

Scalars that follow `|` or `>` on lines of their own, indented further than what they belong
to. After `|` the line ends are kept; after `>` a line end between two lines that start with
a word becomes a space. The header may fix the indentation, and say whether the line ends
behind the last line are kept (`+`) or dropped (`-`).
-/

namespace TabCompletion.Yaml

/-- What becomes of the line ends behind the last line. -/
inductive Chomping where
  | clip
  | keep
  | strip
  deriving DecidableEq, Repr

/-- The header of a block scalar: what becomes of its last line ends, and its indentation
relative to what it belongs to, if that is fixed. -/
structure BlockHeader where
  chomping : Chomping := .clip
  increment : Option Nat := none
  deriving DecidableEq, Repr

/-- The sign of a header. -/
def chomping? : Option Char → Option Chomping
  | some '+' => some .keep
  | some '-' => some .strip
  | _ => none

/-- The digit of a header. -/
def increment? : Option Char → Option Nat
  | some c => if c.isDigit then some (c.toNat - 48) else none
  | none => none

/-- The header that starts here, and the cursor at the start of the next line. -/
def blockHeader (cur : Cursor) : Reading (BlockHeader × Cursor) := do
  let (header, cur) : BlockHeader × Cursor :=
    match chomping? cur.peek with
    | some chomping =>
      match increment? cur.next.peek with
      | some n => ({ chomping, increment := some n }, cur.advance 2)
      | none => ({ chomping }, cur.next)
    | none =>
      match increment? cur.peek with
      | some n =>
        match chomping? cur.next.peek with
        | some chomping => ({ chomping, increment := some n }, cur.advance 2)
        | none => ({ increment := some n }, cur.next)
      | none => ({}, cur)
  if header.increment = some 0 then refuse .blockHeader
  if !endsWord cur.peek then refuse .blockHeader
  let cur := cur.skipSpaces.skipComment
  if !endsLine cur.peek then refuse .blockHeader
  return (header, cur.takeBreak.2)

/-- The empty lines before the first line of a scalar whose indentation is not fixed, and the
widest indentation among them. -/
def blockIndentation : Nat → Nat → Cursor → List Char × Nat × Cursor
  | 0, widest, cur => ([], widest, cur)
  | fuel + 1, widest, cur =>
    match cur.peek with
    | some ' ' => blockIndentation fuel (max widest cur.next.column) cur.next
    | _ =>
      match cur.takeBreak with
      | ([], _) => ([], widest, cur)
      | (line, cur) =>
        let (more, widest, cur) := blockIndentation fuel widest cur
        (line ++ more, widest, cur)

/-- Behind the spaces of an indentation that is no wider than `indent`. -/
def skipIndentation (indent : Nat) (cur : Cursor) : Cursor :=
  cur.advance ((cur.rest.takeWhile (· = ' ')).length.min (indent - cur.column))

/-- The empty lines between two lines of a scalar. -/
def blockBreaks (indent : Nat) : Nat → Cursor → List Char × Cursor
  | 0, cur => ([], cur)
  | fuel + 1, cur =>
    let cur := skipIndentation indent cur
    match cur.takeBreak with
    | ([], _) => ([], cur)
    | (line, cur) =>
      let (more, cur) := blockBreaks indent fuel cur
      (line ++ more, cur)

/-- The next line starts with a blank. -/
def startsBlank (cur : Cursor) : Bool := cur.peek = some ' ' || cur.peek = some '\t'

/-- The lines of a scalar: its text, the end of its last line, and the empty lines behind
that. `breaks` are the empty lines before the next line. -/
def blockLines (folded : Bool) (indent : Nat) : Nat → List Char → List Char → Cursor →
    List Char × List Char × List Char × Cursor
  | 0, done, breaks, cur => (done, [], breaks, cur)
  | fuel + 1, done, breaks, cur =>
    if cur.column != indent || cur.peek.isNone then (done, [], breaks, cur)
    else
      let word := !startsBlank cur
      let (line, cur) := cur.takeWhile fun c => !isBreak c
      let done := done ++ breaks ++ line
      let (lineEnd, cur) := cur.takeBreak
      let (breaks, cur) := blockBreaks indent cur.fuel cur
      if cur.column != indent || cur.peek.isNone then (done, lineEnd, breaks, cur)
      else if folded && lineEnd = ['\n'] && word && !startsBlank cur then
        blockLines folded indent fuel (if breaks.isEmpty then done ++ [' '] else done) breaks cur
      else blockLines folded indent fuel (done ++ lineEnd) breaks cur

/-- The block scalar that starts here; `parent` is the indentation of what it belongs to. -/
def blockScalar (folded : Bool) (parent : Int) (cur : Cursor) : Reading (Token × Cursor) := do
  let (header, cur) ← blockHeader cur.next
  let least := (max (parent + 1) 1).toNat
  let (breaks, indent, cur) :=
    match header.increment with
    | some n =>
      let indent := least + n - 1
      let (breaks, cur) := blockBreaks indent cur.fuel cur
      (breaks, indent, cur)
    | none =>
      let (breaks, widest, cur) := blockIndentation cur.fuel 0 cur
      (breaks, max least widest, cur)
  let (body, lineEnd, breaks, cur) := blockLines folded indent cur.fuel [] breaks cur
  let tail :=
    match header.chomping with
    | .clip => lineEnd
    | .strip => []
    | .keep => lineEnd ++ breaks
  return (.scalar (codesOf (body ++ tail)) false, cur)

end TabCompletion.Yaml
