import TabCompletion.Yaml.Token.Block
import TabCompletion.Yaml.Token.Names
import TabCompletion.Yaml.Token.Plain
import TabCompletion.Yaml.Token.Quoted

/-!
# Cutting a YAML text into tokens

The lexer reads one token after another. Outside brackets the column at which a token starts
decides which blocks begin and end there. Whether a scalar is the key of a mapping is known
only when its colon comes: until then the lexer remembers it as a possible key, and puts the
mark of the key before it afterwards. A possible key has to be followed by its colon on the
same line and within 1024 characters.

Tokens from the first possible key on are not settled. If the lexer stops there, only the
tokens before it are the result.
-/

namespace TabCompletion.Yaml

/-- A token that may turn out to be the start of a key: how many tokens stand before it, where
it starts, and whether it has to be a key. -/
structure PossibleKey where
  before : Nat
  required : Bool
  index : Nat
  line : Nat
  column : Nat
  deriving DecidableEq, Repr

/-- The state of the lexer. `done` holds the `count` tokens read so far, last first; `keys` the
possible keys by the depth of brackets at which they stand. -/
structure Lexer where
  cur : Cursor
  depth : Nat := 0
  indent : Int := -1
  outer : List Int := []
  keyAllowed : Bool := true
  keys : List (Nat × PossibleKey) := []
  done : List Token := []
  count : Nat := 0

namespace Lexer

/-- How far a key may reach. -/
def maxKeyLength : Nat := 1024

/-- One more token. -/
def push (l : Lexer) (t : Token) : Lexer := { l with done := t :: l.done, count := l.count + 1 }

/-- The cursor elsewhere. -/
def goto (l : Lexer) (cur : Cursor) : Lexer := { l with cur }

/-- The token is put before the last tokens, behind `before` others. -/
def insert (l : Lexer) (before : Nat) (t : Token) : Lexer :=
  let after := l.count - before
  { l with done := l.done.take after ++ t :: l.done.drop after, count := l.count + 1 }

/-- The possible key has not found its colon where it has to be. -/
def isStale (cur : Cursor) (k : PossibleKey) : Bool :=
  k.line != cur.line || maxKeyLength < cur.index - k.index

/-- The state without the possible keys that can be none any more. -/
def dropStale (l : Lexer) : Reading Lexer :=
  if l.keys.any fun k => isStale l.cur k.2 && k.2.required then refuse .lostKey
  else .ok { l with keys := l.keys.filter fun k => !isStale l.cur k.2 }

/-- The state without the possible key at this depth, which must not be a required one. -/
def dropKey (l : Lexer) : Reading Lexer :=
  match l.keys.lookup l.depth with
  | some k =>
    if k.required then refuse .lostKey
    else .ok { l with keys := l.keys.filter fun k => k.1 != l.depth }
  | none => .ok l

/-- The next token is a possible key, if keys are allowed here. -/
def markKey (l : Lexer) : Reading Lexer :=
  if l.keyAllowed then do
    let required := l.depth = 0 && l.indent = l.cur.column
    let l ← l.dropKey
    let key : PossibleKey := ⟨l.count, required, l.cur.index, l.cur.line, l.cur.column⟩
    return { l with keys := (l.depth, key) :: l.keys }
  else .ok l

/-- The blocks that are indented further than `column` end. -/
def unindent (column : Int) : List Int → Lexer → Lexer
  | [], l => l
  | previous :: outer, l =>
    if column < l.indent then
      unindent column outer { l.push .blockEnd with indent := previous, outer }
    else l

/-- The blocks that are indented further than `column` end, outside brackets. -/
def unwind (l : Lexer) (column : Int) : Lexer :=
  if l.depth = 0 then unindent column l.outer l else l

/-- A block starts at `column` if it is indented further than the one around it. -/
def startsBlock (l : Lexer) (column : Nat) : Bool := l.indent < column

/-- A block at `column`. -/
def enterBlock (l : Lexer) (column : Nat) : Lexer :=
  { l with outer := l.indent :: l.outer, indent := column }

/-- Behind blanks, comments and line ends. A line end outside brackets allows a key. -/
def skipToToken : Nat → Lexer → Lexer
  | 0, l => l
  | fuel + 1, l =>
    let cur := l.cur.skipSpaces.skipComment
    match cur.takeBreak with
    | ([], _) => l.goto cur
    | (_, cur) =>
      skipToToken fuel { l with cur, keyAllowed := l.keyAllowed || l.depth = 0 }

/-- A mark of a document. -/
def documentToken (l : Lexer) (t : Token) : Reading Lexer := do
  let l ← (l.unwind (-1)).dropKey
  return { l.push t with cur := l.cur.advance 3, keyAllowed := false }

/-- An opening bracket. -/
def openToken (l : Lexer) (t : Token) : Reading Lexer := do
  let l ← l.markKey
  return { l.push t with cur := l.cur.next, depth := l.depth + 1, keyAllowed := true }

/-- A closing bracket. -/
def closeToken (l : Lexer) (t : Token) : Reading Lexer := do
  let l ← l.dropKey
  return { l.push t with cur := l.cur.next, depth := l.depth - 1, keyAllowed := false }

/-- A comma between brackets. -/
def commaToken (l : Lexer) : Reading Lexer := do
  let l ← l.dropKey
  return { l.push .flowEntry with cur := l.cur.next, keyAllowed := true }

/-- The mark of an item of a block. -/
def entryToken (l : Lexer) : Reading Lexer := do
  if l.depth = 0 && !l.keyAllowed then refuse .misplacedEntry
  let l :=
    if l.depth = 0 && l.startsBlock l.cur.column then
      (l.enterBlock l.cur.column).push .blockSequenceStart
    else l
  let l ← l.dropKey
  return { l.push .blockEntry with cur := l.cur.next, keyAllowed := true }

/-- The mark of a key that is written out. -/
def keyToken (l : Lexer) : Reading Lexer := do
  if l.depth = 0 && !l.keyAllowed then refuse .misplacedKey
  let l :=
    if l.depth = 0 && l.startsBlock l.cur.column then
      (l.enterBlock l.cur.column).push .blockMappingStart
    else l
  let l ← l.dropKey
  return { l.push .key with cur := l.cur.next, keyAllowed := l.depth = 0 }

/-- A colon that belongs to a possible key. -/
def settleKey (l : Lexer) (k : PossibleKey) : Lexer :=
  let l := { l with keys := l.keys.filter fun k => k.1 != l.depth }
  let l := l.insert k.before .key
  let l :=
    if l.depth = 0 && l.startsBlock k.column then
      (l.enterBlock k.column).insert k.before .blockMappingStart
    else l
  { l with keyAllowed := false }

/-- A colon that belongs to no possible key. -/
def loneColon (l : Lexer) : Reading Lexer := do
  if l.depth = 0 && !l.keyAllowed then refuse .misplacedValue
  let l :=
    if l.depth = 0 && l.startsBlock l.cur.column then
      (l.enterBlock l.cur.column).push .blockMappingStart
    else l
  { l with keyAllowed := l.depth = 0 }.dropKey

/-- The mark of a value. -/
def valueToken (l : Lexer) : Reading Lexer := do
  let l ← match l.keys.lookup l.depth with
    | some k => pure (l.settleKey k)
    | none => l.loneColon
  return { l.push .value with cur := l.cur.next }

/-- A token that may start a key. -/
def nodeToken (l : Lexer) (scan : Cursor → Reading (Token × Cursor)) : Reading Lexer := do
  let l ← l.markKey
  let (t, cur) ← scan l.cur
  return { l.push t with cur, keyAllowed := false }

/-- A block scalar. -/
def blockToken (l : Lexer) (folded : Bool) : Reading Lexer := do
  let l ← l.dropKey
  let (t, cur) ← blockScalar folded l.indent l.cur
  return { l.push t with cur, keyAllowed := true }

/-- A plain scalar. -/
def plainToken (l : Lexer) : Reading Lexer := do
  let l ← l.markKey
  let (t, ended, cur) := plainScalar (l.depth != 0) l.indent l.cur
  return { l.push t with cur, keyAllowed := ended }

/-- A directive. -/
def directiveToken (l : Lexer) : Reading Lexer := do
  let l ← (l.unwind (-1)).dropKey
  let (t, cur) ← directiveHere l.cur
  return { l.push t with cur, keyAllowed := false }

/-- A plain scalar starts with the character `c`. -/
def startsPlain (l : Lexer) (c : Char) : Bool :=
  !(endsToken (some c) || "-?:,[]\x7b\x7d#&*!|>'\"%@\x60".toList.contains c) ||
    (!endsToken (l.cur.peekAt 1) && (c = '-' || (l.depth = 0 && (c = '?' || c = ':'))))

/-- The character is a mark set off by a blank, or stands between brackets. -/
def isSetOff (l : Lexer) : Bool := l.depth != 0 || endsToken (l.cur.peekAt 1)

/-- The token that starts with the character `c`. -/
def tokenAt (l : Lexer) (c : Char) : Reading Lexer :=
  if c = '%' && l.cur.column = 0 then l.directiveToken
  else if c = '-' && l.cur.column = 0 && l.cur.atMark then l.documentToken .documentStart
  else if c = '.' && l.cur.column = 0 && l.cur.atMark then l.documentToken .documentEnd
  else if c = '[' then l.openToken .flowSequenceStart
  else if c = '\x7b' then l.openToken .flowMappingStart
  else if c = ']' then l.closeToken .flowSequenceEnd
  else if c = '\x7d' then l.closeToken .flowMappingEnd
  else if c = ',' then l.commaToken
  else if c = '-' && endsToken (l.cur.peekAt 1) then l.entryToken
  else if c = '?' && l.isSetOff then l.keyToken
  else if c = ':' && l.isSetOff then l.valueToken
  else if c = '*' then l.nodeToken (anchorHere .alias)
  else if c = '&' then l.nodeToken (anchorHere .anchor)
  else if c = '!' then l.nodeToken tagHere
  else if c = '|' && l.depth = 0 then l.blockToken false
  else if c = '>' && l.depth = 0 then l.blockToken true
  else if c = '\x27' then l.nodeToken (quotedScalar false)
  else if c = '\x22' then l.nodeToken (quotedScalar true)
  else if l.startsPlain c then l.plainToken
  else refuse .strayCharacter

/-- The end of the text. -/
def endToken (l : Lexer) : Reading Lexer := do
  let l ← (l.unwind (-1)).dropKey
  return { l.push .streamEnd with keys := [], keyAllowed := false }

/-- The state behind the next token, and whether it was the last. -/
def step (l : Lexer) : Reading (Lexer × Bool) := do
  let cur := if l.cur.index = 0 && l.cur.peek = some '\uFEFF' then l.cur.next else l.cur
  let l := skipToToken cur.fuel (l.goto cur)
  let l ← l.dropStale
  let l := l.unwind l.cur.column
  match l.cur.peek with
  | none => return (← l.endToken, true)
  | some c => return (← l.tokenAt c, false)

/-- The tokens that are settled. -/
def settled (l : Lexer) : List Token :=
  l.done.reverse.take ((l.keys.map fun k => k.2.before).foldl min l.count)

/-- The settled tokens, and why the lexer stopped before the end of the text, if it did. -/
def run : Nat → Lexer → List Token × Stop
  | 0, l => (l.settled, .malformed .tooDeep)
  | fuel + 1, l =>
    match l.dropStale with
    | .error stop => (l.settled, stop)
    | .ok l =>
      match l.step with
      | .error stop => (l.settled, stop)
      | .ok (l, true) => (l.done.reverse, .malformed .missingNode)
      | .ok (l, false) => run fuel l

end Lexer

/-- The character may stand in a YAML text. -/
def isAllowed (c : Char) : Bool :=
  let n := c.toNat
  n = 9 || n = 10 || n = 13 || (32 ≤ n && n ≤ 126) || n = 0x85 ||
    (0xA0 ≤ n && n ≤ 0xD7FF) || (0xE000 ≤ n && n ≤ 0xFFFD) || 0x10000 ≤ n

/-- The tokens of a text as far as they can be read, and why there are no more of them. -/
def tokens (cs : List Char) : List Token × Stop :=
  let cur : Cursor := { rest := cs }
  Lexer.run (cur.fuel + 1) { cur }

end TabCompletion.Yaml
