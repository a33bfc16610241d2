import TabCompletion.Text.Utf8
import TabCompletion.Yaml.Token.Basic

/-!
# Directives, anchors and tags

The tokens that are names: directives behind `%`, anchors behind `&`, aliases behind `*`,
and tags behind `!`. A tag is a handle with a suffix, or a whole tag between `<` and `>`.
-/

namespace TabCompletion.Yaml

/-- The character may stand in a name. -/
def isNameChar (c : Char) : Bool := c.isAlphanum || c = '-' || c = '_'

/-- The character may stand in a tag. -/
def isTagChar (c : Char) : Bool :=
  c.isAlphanum || "-;/?:@&=+$,_.!~*'()[]%".toList.contains c

/-- The name that starts here. -/
def nameHere (problem : Problem) (cur : Cursor) : Reading (String × Cursor) :=
  let (cs, cur) := cur.takeWhile isNameChar
  if cs.isEmpty then refuse problem else .ok (String.ofList cs, cur)

/-- The bytes of the `%XX` escapes that start here. -/
def escapedBytes : Nat → Cursor → Reading (List UInt8 × Cursor)
  | 0, cur => .ok ([], cur)
  | fuel + 1, cur =>
    if cur.peek != some '%' then .ok ([], cur)
    else
      match cur.rest with
      | _ :: a :: b :: _ =>
        let hex (c : Char) : Option Nat :=
          if c.isDigit then some (c.toNat - 48)
          else if 'a' ≤ c && c ≤ 'f' then some (c.toNat - 87)
          else if 'A' ≤ c && c ≤ 'F' then some (c.toNat - 55)
          else none
        match hex a, hex b with
        | some m, some n =>
          match escapedBytes fuel (cur.advance 3) with
          | .ok (bytes, cur) => .ok (UInt8.ofNat (m * 16 + n) :: bytes, cur)
          | .error stop => .error stop
        | _, _ => refuse .tagForm
      | _ => refuse .tagForm

/-- The characters of a tag from here on. -/
def tagChars : Nat → Cursor → Reading (List Char × Cursor)
  | 0, cur => .ok ([], cur)
  | fuel + 1, cur =>
    match cur.peek with
    | none => .ok ([], cur)
    | some c =>
      if c = '%' then
        match escapedBytes cur.fuel cur with
        | .error stop => .error stop
        | .ok (bytes, cur) =>
          match Text.Utf8.decode bytes with
          | .error _ => refuse .tagForm
          | .ok cs =>
            match tagChars fuel cur with
            | .ok (more, cur) => .ok (cs ++ more, cur)
            | .error stop => .error stop
      else if isTagChar c then
        match tagChars fuel cur.next with
        | .ok (more, cur) => .ok (c :: more, cur)
        | .error stop => .error stop
      else .ok ([], cur)

/-- The tag or the start of a tag that stands here; it is not empty. -/
def tagText (cur : Cursor) : Reading (String × Cursor) :=
  match tagChars cur.fuel cur with
  | .error stop => .error stop
  | .ok (cs, after) =>
    if after.index = cur.index then refuse .tagForm else .ok (String.ofList cs, after)

/-- The handle that stands here: one `!`, or a name between two. -/
def tagHandle (cur : Cursor) : Reading (String × Cursor) :=
  if cur.peek != some '!' then refuse .tagForm
  else if cur.peekAt 1 = some ' ' then .ok ("!", cur.next)
  else
    let (name, cur) := cur.next.takeWhile isNameChar
    if cur.peek = some '!' then .ok ("!" ++ String.ofList name ++ "!", cur.next)
    else refuse .tagForm

/-- The whole number that starts here. -/
def versionNumber (cur : Cursor) : Reading (Nat × Cursor) :=
  let (ds, cur) := cur.takeWhile Char.isDigit
  if ds.isEmpty then refuse .directive
  else if 4300 < ds.length then .error (.fault .badValue)
  else .ok (ds.foldl (fun n c => n * 10 + (c.toNat - 48)) 0, cur)

/-- What a directive of that name says. -/
def directiveBody (name : String) (cur : Cursor) : Reading (Directive × Cursor) := do
  if name = "YAML" then
    let (major, cur) ← versionNumber cur.skipSpaces
    if cur.peek != some '.' then refuse .directive
    let (minor, cur) ← versionNumber cur.next
    if !endsWord cur.peek then refuse .directive
    return (.version major minor, cur)
  else if name = "TAG" then
    let (handle, cur) ← tagHandle cur.skipSpaces
    if cur.peek != some ' ' then refuse .directive
    let (start, cur) ← tagText cur.skipSpaces
    if !endsWord cur.peek then refuse .directive
    return (.tag handle start, cur)
  else return (.other, cur.skipWhile fun c => !isBreak c)

/-- The directive that starts here, and the cursor at the start of the next line. -/
def directiveHere (cur : Cursor) : Reading (Token × Cursor) := do
  let (name, cur) ← nameHere .directive cur.next
  if !endsWord cur.peek then refuse .directive
  let (d, cur) ← directiveBody name cur
  let cur := cur.skipSpaces.skipComment
  if !endsLine cur.peek then refuse .directive
  return (.directive d, cur.takeBreak.2)

/-- The character may follow the name of an anchor. -/
def endsAnchor (o : Option Char) : Bool :=
  endsToken o || (o.map fun c => "?:,]\x7d%@\x60".toList.contains c).getD false

/-- The anchor or the alias that starts here. -/
def anchorHere (make : String → Token) (cur : Cursor) : Reading (Token × Cursor) := do
  let (name, cur) ← nameHere .anchorName cur.next
  if !endsAnchor cur.peek then refuse .anchorName
  return (make name, cur)

/-- A second `!` stands in the word behind the first. -/
def hasNamedHandle (cur : Cursor) : Bool :=
  ((cur.next.rest.takeWhile fun c => !endsWord (some c)).contains '!')

/-- The tag that starts here. -/
def tagHere (cur : Cursor) : Reading (Token × Cursor) := do
  let (token, cur) ←
    if cur.peekAt 1 = some '<' then do
      let (text, cur) ← tagText (cur.advance 2)
      if cur.peek != some '>' then refuse .tagForm
      pure (Token.tag none text, cur.next)
    else if endsToken (cur.peekAt 1) then pure (Token.tag none "!", cur.next)
    else do
      let (handle, cur) ← if hasNamedHandle cur then tagHandle cur else pure ("!", cur.next)
      let (suffix, cur) ← tagText cur
      pure (Token.tag (some handle) suffix, cur)
  if !endsWord cur.peek then refuse .tagForm
  return (token, cur)

end TabCompletion.Yaml
