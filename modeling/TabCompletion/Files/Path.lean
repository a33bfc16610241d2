import TabCompletion.Text.Newline

/-!
# Paths

A path is an anchor and a list of names. Reading a path drops empty names and the name `.`,
and keeps `..`; two slashes at the very start are kept apart from one. Joining a path that
is anchored gives that path alone.
-/

namespace TabCompletion

/-- Where a path starts. -/
inductive Path.Anchor where
  | here
  | root
  | doubleRoot
  deriving DecidableEq, Repr

/-- A path. -/
structure Path where
  anchor : Path.Anchor
  parts : List String
  deriving DecidableEq, Repr

namespace Path

/-- The anchor of a path written as text. -/
def anchorOf : List Char → Anchor
  | '/' :: '/' :: '/' :: _ => .root
  | '/' :: '/' :: _ => .doubleRoot
  | '/' :: _ => .root
  | _ => .here

/-- The names between slashes, without empty ones and `.`. -/
def namesOf (cs : List Char) : List String :=
  ((Text.splitAt '/' cs).filter fun name => !name.isEmpty && name != ['.']).map String.ofList

/-- The path that a text writes. -/
def ofText (s : String) : Path := ⟨anchorOf s.toList, namesOf s.toList⟩

/-- The text in front of the names. -/
def Anchor.text : Anchor → String
  | .here => ""
  | .root => "/"
  | .doubleRoot => "//"

/-- The path as text. -/
def text (p : Path) : String :=
  if p.anchor = .here && p.parts.isEmpty then "."
  else p.anchor.text ++ String.intercalate "/" p.parts

/-- The path `q` seen from `p`. -/
def append (p q : Path) : Path :=
  if q.anchor = .here then ⟨p.anchor, p.parts ++ q.parts⟩ else q

/-- The path that a text writes, seen from `p`. -/
def join (p : Path) (s : String) : Path := p.append (ofText s)

/-- The last name; none for an anchor alone. -/
def name (p : Path) : String := p.parts.getLast?.getD ""

/-- The path without its last name. -/
def parent (p : Path) : Path := ⟨p.anchor, p.parts.dropLast⟩

/-- The end of a name from its last dot on. A dot at either end of the name does not count. -/
def suffixOf (name : List Char) : List Char :=
  let after := name.reverse.takeWhile (· != '.')
  let before := name.length - after.length
  if after.isEmpty || before ≤ 1 then [] else '.' :: after.reverse

/-- The end of the last name from its last dot on. -/
def suffix (p : Path) : String := String.ofList (suffixOf p.name.toList)

end Path

end TabCompletion
