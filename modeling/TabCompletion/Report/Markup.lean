import TabCompletion.Failure
import TabCompletion.Text.Blank

/-!
# Markup

A text for a terminal may name styles in square brackets: `[bold]` opens one and `[/bold]`
or `[/]` closes it. `visible` is what a reader sees of such a text. A backslash before a
bracket takes its meaning away. A tag that closes nothing is a fault.

Markup is rendered by a library of its own. How it tells tags from plain text is part of `visible`;
which codes in a plain text it has pictures for, in how many ways the name of a style may be
written, and which parameters of a handler it can read is left to a `Renderer`. The lines are left
as long as they are: where a terminal breaks them is not part of what is seen.
-/

namespace TabCompletion.Markup

/-- A part of a text with markup. -/
inductive Piece where
  | plain (text : List Char)
  | tag (inside : List Char)
  deriving DecidableEq, Repr

/-- The character may come first in a tag. -/
def startsTag (c : Char) : Bool := c.isLower || c = '#' || c = '/' || c = '@'

/-- The inside of the tag that starts behind an opening bracket, and what follows the tag. -/
def tagInside? : List Char → Option (List Char × List Char)
  | [] => none
  | c :: cs =>
    let inside := cs.takeWhile fun c => c != '[' && c != ']'
    match cs.drop inside.length with
    | ']' :: rest => if startsTag c then some (c :: inside, rest) else none
    | _ => none

/-- The parts of a text; `pending` is the plain text before it. `fuel` bounds their number. -/
def piecesFrom : Nat → List Char → List Char → List Piece
  | 0, pending, cs => [.plain (pending ++ cs)]
  | _ + 1, pending, [] => [.plain pending]
  | fuel + 1, pending, c :: cs =>
    let slashes := ((c :: cs).takeWhile (· = '\\')).length
    match (c :: cs).drop slashes with
    | '[' :: rest =>
      match tagInside? rest with
      | some (inside, rest) =>
        let shown := List.replicate (slashes / 2) '\\'
        if slashes % 2 = 0 then
          .plain pending :: .plain shown :: .tag inside ::
            piecesFrom fuel [] rest
        else
          .plain pending :: .plain shown :: .plain ('[' :: inside ++ [']']) ::
            piecesFrom fuel [] rest
      | none => piecesFrom fuel (pending ++ [c]) cs
    | _ => piecesFrom fuel (pending ++ [c]) cs

/-- The parts of a text. -/
def pieces (cs : List Char) : List Piece := piecesFrom (cs.length + 1) [] cs

/-- The text with `[` in the place of each `\[`. -/
def unescape : List Char → List Char
  | [] => []
  | '\\' :: '[' :: cs => '[' :: unescape cs
  | c :: cs => c :: unescape cs

/-- Characters that a terminal obeys and does not show. -/
def isControl (c : Char) : Bool :=
  c.toNat = 7 || c.toNat = 8 || c.toNat = 11 || c.toNat = 12 || c.toNat = 13

/-- The text without the characters that a terminal obeys. -/
def stripControls (cs : List Char) : List Char := cs.filter fun c => !isControl c

/-- The effects that a style may have, each with its short name if it has one. -/
def effects : List (String × String) :=
  [("bold", "b"), ("dim", "d"), ("italic", "i"), ("underline", "u"), ("blink", "blink"),
   ("blink2", "blink2"), ("reverse", "r"), ("conceal", "c"), ("strike", "s"),
   ("underline2", "uu"), ("frame", "frame"), ("encircle", "encircle"), ("overline", "o")]

/-- The full name of an effect. -/
def effectOf? (word : String) : Option String :=
  (effects.find? fun e => e.1 = word || e.2 = word).map Prod.fst

/-- The effects that words turn on or off, in the order of the words. -/
def effectWords : List String → Option (List (String × Bool))
  | [] => some []
  | "not" :: word :: rest =>
    match effectOf? word, effectWords rest with
    | some e, some es => some ((e, false) :: es)
    | _, _ => none
  | word :: rest =>
    match effectOf? word, effectWords rest with
    | some e, some es => some ((e, true) :: es)
    | _, _ => none

/-- One name for all ways to write the style of a tag. -/
def styleName (name : List Char) : String :=
  let lower := (Text.strip name).map Char.toLower
  match effectWords ((Text.blankSplit lower).map String.ofList) with
  | none | some [] => String.ofList lower
  | some words =>
    String.intercalate " " (effects.filterMap fun e =>
      (words.reverse.lookup e.1).map fun on => if on then e.1 else "not " ++ e.1)

/-- What a renderer of markup does in its own way. -/
structure Renderer where
  /-- A plain text with pictures in the places of their codes. -/
  picture : List Char → List Char := id
  /-- One name for all ways to write the style of a tag. -/
  styleName : List Char → String := Markup.styleName
  /-- The parameters of a handler can be read. -/
  readsHandler : List Char → Bool := fun _ => true

/-- A style that is open, by its one name, and the parameters of the tag that opened it. -/
structure Opened where
  name : String
  parameters : List Char
  deriving DecidableEq, Repr

/-- The last open style of that name, and the styles that stay open without it. -/
def take? (name : String) : List Opened → Option (Opened × List Opened)
  | [] => none
  | o :: rest =>
    if o.name = name then some (o, rest)
    else (take? name rest).map fun (last, kept) => (last, o :: kept)

namespace Renderer

/-- The style can be closed. That of a handler has parameters that can be read, if any. -/
def closes (r : Renderer) (o : Opened) : Bool :=
  o.name.toList.head? != some '@' || o.parameters.isEmpty || r.readsHandler o.parameters

/-- The styles that are open after a tag; `opened` are those before it, the last one first. -/
def afterTag? (r : Renderer) (opened : List Opened) (inside : List Char) : Option (List Opened) :=
  let name := inside.takeWhile (· != '=')
  match name with
  | '/' :: closed =>
    let closed := Text.strip closed
    let taken := if closed.isEmpty then opened.head?.map (·, opened.tail)
      else take? (r.styleName closed) opened
    taken.bind fun (last, kept) => if r.closes last then some kept else none
  | _ => some (⟨r.styleName name, inside.drop (name.length + 1)⟩ :: opened)

/-- What is seen of a plain part. -/
def shown (r : Renderer) (text : List Char) : List Char :=
  stripControls (r.picture (unescape text))

/-- What is seen of the parts of a text. -/
def visiblePieces (r : Renderer) (opened : List Opened) : List Piece → Except Fault (List Char)
  | [] => .ok []
  | .plain text :: rest => (r.visiblePieces opened rest).map (r.shown text ++ ·)
  | .tag inside :: rest =>
    match r.afterTag? opened inside with
    | some opened => r.visiblePieces opened rest
    | none => .error .badMarkup

/-- What is seen of a text. -/
def visible (r : Renderer) (cs : List Char) : Except Fault (List Char) :=
  r.visiblePieces [] (pieces cs)

end Renderer

end TabCompletion.Markup
