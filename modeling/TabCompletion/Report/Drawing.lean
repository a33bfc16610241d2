import TabCompletion.Report.Markup
import TabCompletion.Report.Table
import TabCompletion.Text.Newline
import TabCompletion.Text.Width

/-!
# Drawn tables

A table drawn with lines around its cells. Each column is as wide as its widest text, with a
blank on either side. The title stands above, in the middle; titles and headers stand out by
an `Ink`. Texts are read as markup. A table is drawn as wide as it is: what becomes of one that is
wider than the terminal is left out.
-/

namespace TabCompletion

/-- The terminal codes by which titles and headers stand out. -/
structure Ink where
  title : Option String := none
  header : Option String := none
  deriving DecidableEq, Repr

/-- A text with the codes that turn its looks on and off. -/
def Ink.paint (code : Option String) (text : List Char) : List Char :=
  match code with
  | some code =>
    if text.isEmpty then [] else ("\x1b[" ++ code ++ "m").toList ++ text ++ "\x1b[0m".toList
  | none => text

namespace Drawing

/-- What is seen of a cell. -/
def cell (renderer : Markup.Renderer) : Document → Except Fault (List Char)
  | .null => .ok []
  | .text s => renderer.visible s.toList
  | _ => .error .notDrawable

/-- The cell holds something that can be drawn. -/
def isDrawable : Document → Bool
  | .null => true
  | .text _ => true
  | _ => false

/-- The characters that end a line. -/
def endsLine (c : Char) : Bool :=
  let n := c.toNat
  (10 ≤ n && n ≤ 13) || (28 ≤ n && n ≤ 30) || n = 0x85 || n = 0x2028 || n = 0x2029

/-- The columns of the longest line of a text. -/
def measure (cs : List Char) : Nat :=
  ((Text.splitAt '\n' (cs.map fun c => if endsLine c then '\n' else c)).map Text.columns).foldl
    max 0

/-- A row with as many cells as there are columns. -/
def complete (width : Nat) (row : List (List Char)) : List (List Char) :=
  row ++ List.replicate (width - row.length) []

/-- The widths of the columns of rows. -/
def widths (rows : List (List (List Char))) : List Nat :=
  rows.foldl (fun ws row => List.zipWith max ws (row.map measure))
    ((rows.head?.getD []).map fun _ => 0)

/-- The lines of a text that is wrapped at `width` columns. -/
def lines (cut : Bool) (width : Nat) (cs : List Char) : List (List Char) :=
  (Text.splitAt '\n' cs).flatMap fun line => Text.wrap cut width (Text.expandTabs 0 line)

/-- A line of a cell with its margins. -/
def framed (code : Option String) (width : Nat) (line : List Char) : List Char :=
  Ink.paint code [' '] ++ Ink.paint code (Text.fit width line) ++ Ink.paint code [' ']

/-- The blank line of a cell. -/
def blankLine (code : Option String) (width : Nat) : List Char :=
  Ink.paint code (List.replicate (width + 2) ' ')

/-- The lines of a cell of a row that is `height` lines high. The text stands at the bottom of
a header and at the top of any other cell. -/
def cellLines (code : Option String) (isHeader : Bool) (height width : Nat)
    (texts : List (List Char)) : List (List Char) :=
  let blanks := List.replicate (height - texts.length) (blankLine code width)
  let texts := texts.map (framed code width)
  if isHeader then blanks ++ texts else texts ++ blanks

/-- The lines of a row, the cells set apart by `bar`. -/
def rowLines (code : Option String) (isHeader : Bool) (bar : Char) (ws : List Nat)
    (row : List (List Char)) : List (List Char) :=
  let texts := List.zipWith (fun w cs => (w, lines false w cs)) ws row
  let height := (texts.map fun t => t.2.length).foldl max 1
  let cells := texts.map fun (w, ls) => cellLines code isHeader height w ls
  (List.range height).map fun i =>
    bar :: [bar].intercalate (cells.map fun c => c.getD i []) ++ [bar]

/-- A line between rows. -/
def rule (left line cross right : Char) (ws : List Nat) : List Char :=
  left :: [cross].intercalate (ws.map fun w => List.replicate (w + 2) line) ++ [right]

/-- A line of the title, in the middle of `width` columns. -/
def centred (width : Nat) (line : List Char) : List Char :=
  let line := Text.stripEnd line
  Text.padTo width (List.replicate ((width - Text.columns line) / 2) ' ' ++ line)

/-- The lines of the title. -/
def titleLines (code : Option String) (width : Nat) (title : List Char) : List (List Char) :=
  (lines true width title).map fun line => Ink.paint code (centred width line)

/-- The lines of a table of texts with a title. -/
def tableLines (ink : Ink) (title : Option (List Char)) (headers : List (List Char))
    (rows : List (List (List Char))) : List (List Char) :=
  let count := (rows.map List.length).foldl max headers.length
  let headers := complete count headers
  let rows := rows.map (complete count)
  let ws := widths (headers :: rows)
  let width := (ws.map (· + 3)).foldr (· + ·) 0 + 1
  let above := match title with
    | some title => titleLines ink.title width title
    | none => []
  above ++ [rule '┏' '━' '┳' '┓' ws] ++ rowLines ink.header true '┃' ws headers ++
    [rule '┡' '━' '╇' '┩' ws] ++ rows.flatMap (rowLines none false '│' ws) ++
    [rule '└' '─' '┴' '┘' ws]

/-- A title that is not empty, as it is seen. -/
def visibleTitle (renderer : Markup.Renderer) (title : Option String) :
    Except Fault (Option (List Char)) :=
  match title with
  | none => .ok none
  | some "" => .ok none
  | some title => (renderer.visible title.toList).map some

/-- The drawing of a table; a table without columns is an empty line. -/
def draw (renderer : Markup.Renderer) (ink : Ink) (t : Table) : Except Fault String := do
  if !(t.rows.all fun row => row.all isDrawable) then .error .notDrawable
  if t.headers.isEmpty && t.rows.all List.isEmpty then return "\n"
  let title ← visibleTitle renderer t.title
  let headers ← t.headers.mapM fun s => renderer.visible s.toList
  let rows ← t.rows.mapM fun row => row.mapM (cell renderer)
  return String.join ((tableLines ink title headers rows).map fun l => String.ofList l ++ "\n")

end Drawing

end TabCompletion
