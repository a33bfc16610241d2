import TabCompletion.Failure
import TabCompletion.Json.Writer

/-!
# Tables

A table has headers, rows of cells and perhaps a title. `Table.records` gives its rows as
JSON objects, `Table.plain` one row to a line with a tab between two cells. Only texts can
be printed plainly; the rows before one that holds anything else are printed all the same.
-/

namespace TabCompletion

/-- Headers, rows of cells, and a title. -/
structure Table where
  headers : List String
  rows : List (List Document)
  title : Option String := none
  deriving Repr

namespace Table

/-- The table of texts. -/
def ofTexts (headers : List String) (rows : List (List String)) (title : String) : Table :=
  { headers, rows := rows.map (·.map .text), title := some title }

/-- A row as an object: each cell under its header. Of two headers that are the same the
later cell counts. -/
def record (headers : List String) (row : List Document) : Document :=
  .map (Document.ofEntries ((headers.map Document.text).zip row))

/-- The rows as a JSON list of objects. -/
def records (t : Table) : String :=
  Json.writeIndented (.list (t.rows.map (record t.headers)))

/-- The text of a cell. -/
def cellText? : Document → Option String
  | .text s => some s
  | _ => none

/-- The cells on one line. -/
def rowLine? (row : List Document) : Option String :=
  (row.mapM cellText?).map (String.intercalate "\t")

/-- Rows one to a line, up to the first with a cell that is no text. -/
def plainRows : List (List Document) → String × Option Fault
  | [] => ("", none)
  | row :: rest =>
    match rowLine? row with
    | none => ("", some .badType)
    | some line => (line ++ "\n" ++ (plainRows rest).1, (plainRows rest).2)

/-- The headers and the rows one to a line. -/
def plain (t : Table) : String × Option Fault := plainRows (t.headers.map .text :: t.rows)

end Table

end TabCompletion
