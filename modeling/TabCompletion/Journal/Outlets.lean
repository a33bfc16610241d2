import TabCompletion.Host.Basic
import TabCompletion.Journal
import TabCompletion.Report.Markup
import TabCompletion.Text.Newline
import TabCompletion.Text.Width

/-!
# Where records go

The program's records go to the terminal and, if one is named, to a file. The terminal shows
warnings and what is graver, or everything if the user wants to see it; the file gets
everything. `Outlets.setUp` says where records go from then on, whatever was said before. A
file that cannot be opened is left out, with a warning.
-/

namespace TabCompletion

/-- Where records go. -/
structure Outlets where
  /-- Lighter records are dropped. -/
  threshold : Level
  /-- Lighter records are not shown on the terminal. -/
  terminal : Level
  /-- The file to which records are appended. -/
  file : Option Place := none
  deriving DecidableEq, Repr

namespace Outlets

/-- The name under which the program's own records are made. -/
def ownSource : String := "peercomp"

/-- The record is one of the program itself. -/
def isOwn (source : String) : Bool :=
  source = ownSource || (ownSource ++ ".").toList.isPrefixOf source.toList

/-- The record of a file that cannot be opened. -/
def unopened (path : String) (fault : FileFault) : Record :=
  { source := ownSource, level := .warning,
    message := "Cannot open log file " ++ path ++ ": " ++ fault.text }

/-- The disk with the file at a path opened for appending, and its place. -/
def openFile (h : Host) (path : String) : Except Fault (Disk × Place) := do
  let expanded ← h.environment.expandHome path
  let place ← h.disk.openPlace (h.disk.absolute expanded).text
  return (h.disk.appendAt place [], place)

/-- The disk and where records go; a fault that is none of files stops the set-up. -/
def setUp (h : Host) (verbose : Bool) (path : Option String) :
    Except Fault (Disk × Logged Outlets) :=
  let terminal : Level := if verbose then .debug else .warning
  match path.filter (· != "") with
  | none => .ok (h.disk, pure { threshold := terminal, terminal })
  | some path =>
    match openFile h path with
    | .ok (disk, place) =>
      .ok (disk, pure { threshold := .debug, terminal, file := some place })
    | .error (.file fault) =>
      .ok (h.disk, ⟨[unopened path fault], { threshold := .debug, terminal }⟩)
    | .error fault => .error fault

/-- What stands in a record for the way to the fault behind it. -/
def trace : String := "<traceback>"

/-- The message of a record, with the way to the fault behind it, if there is one. -/
def messageOf (r : Record) : String := if r.traced then r.message ++ "\n" ++ trace else r.message

/-- The name of the level, as wide as the widest one. -/
def levelColumn (l : Level) : List Char := Text.padTo 8 l.name.toList

/-- A record as the terminal shows it: its level, and its message beside that. -/
def terminalText (r : Record) : String :=
  let shown := Markup.stripControls (messageOf r).toList
  let texts := (Text.splitAt '\n' shown).map (Text.expandTabs 0)
  let margins := levelColumn r.level :: List.replicate texts.length (List.replicate 8 ' ')
  String.join ((margins.zip texts).map fun (margin, text) =>
    String.ofList (margin ++ ' ' :: text) ++ "\n")

/-- A record as it stands in the file. -/
def fileText (stamp : String) (r : Record) : String :=
  stamp ++ " " ++ r.level.name ++ " " ++ r.source ++ ": " ++ messageOf r ++ "\n"

/-- The record is kept. -/
def keeps (o : Outlets) (r : Record) : Bool := isOwn r.source && o.threshold.rank ≤ r.level.rank

/-- What the terminal shows of a record. -/
def shown (o : Outlets) (r : Record) : String :=
  if o.keeps r && o.terminal.rank ≤ r.level.rank then terminalText r else ""

/-- The disk after a record. -/
def filed (o : Outlets) (stamp : String) (d : Disk) (r : Record) : Disk :=
  match o.file with
  | some place =>
    if o.keeps r then d.appendAt place (Text.Utf8.encode (fileText stamp r)) else d
  | none => d

end Outlets

end TabCompletion
