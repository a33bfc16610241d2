import TabCompletion.Document.Basic
import TabCompletion.Files.Disk
import TabCompletion.Text.Codes

/-!
# Replacing a file at once

A file is replaced by making a temporary file beside it, writing that and moving it onto the
path of the file, so that no reader finds half a file. If the temporary file cannot be written,
brought to the device, closed or moved, it is removed; either way none is left. The text is given by
its code points, since one with a surrogate is found to have no UTF-8 form only when the temporary
file is there. The system is taken to remove a file that it has just let the program make.
-/

namespace TabCompletion.Disk

/-- The name of a temporary file for the file of that name. -/
def temporaryName (name : String) (number : Nat) : String :=
  "." ++ name ++ "." ++ padded 8 number ++ ".tmp"

/-- The first temporary name for which nothing stands in the directory at a place. -/
def freeName? (d : Disk) (directory : Place) (name : String) : Option String :=
  ((List.range (d.tree.entries.length + 1)).map (temporaryName name)).find? fun candidate =>
    (d.tree.entry? (directory ++ [candidate])).isNone

/-- The disk with a new temporary file beside the file at a path, still empty, and its place. -/
def createTemporary (d : Disk) (path : Path) : Except Fault (Disk × Place) :=
  let directory := (d.absolute path.parent.text).text
  d.granted .draft path.text <|
    match d.locate true (directory ++ "/" ++ temporaryName path.name 0) with
    | .error fault => .error fault
    | .ok _ =>
      match d.entry directory, d.locate true directory with
      | .ok .directory, .ok (.found place _) =>
        match d.freeName? place path.name with
        | some free =>
          .ok (d.withTree (d.tree.set (place ++ [free]) (.file [])), place ++ [free])
        | none => .error (faultAt .exists directory)
      | .ok _, _ => .error (faultAt .notDirectory directory)
      | .error fault, _ => .error fault

/-- The disk after writing a text to the temporary file at a place, which is for the file at a path,
and the fault of this, if any. What is brought to the device or closed in vain is written all the
same. -/
def fillTemporary (d : Disk) (place : Place) (path : Path) (codes : List Nat) :
    Disk × Option Fault :=
  match Text.text? codes, d.refused? .fill path.text with
  | none, _ => (d, some .badValue)
  | some _, some kind => (d, some (.file (.of kind)))
  | some text, none =>
    (d.withTree (d.tree.set place (.file (Text.Utf8.encode text))),
      ((d.refused? .sync path.text).orElse fun _ => d.refused? .close path.text).map
        fun kind => .file (.of kind))

/-- The disk after moving the file at a place onto a path. The path has to end in a name. -/
def moveOnto (d : Disk) (place : Place) (path : Path) : Except Fault Disk :=
  d.granted .move path.text <|
    if path.name = "" || path.name = ".." then .error (faultAt .other path.text)
    else
      let moved (target : Place) : Disk :=
        d.withTree ((d.tree.erase place).set target (.file (d.bytesAt place)))
      match d.locate false path.text with
      | .ok (.found _ .directory) => .error (faultAt .isDirectory path.text)
      | .ok (.found target _) => .ok (moved target)
      | .ok (.absent directory name) => .ok (moved (directory ++ [name]))
      | .error fault => .error fault

/-- The disk after a text is written to the temporary file at a place and this is moved onto the
path, and the fault that stopped this, if any. -/
def completeTemporary (d : Disk) (place : Place) (path : Path) (codes : List Nat) :
    Disk × Option Fault :=
  match d.fillTemporary place path codes with
  | (filled, some fault) => (filled, some fault)
  | (filled, none) =>
    match filled.moveOnto place path with
    | .ok moved => (moved, none)
    | .error fault => (filled, some fault)

/-- The disk after replacing the file at a path by one of a text, and the fault that kept it from
being replaced, if any. Directories that lead to it are made. -/
def replaceCoded (d : Disk) (path : Path) (codes : List Nat) : Disk × Option Fault :=
  match d.ensureDirectory path.parent with
  | (made, some fault) => (made, some fault)
  | (made, none) =>
    match made.createTemporary path with
    | .error fault => (made, some fault)
    | .ok (drafted, place) =>
      match drafted.completeTemporary place path codes with
      | (moved, none) => (moved, none)
      | (left, some fault) => (left.withTree (left.tree.erase place), some fault)

/-- The disk after replacing the file at a path by one of a text of characters, and the fault that
kept it from being replaced, if any. -/
def replace (d : Disk) (path : Path) (text : String) : Disk × Option Fault :=
  d.replaceCoded path (Text.codes text)

end TabCompletion.Disk
