import TabCompletion.Failure
import TabCompletion.Files.Tree

/-!
# Disks

A disk is a file tree with a working directory, from which paths that do not start at the
root are walked. Reading a disk leaves it as it is; the operations that change it give the
disk after them.

Whether an operation succeeds is not settled by the tree alone: the program may lack the right
to it, or the device may fail. The tree knows neither owners nor devices. What comes of them is
part of the disk as its `refusals`, the calls to the system that fail whatever the tree holds,
each with the kind of its fault; they are the same throughout a run. A name of more than 255
bytes and a path of more than 4095 are refused by every system. Entries that are neither files,
directories nor links are left out.
-/

namespace TabCompletion

/-- What the system is asked to do at a path. -/
inductive Call where
  /-- To say what stands there. -/
  | look
  /-- To name what is in the directory. -/
  | list
  /-- To read the file. -/
  | read
  /-- To make a directory. -/
  | make
  /-- To open the file for more at its end. -/
  | append
  /-- To open the file for all that it is to hold. -/
  | write
  /-- To make a temporary file beside the file. -/
  | draft
  /-- To write the temporary file. -/
  | fill
  /-- To bring the temporary file to the device. -/
  | sync
  /-- To close the temporary file. -/
  | close
  /-- To move the temporary file onto the file. -/
  | move
  deriving DecidableEq, Repr

/-- A file tree, the place of the working directory, and the calls that the system refuses. -/
structure Disk where
  tree : Tree
  cwd : Place
  refusals : List ((Call × String) × FileFault.Kind) := []
  deriving DecidableEq, Repr

namespace Disk

/-- The most bytes a path may have. -/
def maxPathBytes : Nat := 4095

/-- The kind of fault of a failed walk. -/
def blockedKind : Tree.Blocked → FileFault.Kind
  | .missing => .missing
  | .notDirectory => .notDirectory
  | .tooLong => .tooLong
  | .tooManyLinks => .tooManyLinks

/-- The fault of that kind at a path. -/
def faultAt (kind : FileFault.Kind) (path : String) : Fault := .file (.at kind path)

/-- Where a path leads. A path with a zero character is no path. -/
def locate (d : Disk) (follow : Bool) (path : String) : Except Fault Tree.Located :=
  if path.toList.contains '\x00' then .error .badValue
  else if maxPathBytes < Text.Utf8.byteCount path then .error (faultAt .tooLong path)
  else
    let start := if Tree.startsAtRoot path then [] else d.cwd
    match d.tree.walk follow Tree.maxLinks start (Tree.stepsOf path) with
    | .ok located => .ok located
    | .error blocked => .error (faultAt (blockedKind blocked) path)

/-- The entry to which a path leads, links followed. -/
def entry (d : Disk) (path : String) : Except Fault Entry :=
  match d.locate true path with
  | .ok (.found _ e) => .ok e
  | .ok (.absent ..) => .error (faultAt .missing path)
  | .error fault => .error fault

/-- The kind of fault with which the system refuses a call at a path, if it does. A path with a
zero character is not passed on to it. -/
def refused? (d : Disk) (call : Call) (path : String) : Option FileFault.Kind :=
  if path.toList.contains '\x00' then none else d.refusals.lookup (call, path)

/-- What comes of a call at a path, unless the system refuses it. -/
def granted {α : Type} (d : Disk) (call : Call) (path : String) (result : Except Fault α) :
    Except Fault α :=
  match d.refused? call path with
  | some kind => .error (faultAt kind path)
  | none => result

/-- The entry that the system says stands at a path. -/
def look (d : Disk) (path : String) : Except Fault Entry := d.granted .look path (d.entry path)

/-- The kind of fault says that nothing can be found at a path. -/
def saysNothing : FileFault.Kind → Bool
  | .missing | .notDirectory | .tooManyLinks => true
  | _ => false

/-- A question about the entry at a path. What is not there, cannot be walked to or is no path
has no entry; any other reason not to say what stands there is a fault. -/
def ask (d : Disk) (path : String) (question : Entry → Bool) : Except Fault Bool :=
  match d.look path with
  | .ok e => .ok (question e)
  | .error (.file fault) => if saysNothing fault.kind then .ok false else .error (.file fault)
  | .error .badValue => .ok false
  | .error fault => .error fault

/-- A directory stands at the path. -/
def isDirectory (d : Disk) (path : String) : Except Fault Bool := d.ask path Entry.isDirectory

/-- A file stands at the path. -/
def isFile (d : Disk) (path : String) : Except Fault Bool := d.ask path Entry.isFile

/-- The bytes of the file at a path. -/
def read (d : Disk) (path : String) : Except Fault (List UInt8) :=
  d.granted .read path <|
    match d.entry path with
    | .ok (.file bytes) => .ok bytes
    | .ok _ => .error (faultAt .isDirectory path)
    | .error fault => .error fault

/-- The names in the directory at a path, and its place. -/
def list (d : Disk) (path : String) : Except Fault (Place × List String) :=
  d.granted .list path <|
    match d.locate true path with
    | .ok (.found place .directory) => .ok (place, d.tree.names place)
    | .ok (.found ..) => .error (faultAt .notDirectory path)
    | .ok (.absent ..) => .error (faultAt .missing path)
    | .error fault => .error fault

/-- The path of a name in the directory at a path. -/
def pathIn (directory name : String) : String :=
  if directory.toList.getLast? = some '/' then directory ++ name else directory ++ "/" ++ name

/-- The name leads to a directory. It is in the directory at a path, and `place` is that of this
directory. A link is followed from the path, and one that cannot be followed leads to none. -/
def isDirectoryAt (d : Disk) (directory : String) (place : Place) (name : String) : Bool :=
  match d.tree.entry? (place ++ [name]) with
  | some .directory => true
  | some (.link _) =>
    match d.look (pathIn directory name) with
    | .ok .directory => true
    | _ => false
  | _ => false

/-- The disk with another tree. -/
def withTree (d : Disk) (t : Tree) : Disk := { d with tree := t }

/-- The disk after making the directory at a path. -/
def makeDirectory (d : Disk) (path : String) : Except Fault Disk :=
  d.granted .make path <|
    match d.locate false path with
    | .ok (.absent directory name) =>
      .ok (d.withTree (d.tree.set (directory ++ [name]) .directory))
    | .ok (.found ..) => .error (faultAt .exists path)
    | .error fault => .error fault

/-- The fault says that something on the way is missing. -/
def isMissing : Fault → Bool
  | .file fault => fault.kind = .missing
  | _ => false

/-- A fault of making a directory counts for nothing if a directory stands there. -/
def unlessDirectory (d : Disk) (path : String) (fault : Fault) : Except Fault Disk :=
  match fault with
  | .file f =>
    match d.isDirectory path with
    | .ok true => .ok d
    | .ok false => .error (.file f)
    | .error fault => .error fault
  | fault => .error fault

/-- The disk after making the directory at a path unless it is there, with the directories
that lead to it, and the fault that stopped this, if any. `fuel` bounds their number. -/
def makeDirectories (d : Disk) (p : Path) : Nat → Disk × Option Fault
  | 0 => (d, some (faultAt .missing p.text))
  | fuel + 1 =>
    match d.makeDirectory p.text with
    | .ok made => (made, none)
    | .error fault =>
      if isMissing fault then
        if p.parent = p then (d, some fault)
        else
          match d.makeDirectories p.parent fuel with
          | (above, some fault) => (above, some fault)
          | (above, none) =>
            match above.makeDirectory p.text with
            | .ok made => (made, none)
            | .error fault =>
              if isMissing fault then (above, some fault)
              else match above.unlessDirectory p.text fault with
                | .ok made => (made, none)
                | .error fault => (above, some fault)
      else match d.unlessDirectory p.text fault with
        | .ok made => (made, none)
        | .error fault => (d, some fault)

/-- The disk after making the directory at a path and those that lead to it. -/
def ensureDirectory (d : Disk) (p : Path) : Disk × Option Fault :=
  d.makeDirectories p (p.parts.length + 1)

/-- The place at which writing to a path creates or changes a file. -/
def filePlace (d : Disk) (path : String) : Except Fault Place :=
  match d.locate true path with
  | .ok (.found place (.file _)) => .ok place
  | .ok (.found ..) => .error (faultAt .isDirectory path)
  | .ok (.absent directory name) => .ok (directory ++ [name])
  | .error fault => .error fault

/-- The bytes of the file at a place, none if there is no file. -/
def bytesAt (d : Disk) (place : Place) : List UInt8 :=
  match d.tree.entry? place with
  | some (.file bytes) => bytes
  | _ => []

/-- The place of the file at a path that is opened for more at its end. -/
def openPlace (d : Disk) (path : String) : Except Fault Place :=
  d.granted .append path (d.filePlace path)

/-- The disk with more bytes at the end of the file at a place. -/
def appendAt (d : Disk) (place : Place) (bytes : List UInt8) : Disk :=
  d.withTree (d.tree.set place (.file (d.bytesAt place ++ bytes)))

/-- The disk after writing a file at a path, in the place of any earlier one. -/
def write (d : Disk) (path : String) (bytes : List UInt8) : Except Fault Disk :=
  (d.filePlace path).map fun place => d.withTree (d.tree.set place (.file bytes))

/-- The absolute path with `.` and `..` worked out on the names alone. -/
def absolute (d : Disk) (path : String) : Path :=
  let anchor := Path.anchorOf path.toList
  let start := if anchor = .here then d.cwd else []
  let names := (Tree.stepsOf path).foldl
    (fun done name => if name = ".." then done.dropLast else done ++ [name]) start
  ⟨if anchor = .here then .root else anchor, names⟩

end Disk

end TabCompletion
