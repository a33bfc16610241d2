import TabCompletion.Files.Path
import TabCompletion.Text.Utf8

/-!
# File trees

A file tree assigns entries to places; a place is the list of names that lead to it from
the root, which is always a directory. Walking along names follows symbolic links and stops
at the first name that cannot be followed, or at the place of a name that is not there.

Names are texts of characters. Entries whose names are bytes of another encoding are left out.
-/

namespace TabCompletion

/-- The names that lead from the root to an entry. -/
abbrev Place := List String

/-- What stands at a place. -/
inductive Entry where
  | file (bytes : List UInt8)
  | directory
  | link (target : String)
  deriving DecidableEq, Repr

/-- The entry is a directory. -/
def Entry.isDirectory : Entry → Bool
  | .directory => true
  | _ => false

/-- The entry is a file. -/
def Entry.isFile : Entry → Bool
  | .file _ => true
  | _ => false

/-- A file tree; each place is listed once, in the order in which the entries came. -/
structure Tree where
  entries : List (Place × Entry)
  deriving DecidableEq, Repr

namespace Tree

/-- The tree of an empty root. -/
def empty : Tree := ⟨[]⟩

/-- The entry at a place. -/
def entry? (t : Tree) (p : Place) : Option Entry :=
  if p.isEmpty then some .directory else t.entries.lookup p

/-- The entries with `e` at the place `p`; a new place goes to the end. -/
def setIn (p : Place) (e : Entry) : List (Place × Entry) → List (Place × Entry)
  | [] => [(p, e)]
  | (q, f) :: rest => if q = p then (p, e) :: rest else (q, f) :: setIn p e rest

/-- The tree with `e` at the place `p`. -/
def set (t : Tree) (p : Place) (e : Entry) : Tree := ⟨setIn p e t.entries⟩

/-- The tree without the entry at the place `p`. -/
def erase (t : Tree) (p : Place) : Tree := ⟨t.entries.filter fun q => q.1 != p⟩

/-- The names in the directory at a place. -/
def names (t : Tree) (p : Place) : List String :=
  t.entries.filterMap fun (q, _) => if q.dropLast = p then q.getLast? else none

/-- Why a walk fails. -/
inductive Blocked where
  | missing
  | notDirectory
  | tooLong
  | tooManyLinks
  deriving DecidableEq, Repr

/-- Where a walk ends: at an entry, or at a place in a directory where nothing stands. -/
inductive Located where
  | found (place : Place) (entry : Entry)
  | absent (directory : Place) (name : String)
  deriving DecidableEq, Repr

/-- The most bytes a name may have. -/
def maxNameBytes : Nat := 255

/-- How many links a walk may follow. -/
def maxLinks : Nat := 40

/-- The names along which a path walks. -/
def stepsOf (s : String) : List String := Path.namesOf s.toList

/-- The path starts at the root. -/
def startsAtRoot (s : String) : Bool := s.toList.head? = some '/'

/-- What stands behind the last slash of the text is empty or `.`, so that it names a directory. -/
def namesDirectory (s : String) : Bool :=
  match (Text.splitAt '/' s.toList).getLast? with
  | some [] | some ['.'] => true
  | _ => false

/-- The names along which a link walks. A target that names a directory has to lead to one,
which a last step to `.` asks for. -/
def linkSteps (target : String) : List String :=
  stepsOf target ++ if namesDirectory target then ["."] else []

/-- The walk from the directory at a place along names. At most `links` links are followed; a
link in the last place is followed only if `follow`. -/
def walk (t : Tree) (follow : Bool) (links : Nat) (here : Place) (names : List String) :
    Except Blocked Located :=
  match names with
  | [] => .ok (.found here .directory)
  | name :: rest =>
    if name = "." then walk t follow links here rest
    else if name = ".." then walk t follow links here.dropLast rest
    else if maxNameBytes < Text.Utf8.byteCount name then .error .tooLong
    else match t.entry? (here ++ [name]) with
      | none => if rest.isEmpty then .ok (.absent here name) else .error .missing
      | some .directory => walk t follow links (here ++ [name]) rest
      | some (.file bytes) =>
        if rest.isEmpty then .ok (.found (here ++ [name]) (.file bytes)) else .error .notDirectory
      | some (.link target) =>
        if rest.isEmpty && !follow then .ok (.found (here ++ [name]) (.link target))
        else match links with
          | 0 => .error .tooManyLinks
          | k + 1 =>
            walk t follow k (if startsAtRoot target then [] else here) (linkSteps target ++ rest)
  termination_by (links, names.length)

end Tree

end TabCompletion
