import TabCompletion.Host.Basic
import TabCompletion.Provider
import TabCompletion.Settings.Basic

/-!
# Offering paths

What is typed of a path is a directory and the start of a name. The entries of the directory
whose names start so are offered, behind the directory as it is typed; a `~` at its start is
expanded only to find the directory. Where there is no directory nothing is offered.
-/

namespace TabCompletion

/-- What is typed of a path. -/
structure TypedPath where
  /-- The directory as it is typed, empty if none is. -/
  directory : String
  /-- The start of a name. -/
  start : String
  deriving DecidableEq, Repr

namespace TypedPath

/-- The directory and the start of a name in a text: the parts before and after its last
slash. A text that has only its first slash names the root. -/
def ofText (typed : String) : TypedPath :=
  let cs := typed.toList
  if cs.contains '/' then
    let start := (cs.reverse.takeWhile (· != '/')).reverse
    let directory := cs.take (cs.length - start.length - 1)
    ⟨if directory.isEmpty then "/" else String.ofList directory, String.ofList start⟩
  else ⟨"", typed⟩

/-- The path of an entry of the directory, as it would be typed. -/
def entry (t : TypedPath) (name : String) : String :=
  if t.directory = "/" then "/" ++ name
  else if t.directory = "" then name
  else t.directory ++ "/" ++ name

/-- The entry is offered. Without `showHidden` an entry whose name starts with a dot is offered
only if a dot is typed. -/
def offers (t : TypedPath) (showHidden : Bool) (name : String) : Bool :=
  t.start.toList.isPrefixOf name.toList &&
    (showHidden || t.start.toList.head? = some '.' || name.toList.head? != some '.')

end TypedPath

namespace Host

/-- Where the records of listings come from. -/
def listingSource : String := "peercomp.completion.providers"

/-- The directory that is listed for what is typed. -/
def listedDirectory (h : Host) (t : TypedPath) : Except Fault String :=
  if t.directory = "" then .ok "." else h.environment.expandHome t.directory

/-- The record of a directory that is not there. -/
def noDirectory (typed : String) : Record :=
  { source := listingSource, level := .debug,
    message := "No directory to list for prefix " ++ Text.quoted typed }

/-- The fault says that there is no directory. -/
def isNoDirectory (f : FileFault) : Bool := f.kind = .missing || f.kind = .notDirectory

/-- The paths offered for what is typed. -/
def offerPaths (h : Host) (settings : PathSettings) : PathSource String := fun typed =>
  let t := TypedPath.ofText typed
  match h.listedDirectory t with
  | .error fault => pure (.error (.fault fault))
  | .ok directory =>
    match h.disk.list directory with
    | .ok (place, names) =>
      let offered := names.filter (t.offers settings.showHidden)
      pure (.ok (offered.map fun name =>
        if settings.markDirectories && h.disk.isDirectoryAt directory place name then
          t.entry name ++ "/"
        else t.entry name))
    | .error (.file f) =>
      if isNoDirectory f then ⟨[noDirectory typed], .ok []⟩ else pure (.error (.fault (.file f)))
    | .error fault => pure (.error (.fault fault))

end Host

end TabCompletion
