import TabCompletion.Files.Replacing
import TabCompletion.Grammar.Builtin
import TabCompletion.Grammar.Source
import TabCompletion.Json.Writer
import TabCompletion.Settings.Basic

/-!
# The user's grammars

The user's grammars are files in one directory. `Library.registry` is the registry in which
the built-in grammar comes first, then those of that directory by their names, then those
that the settings name; a later grammar takes the place of an earlier one for its command. A
source that is no file, or yields no grammar, is passed over with a warning. Such a warning is
made before the next source is read, which matters if the journal is kept in one of the sources:
`Library.registryIn` is the registry in a `World`, where every record may change what is read next.
`Library.save` keeps a grammar in the directory.
-/

namespace TabCompletion

/-- The host after the records that are made: records may be kept in a file. -/
abbrev World := List Record → Host

namespace Library

/-- The ends of the names of grammar files. -/
def suffixes : List String := [".json", ".yaml", ".yml"]

/-- The name is one of a grammar file. -/
def isGrammarName (p : Path) : Bool :=
  suffixes.contains (String.ofList (p.suffix.toList.map Char.toLower))

/-- The text comes before another in the order of code points, or is the same. -/
def nameOrder (a b : String) : Bool := !(b < a)

/-- The grammar files of the user, by their names. -/
def files (h : Host) : Except Fault (List Path) := do
  let directory ← h.environment.grammarsDirectory
  if !(← h.disk.isDirectory directory.text) then return []
  let (_, names) ← h.disk.list directory.text
  let found ← (names.mergeSort nameOrder).filterMapM fun name => do
    let p := directory.join name
    if (← h.disk.isFile p.text) && isGrammarName p then return some p else return none
  return found

/-- The record of a source that is no file. -/
def skippedRemote (source : String) : Record :=
  { source := Registry.source, level := .warning,
    message := "Skipping grammar " ++ source ++
      ": only local files are read during completion (use 'peercomp grammar add' to save a copy)" }

/-- The record of a source that yields no grammar. -/
def skippedFailure (source : String) (f : LoadFailure) : Record :=
  { source := Registry.source, level := .warning,
    message := "Skipping grammar " ++ source ++ ": " ++ f.message }

/-- How a source is loaded after records are made; the journal may be kept in the source. -/
abbrev Loader := List Record → String → Loading Grammar

/-- The registry with the grammar of one more source. -/
def addSource (load : String → Loading Grammar) (r : Registry) (source : String) :
    Logged (Except Escape Registry) :=
  if !Source.isLocal source then ⟨[skippedRemote source], .ok r⟩
  else match load source with
    | .error (.failure f) => ⟨[skippedFailure source f], .ok r⟩
    | .error (.fault fault) => pure (.error (.fault fault))
    | .ok g => do
      match ← r.register g with
      | .ok r => return .ok r
      | .error f => return .error (.failure f)

/-- The registry with the grammars of sources, one after another; `done` are the records made so
far. -/
def addSources (load : Loader) :
    Registry → List Record → List String → Logged (Except Escape Registry)
  | r, _, [] => pure (.ok r)
  | r, done, source :: rest => do
    let added := addSource (load done) r source
    match ← added with
    | .ok r => addSources load r (done ++ added.records) rest
    | .error e => return .error e

/-- The record of a finished registry. -/
def ready (r : Registry) : Record :=
  { source := Registry.source, level := .debug,
    message := "Grammar registry ready: " ++ String.intercalate ", " r.names }

/-- The registry that knows the built-in grammar. -/
def start : Registry := Registry.empty.insert Grammar.peerd

/-- The registry of all grammars, frozen. -/
def registryBy (load : Loader) (h : Host) (s : Settings) : Logged (Except Escape Registry) :=
  match files h with
  | .error fault => pure (.error (.fault fault))
  | .ok found => do
    match ← addSources load start [] (found.map Path.text ++ s.grammarFiles) with
    | .error e => return .error e
    | .ok r =>
      .note (ready r)
      return .ok r.freeze

/-- The registry on a host that no record changes and whose stack is deep enough. -/
def registry (h : Host) (s : Settings) : Logged (Except Escape Registry) :=
  registryBy (fun _ => Source.load h) h s

/-- The registry in a world. -/
def registryIn (w : World) (s : Settings) : Logged (Except Escape Registry) :=
  registryBy (fun done => Source.loadWithin (w done)) (w []) s

/-- The text of the file of a grammar. -/
def fileText (g : Grammar) : String := Json.writeIndented g.toDocument ++ "\n"

/-- The file of a grammar. -/
def fileOf (h : Host) (g : Grammar) : Except Fault Path :=
  h.environment.grammarsDirectory.map fun directory => directory.join (g.command ++ ".json")

/-- The disk after the grammar is saved, and its file or the fault that kept it from being
saved. -/
def save (h : Host) (g : Grammar) : Disk × Except Fault Path :=
  match fileOf h g with
  | .error fault => (h.disk, .error fault)
  | .ok path =>
    match h.disk.replace path (fileText g) with
    | (disk, none) => (disk, .ok path)
    | (disk, some fault) => (disk, .error fault)

end Library

end TabCompletion
