import TabCompletion.Validation.Scalar

/-!
# Settings

What a user may choose: how paths are offered, how tables are printed, which further
grammars are read, and where the journal is kept. `Settings.ofDocument` reads them from a
document; whatever it leaves out has its default. Their texts are texts of characters: which file
a name with surrogates stands for is left out.
-/

namespace TabCompletion

/-- How paths are offered. -/
structure PathSettings where
  /-- A directory is offered with a slash behind its name. -/
  markDirectories : Bool := false
  /-- Hidden entries are offered even if no dot is typed. -/
  showHidden : Bool := true
  deriving DecidableEq, Repr

/-- The user's choices. -/
structure Settings where
  path : PathSettings := {}
  /-- The name of the format of tables. -/
  format : String := "auto"
  /-- Further grammar documents. -/
  grammarFiles : List String := []
  /-- The file that the journal is appended to. -/
  logFile : Option String := none
  deriving DecidableEq, Repr

open Validation

/-- The settings of paths. -/
def PathSettings.read (d : Document) : Checked PathSettings := do
  let entries ← readRecord d
  let (markDirectories, showHidden) ←
    both (readField "mark_directories" readTruth (some false) entries)
      (readField "show_hidden" readTruth (some true) entries)
  return { markDirectories, showHidden }

/-- The settings of paths of a document that holds nothing else. -/
def PathSettings.ofDocument (d : Document) : Except Refusal PathSettings :=
  (PathSettings.read d).orRefuse "PathConfig"

/-- The name of the format of tables. -/
def readFormat (d : Document) : Checked String := do
  let entries ← readRecord d
  readField "format" readText (some "auto") entries

/-- Settings, or all issues of the document. -/
def Settings.read (d : Document) : Checked Settings := do
  let entries ← readRecord d
  let (((path, format), grammarFiles), logFile) ← both
    (both
      (both (readField "path" PathSettings.read (some {}) entries)
        (readField "output" readFormat (some "auto") entries))
      (readField "grammar_files" (readItems .notList readText) (some []) entries))
    (readField "log_file" readOptionalText (some none) entries)
  return { path, format, grammarFiles, logFile }

/-- The settings of a document. -/
def Settings.ofDocument (d : Document) : Except Refusal Settings :=
  (Settings.read d).orRefuse "GlobalConfig"

end TabCompletion
