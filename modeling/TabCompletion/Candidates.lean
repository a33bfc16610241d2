import TabCompletion.Json.Writer
import TabCompletion.Shell.Words

/-!
# Candidates

The strings offered for the word being typed. `filter` keeps those that the word begins,
each once, in the order in which they first come. `render` writes them for the shell: one
to a line, as a JSON object, or as an assignment that bash evaluates.
-/

namespace TabCompletion.Candidates

/-- The candidate begins with what is typed. -/
def extendsTyped (typed candidate : String) : Bool := typed.toList.isPrefixOf candidate.toList

/-- The candidates that are not in `seen` and begin with what is typed, each once. -/
def filterFrom (typed : String) (seen : List String) : List String → List String
  | [] => []
  | c :: rest =>
    if seen.contains c || !extendsTyped typed c then filterFrom typed seen rest
    else c :: filterFrom typed (c :: seen) rest

/-- The candidates that begin with what is typed, each once, in order. -/
def filter (candidates : List String) (typed : String) : List String :=
  filterFrom typed [] candidates

/-- How candidates are written. -/
inductive Style where
  | lines
  | json
  | bash
  deriving DecidableEq, Repr

/-- The name of a style. -/
def Style.name : Style → String
  | .lines => "lines"
  | .json => "json"
  | .bash => "bash"

/-- All styles. -/
def Style.all : List Style := [.lines, .json, .bash]

/-- The style of that name. -/
def Style.ofName? (name : String) : Option Style := Style.all.find? fun s => s.name = name

/-- The candidates as a JSON document. -/
def toDocument (candidates : List String) : Document :=
  .record [("candidates", .texts candidates)]

/-- The candidates as quoted words, one blank between two of them. -/
def quotedWords (candidates : List String) : List Char :=
  [' '].intercalate (candidates.map fun c => Shell.Words.quote c.toList)

/-- The candidates as text. -/
def render (style : Style) (candidates : List String) : String :=
  match style with
  | .lines => String.intercalate "\n" candidates
  | .json => Json.write (toDocument candidates)
  | .bash =>
    if candidates.isEmpty then "COMPREPLY=()"
    else String.ofList ("COMPREPLY=( ".toList ++ quotedWords candidates ++ " )".toList)

end TabCompletion.Candidates
