import TabCompletion.Candidates
import TabCompletion.Document.Literal
import TabCompletion.Grammar.Library
import TabCompletion.Host.Listing
import TabCompletion.Request.Reading

/-!
# The engine

`Engine.resolve` decides what may stand at the cursor: the name of a command, an option, or
the value of the option before the cursor. `Engine.explain` answers a request: it resolves
it and keeps the candidates that the current word begins. `Engine.explainIn` answers words and
a cursor on a machine, which may have no room for the request that they make. No failure and no
fault leaves either; an answer that cannot be found is empty.
-/

namespace TabCompletion

/-- What is expected at the cursor. -/
inductive State where
  | expectCommandName
  | expectOptionOrPositional
  | expectOptionValue
  deriving DecidableEq, Repr

/-- The name of a state. -/
def State.name : State → String
  | .expectCommandName => "expect_command_name"
  | .expectOptionOrPositional => "expect_option_or_positional"
  | .expectOptionValue => "expect_option_value"

/-- What is expected at the cursor, all candidates for it, and the grammar and the option that
were found on the way. -/
structure Resolution where
  state : State
  candidates : List String := []
  grammar : Option Grammar := none
  option : Option OptionSpec := none
  deriving DecidableEq

/-- The known grammars and the source of paths. -/
structure Engine where
  registry : Registry
  paths : PathSource String

namespace Engine

/-- The engine in a world: all grammars that the settings allow, and the paths of its disk. No
record changes which paths there are. -/
def inWorld (w : World) (s : Settings) : Logged (Except Escape Engine) := do
  match ← Library.registryIn w s with
  | .ok registry => return .ok { registry, paths := (w []).offerPaths s.path }
  | .error e => return .error e

/-- Where the records of resolutions come from. -/
def resolverSource : String := "peercomp.completion.resolver"

/-- Where the engine's records come from. -/
def source : String := "peercomp.completion.engine"

/-- The resolution in the value of option `o`. A provider that is unavailable offers nothing. -/
def resolveValue (e : Engine) (g : Grammar) (o : OptionSpec) (current : String) :
    Logged (Except Escape Resolution) := do
  let resolution (candidates : List String) : Resolution :=
    { state := .expectOptionValue, candidates, grammar := some g, option := some o }
  match ← Provider.candidates id e.paths o.domain current with
  | .ok candidates => return .ok (resolution candidates)
  | .error (.failure f) =>
    if f.kind = .provider then
      .note { source := resolverSource, level := .debug,
              message := "No candidates for " ++ o.long ++ ": " ++ f.message }
      return .ok (resolution [])
    else return .error (.failure f)
  | .error fault => return .error fault

/-- The resolution of a request. -/
def resolve (e : Engine) (r : Request) : Logged (Except Escape Resolution) := do
  if r.cursor = 0 then
    return .ok { state := .expectCommandName, candidates := e.registry.names }
  match e.registry.get r.command with
  | .error f =>
    .note { source := resolverSource, level := .debug, message := f.message }
    return .ok { state := .expectOptionOrPositional }
  | .ok g =>
    match g.getOption r.previous with
    | .error f =>
      .note { source := resolverSource, level := .debug,
              message := f.message ++ ", offering option names" }
      return .ok { state := .expectOptionOrPositional, candidates := g.optionForms,
                   grammar := some g }
    | .ok o =>
      if o.domain.takesValue then e.resolveValue g o r.current
      else return .ok { state := .expectOptionOrPositional, candidates := g.optionForms,
                        grammar := some g, option := some o }

/-- The answer to a request: its resolution, if there is one, and the candidates offered. -/
structure Answer where
  resolution : Option Resolution
  offered : List String
  deriving DecidableEq

/-- The record of a request that could not be answered. -/
def failed (words : List Document) (cursor : Int) : Record :=
  { source, level := .error, traced := true,
    message := "Completion failed for " ++ Document.literal (.list words) ++ " at " ++
      toString cursor }

/-- The record of an answer. -/
def answered (r : Request) (resolution : Resolution) (offered : List String) : Record :=
  { source, level := .debug,
    message := "state=" ++ resolution.state.name ++ " previous=" ++ Text.quoted r.previous ++
      " current=" ++ Text.quoted r.current ++ " -> " ++ toString offered.length ++
      " candidate(s)" }

/-- No answer to words, and the record of that. -/
def unanswered (words : List Document) (cursor : Int) : Logged Answer := do
  .note (failed words cursor)
  return ⟨none, []⟩

/-- The answer to the request of words that are texts. -/
def explain (e : Engine) (words : List String) (cursor : Int) : Logged Answer := do
  let r := Request.ofWords words cursor
  match ← e.resolve r with
  | .error _ => unanswered (words.map .text) cursor
  | .ok resolution =>
    let offered := Candidates.filter resolution.candidates r.current
    .note (answered r resolution offered)
    return ⟨some resolution, offered⟩

/-- The answer on a machine to the request of words that are texts. -/
def explainIn (e : Engine) (room : Room) (words : List String) (cursor : Int) : Logged Answer :=
  match Request.ofWordsIn room words cursor with
  | .error _ => unanswered (words.map .text) cursor
  | .ok _ => e.explain words cursor

/-- The answer on a machine to the request of any words; words that are no texts have none. -/
def explainValues (e : Engine) (room : Room) (words : List Document) (cursor : Int) :
    Logged Answer :=
  match readWords words with
  | .ok texts => e.explainIn room texts cursor
  | .error _ => unanswered words cursor

end Engine

end TabCompletion
