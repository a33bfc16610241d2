import TabCompletion.Grammar.Coded
import TabCompletion.Text.Quoted
import TabCompletion.Validation.Scalar

/-!
# Grammars as documents

`Grammar.Coded.ofDocument` reads a grammar from a document: a record of a command and a list of
options, each a record of a long form, an optional short form and a domain. It reports all
issues of the document. `Grammar.ofDocument` gives that grammar in characters.
`Grammar.toDocument` writes a grammar, leaving out what the reader supplies.
-/

namespace TabCompletion

open Validation

namespace Domain

/-- The domain of that kind with those values; only an enumeration has any. -/
def Coded.ofParts (kind : Kind) (values : List (List Nat)) : Checked Domain.Coded :=
  if h : kind ≠ .enum → values = [] then .ok ⟨kind, values, h⟩
  else refuse (.broken (.strayValues kind.name))

/-- A kind written by its name. -/
def readKind (d : Document) : Checked Kind :=
  match d with
  | .brokenText _ => refuse .notCharacters
  | d =>
    match readText d with
    | .ok name =>
      match Kind.ofName? name with
      | some kind => .ok kind
      | Option.none => refuse .notAllowed
    | .error _ => refuse .notAllowed

/-- A domain written in full: a record of a kind and values, either of which may be left
out. -/
def Coded.readFull (d : Document) : Checked Domain.Coded := do
  let entries ← readRecord d
  let (kind, values) ← both (readField "kind" readKind (some .none) entries)
    (readField "values" (readItems .notSequence readCodes) (some []) entries)
  Coded.ofParts kind values

/-- The domain that takes no value. -/
def Coded.none : Domain.Coded := ⟨.none, [], fun _ => rfl⟩

/-- The enumeration of those values. -/
def Coded.enum (values : List (List Nat)) : Domain.Coded := ⟨.enum, values, fun h => absurd rfl h⟩

/-- A domain as an option gives it: in full, by the name of its kind, or by its values
alone. -/
def Coded.read : Document → Checked Domain.Coded
  | .null => .ok .none
  | d@(.text _) | d@(.brokenText _) => do
    let kind ← within "kind" (readKind d)
    Coded.ofParts kind []
  | d@(.list _) => (within "values" (readItems .notSequence readCodes d)).map Coded.enum
  | d => Coded.readFull d

end Domain

/-- The long form of an option. -/
def readLong (d : Document) : Checked { s : List Nat // isCodedLong s = true } := do
  let s ← readCodes d
  if h : isCodedLong s = true then .ok ⟨s, h⟩
  else refuse (.broken (.longForm (Text.quotedCodes s)))

/-- The short form of an option, which may be absent. -/
def readShort (d : Document) :
    Checked { s : Option (List Nat) // ∀ t ∈ s, isCodedShort t = true } := do
  match ← readOptionalCodes d with
  | none => .ok ⟨none, by simp⟩
  | some s =>
    if h : isCodedShort s = true then .ok ⟨some s, by simpa using h⟩
    else refuse (.broken (.shortForm (Text.quotedCodes s)))

/-- An option. -/
def OptionSpec.Coded.read (d : Document) : Checked OptionSpec.Coded := do
  let entries ← readRecord d
  let ((long, short), domain) ← both
    (both (readField "long" readLong none entries)
      (readField "short" readShort (some ⟨none, by simp⟩) entries))
    (readField "domain" Domain.Coded.read (some .none) entries)
  return ⟨long.1, short.1, domain, long.2, short.2⟩

/-- The name of a command. -/
def readCommand (d : Document) : Checked { s : List Nat // isCodedCommand s = true } := do
  let s ← readCodes d
  if h : isCodedCommand s = true then .ok ⟨s, h⟩
  else refuse (.broken (.commandName (Text.quotedCodes s)))

/-- A grammar, or all issues of the document. -/
def Grammar.Coded.read (d : Document) : Checked Grammar.Coded := do
  let entries ← readRecord d
  let (command, options) ← both (readField "command" readCommand none entries)
    (readField "options" (readItems .notSequence OptionSpec.Coded.read) (some []) entries)
  Grammar.Coded.ofParts command.1 command.2 options

/-- The grammar that a document says. -/
def Grammar.Coded.ofDocument (d : Document) : Except Refusal Grammar.Coded :=
  (Grammar.Coded.read d).orRefuse "CommandGrammar"

/-- The grammar that a document says, in characters. -/
def Grammar.ofDocument (d : Document) : Except Refusal Grammar := do
  let g ← Grammar.Coded.ofDocument d
  g.inCharacters.orRefuse "CommandGrammar"

/-- A grammar that a document says in characters is had as it is. -/
theorem Grammar.ofDocument_of_coded {d : Document} {g : Grammar}
    (h : Grammar.Coded.ofDocument d = .ok g.coded) : Grammar.ofDocument d = .ok g := by
  rw [Grammar.ofDocument, h]
  show g.coded.inCharacters.orRefuse "CommandGrammar" = .ok g
  rw [Grammar.Coded.inCharacters_coded]
  rfl

theorem Grammar.ofDocument_of_refused {d : Document} {refusal : Refusal}
    (h : Grammar.Coded.ofDocument d = .error refusal) :
    Grammar.ofDocument d = .error refusal := by
  rw [Grammar.ofDocument, h]
  rfl

/-- The option of a document that holds nothing else. -/
def OptionSpec.Coded.ofDocument (d : Document) : Except Refusal OptionSpec.Coded :=
  (OptionSpec.Coded.read d).orRefuse "OptionSpec"

/-- The domain of a document that holds nothing else. -/
def Domain.Coded.ofDocument (d : Document) : Except Refusal Domain.Coded :=
  (Domain.Coded.readFull d).orRefuse "ValueDomain"

/-- A domain in full; nothing is left of the domain that takes no value. -/
def Domain.toDocument : Domain → Document
  | .none => .record []
  | .path => .record [("kind", .text Kind.path.name)]
  | .enum values =>
    .record (("kind", .text Kind.enum.name) ::
      if values.isEmpty then [] else [("values", .texts values)])

/-- An option, without a short form and a domain that the reader supplies. -/
def OptionSpec.toDocument (o : OptionSpec) : Document :=
  .record (("long", .text o.long) ::
    ((o.short.map fun s => ("short", Document.text s)).toList ++
      if o.domain = .none then [] else [("domain", o.domain.toDocument)]))

/-- A grammar, without options if there are none. -/
def Grammar.toDocument (g : Grammar) : Document :=
  .record (("command", .text g.command) ::
    if g.options.isEmpty then [] else [("options", .list (g.options.map OptionSpec.toDocument))])

end TabCompletion
