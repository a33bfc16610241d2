/-!
# What is wrong with a document

A document that is well formed may still not say what it should. Each `Issue` names a part
of the document by the keys and indices that lead to it, and a cause: the part is missing,
is of the wrong kind, or breaks a rule. All parts are checked, so that one reading reports
every issue, in the order of the parts.
-/

namespace TabCompletion.Validation

/-- The rules that values of the right kind may break. A refused text is given by its literal. -/
inductive Rule where
  /-- A long option is `--` and a name without blanks. -/
  | longForm (shown : String)
  /-- A short option is `-` and one character. -/
  | shortForm (shown : String)
  /-- A command name is one word. -/
  | commandName (shown : String)
  /-- Only an enumeration declares values. -/
  | strayValues (kind : String)
  /-- No two options of a command share a long form. -/
  | repeatedLong (long command : String)
  /-- No two options of a command share a short form. -/
  | repeatedShort (short command : String)
  /-- The cursor stands on a word. -/
  | cursorRange (cursor : Int) (count : Nat)
  /-- The word under the cursor is marked. -/
  | cursorMark
  deriving DecidableEq, Repr

/-- The rule that is broken, in words. -/
def Rule.message : Rule → String
  | .longForm shown => "long option must look like '--name', got " ++ shown
  | .shortForm shown => "short option must look like '-x', got " ++ shown
  | .commandName shown => "command name must be a single non-empty word, got " ++ shown
  | .strayValues kind => "'" ++ kind ++ "' domain cannot declare values"
  | .repeatedLong long command => "duplicate long option " ++ long ++ " in '" ++ command ++ "'"
  | .repeatedShort short command => "duplicate short option " ++ short ++ " in '" ++ command ++ "'"
  | .cursorRange cursor count =>
    "cursor index " ++ toString cursor ++ " outside " ++ toString count ++ " tokens"
  | .cursorMark => "token under the cursor must be flagged is_current"

/-- Why a part of a document is refused. -/
inductive Cause where
  | missing
  | notText
  | notCharacters
  | notRecord
  | notSequence
  | notList
  | notAllowed
  | notTruth
  | unreadableTruth
  | notInteger
  | unreadableInteger
  | longInteger
  | fractionalInteger
  | infiniteInteger
  | broken (rule : Rule)
  deriving DecidableEq, Repr

/-- The code of a cause. -/
def Cause.code : Cause → String
  | .missing => "missing"
  | .notText => "string_type"
  | .notCharacters => "string_unicode"
  | .notRecord => "model_type"
  | .notSequence => "tuple_type"
  | .notList => "list_type"
  | .notAllowed => "enum"
  | .notTruth => "bool_type"
  | .unreadableTruth => "bool_parsing"
  | .notInteger => "int_type"
  | .unreadableInteger => "int_parsing"
  | .longInteger => "int_parsing_size"
  | .fractionalInteger => "int_from_float"
  | .infiniteInteger => "finite_number"
  | .broken _ => "value_error"

/-- The words that go with a cause, for a broken rule. -/
def Cause.explanation : Cause → Option String
  | .broken rule => some ("Value error, " ++ rule.message)
  | _ => none

/-- A part of a document and why it is refused. -/
structure Issue where
  path : List String
  cause : Cause
  deriving DecidableEq, Repr

/-- The issue as one of the part `key` of a larger document. -/
def Issue.under (key : String) (i : Issue) : Issue := { i with path := key :: i.path }

/-- A refused document: what it should have been, and its issues. -/
structure Refusal where
  model : String
  issues : List Issue
  deriving DecidableEq, Repr

/-- How many issues a refused document has. -/
def Refusal.message (r : Refusal) : String :=
  toString r.issues.length ++
    (if r.issues.length = 1 then " validation error for " else " validation errors for ") ++ r.model

/-- A value, or all issues that keep it from being one. -/
abbrev Checked (α : Type) := Except (List Issue) α

/-- A value, or the refusal of the whole document. -/
def Checked.orRefuse {α : Type} (model : String) : Checked α → Except Refusal α
  | .ok a => .ok a
  | .error issues => .error ⟨model, issues⟩

/-- The whole document is refused for one cause. -/
def refuse {α : Type} (cause : Cause) : Checked α := .error [⟨[], cause⟩]

/-- The issues of a part, named from the whole. -/
def within {α : Type} (key : String) : Checked α → Checked α
  | .ok a => .ok a
  | .error issues => .error (issues.map (Issue.under key))

/-- Two parts, with the issues of both. -/
def both {α β : Type} : Checked α → Checked β → Checked (α × β)
  | .ok a, .ok b => .ok (a, b)
  | .ok _, .error js => .error js
  | .error is, .ok _ => .error is
  | .error is, .error js => .error (is ++ js)

end TabCompletion.Validation
