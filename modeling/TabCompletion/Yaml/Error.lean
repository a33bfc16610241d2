import TabCompletion.Failure

/-!
# What is wrong with a YAML text

Reading a YAML text stops at the first problem. Most problems break a rule of the language;
a value that has the form of a number, a truth value or a day and makes none is a fault.
-/

namespace TabCompletion.Yaml

/-- The rules of the language that a text may break. -/
inductive Problem where
  | unprintable
  | strayCharacter
  | lostKey
  | misplacedEntry
  | misplacedKey
  | misplacedValue
  | directive
  | anchorName
  | tagForm
  | blockHeader
  | openQuote
  | escape
  | documentMark
  | missingNode
  | unclosedBlock
  | unclosedFlow
  | unknownHandle
  | unknownAnchor
  | repeatedAnchor
  | secondDocument
  | unknownTag
  | wrongKind
  | unusableKey
  | badMerge
  | badBinary
  | tooDeep
  deriving DecidableEq, Repr

/-- The problem in words. -/
def Problem.message : Problem → String
  | .unprintable => "special characters are not allowed"
  | .strayCharacter => "found a character that cannot start any token"
  | .lostKey => "could not find expected ':'"
  | .misplacedEntry => "sequence entries are not allowed here"
  | .misplacedKey => "mapping keys are not allowed here"
  | .misplacedValue => "mapping values are not allowed here"
  | .directive => "while scanning a directive"
  | .anchorName => "while scanning an anchor or an alias"
  | .tagForm => "while scanning a tag"
  | .blockHeader => "while scanning a block scalar"
  | .openQuote => "found unexpected end of stream in a quoted scalar"
  | .escape => "found an unknown escape in a quoted scalar"
  | .documentMark => "found unexpected document separator"
  | .missingNode => "expected the node content"
  | .unclosedBlock => "expected the end of a block"
  | .unclosedFlow => "expected ',' or a closing bracket"
  | .unknownHandle => "found undefined tag handle"
  | .unknownAnchor => "found undefined alias"
  | .repeatedAnchor => "found duplicate anchor"
  | .secondDocument => "expected a single document in the stream"
  | .unknownTag => "could not determine a constructor for the tag"
  | .wrongKind => "expected a node of another kind"
  | .unusableKey => "found unhashable key"
  | .badMerge => "expected a mapping or list of mappings for merging"
  | .badBinary => "failed to decode base64 data"
  | .tooDeep => "nodes are nested too deeply"

/-- Why reading stops. -/
inductive Stop where
  | malformed (problem : Problem)
  | fault (fault : Fault)
  deriving DecidableEq, Repr

/-- A value, or why reading stops. -/
abbrev Reading (α : Type) := Except Stop α

/-- Reading stops at a broken rule. -/
def refuse {α : Type} (problem : Problem) : Reading α := .error (.malformed problem)

end TabCompletion.Yaml
