import TabCompletion.Yaml.Cursor

/-!
# YAML tokens

A token is a mark of the language or a scalar. The ends of blocks, which a text shows only
by its indentation, are tokens of their own.
-/

namespace TabCompletion.Yaml

/-- A directive at the start of a document. -/
inductive Directive where
  | version (major minor : Nat)
  | tag (handle start : String)
  | other
  deriving DecidableEq, Repr

/-- A token. The text of a scalar is given by its code points. -/
inductive Token where
  | directive (d : Directive)
  | documentStart
  | documentEnd
  | streamEnd
  | blockSequenceStart
  | blockMappingStart
  | blockEnd
  | flowSequenceStart
  | flowSequenceEnd
  | flowMappingStart
  | flowMappingEnd
  | flowEntry
  | blockEntry
  | key
  | value
  | alias (name : String)
  | anchor (name : String)
  | tag (handle : Option String) (suffix : String)
  | scalar (codes : List Nat) (plain : Bool)
  deriving DecidableEq, Repr

/-- The code points of characters. -/
def codesOf (cs : List Char) : List Nat := cs.map Char.toNat

end TabCompletion.Yaml
