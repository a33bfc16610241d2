/-!
# Value domains

The domain of an option says what may follow it on the command line: nothing, one of the
listed values, or a path.
-/

namespace TabCompletion

/-- What may follow an option. -/
inductive Domain where
  | none
  | enum (values : List String)
  | path
  deriving DecidableEq, Repr, Inhabited

namespace Domain

/-- The kinds of domain. -/
inductive Kind where
  | none
  | enum
  | path
  deriving DecidableEq, Repr

/-- The name of a kind. -/
def Kind.name : Kind → String
  | .none => "none"
  | .enum => "enum"
  | .path => "path"

/-- All kinds. -/
def Kind.all : List Kind := [.none, .enum, .path]

/-- The kind of that name. -/
def Kind.ofName? (name : String) : Option Kind := Kind.all.find? fun k => k.name = name

/-- The kind of a domain. -/
def kind : Domain → Kind
  | none => .none
  | enum _ => .enum
  | path => .path

/-- The values that a domain lists. -/
def values : Domain → List String
  | enum values => values
  | _ => []

/-- The option consumes the word that follows it. -/
def takesValue (d : Domain) : Bool := d.kind != .none

end Domain

end TabCompletion
