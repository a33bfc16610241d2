/-!
# The journal

What the program notes about its own work. An action that notes something returns its
records together with its value (`Logged`); where the records go is decided elsewhere.
-/

namespace TabCompletion

/-- How grave a record is. -/
inductive Level where
  | debug
  | info
  | warning
  | error
  | critical
  deriving DecidableEq, Repr

/-- The name of a level. -/
def Level.name : Level → String
  | .debug => "DEBUG"
  | .info => "INFO"
  | .warning => "WARNING"
  | .error => "ERROR"
  | .critical => "CRITICAL"

/-- All levels, the lightest first. -/
def Level.all : List Level := [.debug, .info, .warning, .error, .critical]

/-- The level of that name. -/
def Level.ofName? (name : String) : Option Level := Level.all.find? fun l => l.name = name

/-- The rank of a level. -/
def Level.rank : Level → Nat
  | .debug => 10
  | .info => 20
  | .warning => 30
  | .error => 40
  | .critical => 50

/-- A note: who made it, how grave it is, what it says, and whether a fault lies behind it. -/
structure Record where
  source : String
  level : Level
  message : String
  traced : Bool := false
  deriving DecidableEq, Repr

/-- A value and the records made on the way to it. -/
structure Logged (α : Type) where
  records : List Record
  value : α

namespace Logged

/-- A value without records. -/
def ret {α : Type} (a : α) : Logged α := ⟨[], a⟩

/-- One action after another; the records of the first come first. -/
def andThen {α β : Type} (x : Logged α) (f : α → Logged β) : Logged β :=
  ⟨x.records ++ (f x.value).records, (f x.value).value⟩

instance : Monad Logged where
  pure := ret
  bind := andThen

theorem records_pure {α : Type} (a : α) : (pure a : Logged α).records = [] := rfl

theorem value_pure {α : Type} (a : α) : (pure a : Logged α).value = a := rfl

theorem records_bind {α β : Type} (x : Logged α) (f : α → Logged β) :
    (x >>= f).records = x.records ++ (f x.value).records := rfl

theorem value_bind {α β : Type} (x : Logged α) (f : α → Logged β) :
    (x >>= f).value = (f x.value).value := rfl

/-- One record. -/
def note (r : Record) : Logged Unit := ⟨[r], ()⟩

end Logged

end TabCompletion
