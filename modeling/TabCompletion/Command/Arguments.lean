import TabCompletion.Text.Quoted
import TabCompletion.Validation.Scalar

/-!
# Arguments

The arguments of a command are options and operands. `Arguments.read` tells them apart: an
option starts with a dash and is followed by its value, if it takes one, or has it behind an
equals sign; options of one letter may stand behind one dash; everything behind `--` is an
operand. Arguments that make no sense are a `Misuse`. Arguments are texts of characters, and what
an integer is among them is left to the library that reads them (`Host.integerOf`).
-/

namespace TabCompletion

/-- Why arguments make no sense. -/
inductive Misuse where
  | nothingAsked
  | unknownOption (name : String)
  | missingValue (name : String)
  | unwantedValue (name : String)
  | missingCommand
  | unknownCommand (name : String)
  | missingOperand (name : String)
  | extraOperand (operand : String)
  | notInteger (name value : String)
  | notAmong (name value : String)
  deriving DecidableEq, Repr

/-- The misuse in words. -/
def Misuse.message : Misuse → String
  | nothingAsked => "No command is given."
  | unknownOption name => "There is no option " ++ name ++ "."
  | missingValue name => "The option " ++ name ++ " needs a value."
  | unwantedValue name => "The option " ++ name ++ " takes no value."
  | missingCommand => "A command is missing."
  | unknownCommand name => "There is no command " ++ Text.quoted name ++ "."
  | missingOperand name => "The argument " ++ name ++ " is missing."
  | extraOperand operand => "The argument " ++ Text.quoted operand ++ " is not expected."
  | notInteger name value => name ++ ": " ++ Text.quoted value ++ " is not an integer."
  | notAmong name value => name ++ ": " ++ Text.quoted value ++ " is none of its values."

/-- An option that a command takes: its name, a letter for it if it has one, and whether a
value follows. -/
structure Switch where
  name : String
  letter : Option Char := none
  takesValue : Bool := false
  deriving DecidableEq, Repr

/-- Options with their values, in order, and operands. An option without a value has the empty
text. -/
structure Arguments where
  given : List (String × String) := []
  operands : List String := []
  deriving DecidableEq, Repr

namespace Arguments

/-- The option is given. -/
def has (a : Arguments) (name : String) : Bool := a.given.any fun g => g.1 = name

/-- The value of the option, the last one if it is given more than once. -/
def value? (a : Arguments) (name : String) : Option String := a.given.reverse.lookup name

/-- The arguments behind one more option. -/
def addGiven (given : List (String × String)) (a : Arguments) : Arguments :=
  { a with given := given ++ a.given }

/-- The arguments behind one more operand. -/
def addOperand (operand : String) (a : Arguments) : Arguments :=
  { a with operands := operand :: a.operands }

/-- What one argument says: options with their values, or an option whose value follows. -/
inductive Reading where
  | done (given : List (String × String))
  | awaits (name : String)
  deriving DecidableEq, Repr

/-- The options of the letters behind one dash. -/
def readLetters (switches : List Switch) : List Char → Except Misuse (List (String × String))
  | [] => .ok []
  | c :: cs =>
    match switches.find? fun s => s.letter = some c with
    | some s => (readLetters switches cs).map fun rest => (s.name, "") :: rest
    | none => .error (.unknownOption (String.ofList ['-', c]))

/-- What an argument that starts with a dash says. -/
def readOption (switches : List Switch) (arg : String) : Except Misuse Reading :=
  let name := String.ofList (arg.toList.takeWhile (· != '='))
  let value := arg.toList.drop (name.length + 1)
  let hasValue := arg.toList.contains '='
  match switches.find? fun s => s.name = name with
  | some s =>
    if s.takesValue then
      .ok (if hasValue then .done [(name, String.ofList value)] else .awaits name)
    else if hasValue then .error (.unwantedValue name)
    else .ok (.done [(name, "")])
  | none =>
    if "--".toList.isPrefixOf arg.toList then .error (.unknownOption name)
    else (readLetters switches (arg.toList.drop 1)).map .done

/-- The argument is an option. -/
def isOption (arg : String) : Bool := arg.toList.head? = some '-' && arg != "-"

/-- Options and operands. Unless they are `mixed`, no option follows an operand. -/
def read (switches : List Switch) (mixed : Bool) : List String → Except Misuse Arguments
  | [] => .ok {}
  | arg :: rest =>
    if arg = "--" then .ok { operands := rest }
    else if isOption arg then
      match readOption switches arg with
      | .error misuse => .error misuse
      | .ok (.done given) => (read switches mixed rest).map (addGiven given)
      | .ok (.awaits name) =>
        match rest with
        | [] => .error (.missingValue name)
        | value :: rest => (read switches mixed rest).map (addGiven [(name, value)])
    else if mixed then (read switches mixed rest).map (addOperand arg)
    else .ok { operands := arg :: rest }

/-- The value of an option that takes an integer. Which texts are one is for the library to say that
the command line is read with. -/
def integer (integerOf : String → Option Int) (a : Arguments) (name : String) :
    Except Misuse (Option Int) :=
  match a.value? name with
  | none => .ok none
  | some value =>
    match integerOf value with
    | some n => .ok (some n)
    | none => .error (.notInteger name value)

/-- The one operand of a command that takes one or none. -/
def operand? (a : Arguments) : Except Misuse (Option String) :=
  match a.operands with
  | [] => .ok none
  | [operand] => .ok (some operand)
  | _ :: extra :: _ => .error (.extraOperand extra)

/-- The one operand of a command that needs one. -/
def operand (a : Arguments) (name : String) : Except Misuse String :=
  match a.operand? with
  | .error misuse => .error misuse
  | .ok none => .error (.missingOperand name)
  | .ok (some operand) => .ok operand

end Arguments

end TabCompletion
