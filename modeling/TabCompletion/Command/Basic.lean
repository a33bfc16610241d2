import TabCompletion.Candidates
import TabCompletion.Command.Arguments
import TabCompletion.Settings.Resolve

/-!
# Commands

What the program can be asked to do, and how it is asked. The first arguments are flags that
hold for every command; then comes the name of a command or of a group of commands, and the
rest is for the command. A command line may ask for help instead, or for the version.
-/

namespace TabCompletion

/-- What is asked: to do something, or for help, or for the version. -/
inductive Asked (α : Type) where
  | help
  | version
  | run (a : α)
  deriving DecidableEq, Repr

/-- The flags that hold for every command. -/
structure Flags where
  json : Bool := false
  plain : Bool := false
  noColor : Bool := false
  quiet : Bool := false
  verbose : Bool := false
  logFile : Option String := none
  deriving DecidableEq, Repr

/-- What a request for candidates says. -/
structure CompletionQuery where
  words : List String := []
  cursor : Option Int := none
  line : Option String := none
  point : Option Int := none
  style : Candidates.Style := .lines
  deriving DecidableEq, Repr

/-- The commands. -/
inductive Command where
  /-- Print the candidates for the word under the cursor. -/
  | complete (query : CompletionQuery)
  /-- Put the scripts for a shell where it looks for them. -/
  | install (shell : Option String)
  /-- Print the scripts for a shell. -/
  | showScript (shell : String)
  /-- List the commands with a grammar. -/
  | listGrammars
  /-- List the options of a command. -/
  | showGrammar (command : String)
  /-- Say whether a document is a grammar. -/
  | checkGrammar (source : String)
  /-- Keep a grammar. -/
  | addGrammar (source : String)
  deriving DecidableEq, Repr

/-- The option that asks for help. -/
def helpSwitch : Switch := { name := "--help" }

/-- The options before the name of a command. -/
def flagSwitches : List Switch :=
  [{ name := "--version" }, { name := "--json" }, { name := "--plain" }, { name := "--no-color" },
   { name := "--quiet", letter := some 'q' }, { name := "--verbose", letter := some 'v' },
   { name := "--log-file", takesValue := true }, helpSwitch]

/-- The first option that is answered whatever else is given. -/
def firstAnswer? (a : Arguments) : Option (Asked Empty) :=
  a.given.findSome? fun g =>
    if g.1 = "--help" then some .help
    else if g.1 = "--version" then some .version
    else none

/-- What is asked by arguments, if they ask for neither help nor the version. -/
def unlessAnswered {α : Type} (a : Arguments) (read : Except Misuse (Asked α)) :
    Except Misuse (Asked α) :=
  match firstAnswer? a with
  | some .help => .ok .help
  | some .version => .ok .version
  | some (.run e) => nomatch e
  | none => read

/-- The names of the commands and of their groups. -/
def commandNames : List String := ["complete", "completion", "grammar"]

/-- The commands of a group. -/
def groupNames (group : String) : List String :=
  if group = "completion" then ["install", "show"] else ["list", "show", "check", "add"]

/-- The options before one of `names`, that name, and what follows it. -/
def readNamed (switches : List Switch) (names : List String) (args : List String) :
    Except Misuse (Asked (Arguments × String × List String)) :=
  if args.isEmpty then .error .nothingAsked
  else do
    let a ← Arguments.read switches false args
    unlessAnswered a <|
      match a.operands with
      | [] => .error .missingCommand
      | name :: rest =>
        if names.contains name then .ok (.run (a, name, rest))
        else do
          let a ← Arguments.read switches false (name :: rest)
          unlessAnswered a (.error (.unknownCommand name))

namespace Flags

/-- The flags among arguments. -/
def ofArguments (a : Arguments) : Flags where
  json := a.has "--json"
  plain := a.has "--plain"
  noColor := a.has "--no-color"
  quiet := a.has "--quiet"
  verbose := a.has "--verbose"
  logFile := a.value? "--log-file"

/-- What the flags say about settings. -/
def choices (f : Flags) : Settings.Choices where
  format := if f.json then some "json" else if f.plain then some "plain" else none
  logFile := f.logFile

end Flags

/-- The flags, the name of a command or a group, and the arguments behind it. -/
def readFlags (args : List String) : Except Misuse (Asked (Flags × String × List String)) :=
  (readNamed flagSwitches commandNames args).map fun
    | .help => .help
    | .version => .version
    | .run (a, name, rest) => .run (Flags.ofArguments a, name, rest)

namespace Command

/-- The options of a request for candidates. -/
def completeSwitches : List Switch :=
  [{ name := "--cword", takesValue := true }, { name := "--line", takesValue := true },
   { name := "--point", takesValue := true }, { name := "--style", takesValue := true },
   helpSwitch]

/-- The style that is asked for. -/
def readStyle (a : Arguments) : Except Misuse Candidates.Style :=
  match a.value? "--style" with
  | none => .ok .lines
  | some name =>
    match Candidates.Style.ofName? name with
    | some style => .ok style
    | none => .error (.notAmong "--style" name)

/-- A request for candidates. -/
def readQuery (integerOf : String → Option Int) (a : Arguments) :
    Except Misuse CompletionQuery := do
  let cursor ← a.integer integerOf "--cword"
  let point ← a.integer integerOf "--point"
  let style ← readStyle a
  return { words := a.operands, cursor, line := a.value? "--line", point, style }

/-- The command of a name in a group. -/
def readMember (group name : String) (a : Arguments) : Except Misuse Command :=
  match group, name with
  | "completion", "install" => a.operand?.map .install
  | "completion", _ => a.operand?.map fun shell => .showScript (shell.getD "bash")
  | _, "list" =>
    match a.operands with
    | [] => .ok .listGrammars
    | extra :: _ => .error (.extraOperand extra)
  | _, "show" => (a.operand "COMMAND").map .showGrammar
  | _, "check" => (a.operand "SOURCE").map .checkGrammar
  | _, _ => (a.operand "SOURCE").map .addGrammar

/-- What is asked by the arguments of one command. -/
def readOwn (switches : List Switch) (read : Arguments → Except Misuse Command)
    (args : List String) : Except Misuse (Asked Command) := do
  let a ← Arguments.read switches true args
  unlessAnswered a ((read a).map .run)

/-- What is asked by the name of a command or a group and the arguments behind it. -/
def read (integerOf : String → Option Int) (name : String) (args : List String) :
    Except Misuse (Asked Command) :=
  if name = "complete" then
    readOwn completeSwitches (fun a => (readQuery integerOf a).map .complete) args
  else do
    match ← readNamed [helpSwitch] (groupNames name) args with
    | .help => return .help
    | .version => return .version
    | .run (_, member, rest) => readOwn [helpSwitch] (readMember name member) rest

end Command

end TabCompletion
