import TabCompletion.Files.Path
import TabCompletion.Failure

/-!
# Shell glue

The scripts that hook a command up in a shell: each defines a function that asks this
program for candidates, and registers the function for the command. `Shell.installPath` is
the file in which the shell looks for the script; a `Hooks` collects the commands of one
combined script.
-/

namespace TabCompletion

/-- The shells that can be hooked up. -/
inductive Shell where
  | bash
  | zsh
  | fish
  deriving DecidableEq, Repr

namespace Shell

/-- The name of a shell. -/
def name : Shell → String
  | bash => "bash"
  | zsh => "zsh"
  | fish => "fish"

/-- The name of a shell at the start of a sentence. -/
def title : Shell → String
  | bash => "Bash"
  | zsh => "Zsh"
  | fish => "Fish"

/-- All shells. -/
def all : List Shell := [bash, zsh, fish]

/-- The shell of that name. -/
def ofName? (name : String) : Option Shell := all.find? fun s => s.name = name

/-- The failure to know a shell. -/
def unsupported (found : String) : Failure :=
  { kind := .usage,
    message := "Unsupported shell: " ++ found ++ ". Supported: " ++
      String.intercalate ", " (all.map name) }

/-- The shell that a user names, in letters of any case, by its name or by the path of its
program. -/
def ofUser (found : String) : Except Failure Shell :=
  let key := String.ofList ((Path.ofText found).name.toList.map Char.toLower)
  match ofName? key with
  | some shell => .ok shell
  | none => .error (unsupported found)

/-- The character may stand in the name of a shell function. -/
def isFunctionChar (c : Char) : Bool := c.isAlphanum || c = '_'

/-- The name of the function that completes a command. -/
def functionName (command : String) : String :=
  "_" ++ String.ofList (command.toList.map fun c => if isFunctionChar c then c else '_') ++
    "_peercomp"

/-- The lines of the script for bash. -/
def bashLines (function command program : String) : List String :=
  [function ++ "() \x7b",
   "    mapfile -t COMPREPLY < <(" ++ program ++
     " complete --cword \"$COMP_CWORD\" -- \"$\x7bCOMP_WORDS[@]\x7d\" 2>/dev/null)",
   "    return 0",
   "\x7d",
   "",
   "complete -F " ++ function ++ " -o bashdefault -o default " ++ command]

/-- The lines of the script for zsh. -/
def zshLines (function command program : String) : List String :=
  ["#compdef " ++ command,
   "",
   function ++ "() \x7b",
   "    local -a candidates",
   "    candidates=($\x7b(f)\"$(" ++ program ++
     " complete --cword $((CURRENT - 1)) -- \"$\x7bwords[@]\x7d\" 2>/dev/null)\"\x7d)",
   "    if (( $\x7b#candidates\x7d )); then",
   "        compadd -a candidates",
   "    else",
   "        _default",
   "    fi",
   "\x7d",
   "",
   "compdef " ++ function ++ " " ++ command]

/-- The lines of the script for fish. -/
def fishLines (function command program : String) : List String :=
  ["function " ++ function,
   "    set -l current (commandline -ct)",
   "    set -l words (commandline -opc) \"$current\"",
   "    " ++ program ++ " complete --cword (math (count $words) - 1) -- $words 2>/dev/null",
   "end",
   "",
   "complete -c " ++ command ++ " -f -a '(" ++ function ++ ")'"]

/-- The lines of the script that hooks a command up. -/
def scriptLines (shell : Shell) (command program : String) : List String :=
  let function := functionName command
  match shell with
  | bash => bashLines function command program
  | zsh => zshLines function command program
  | fish => fishLines function command program

/-- How the shell calls this program unless told otherwise. -/
def defaultProgram : String := "peercomp"

/-- The script that hooks a command up. -/
def script (shell : Shell) (command : String) (program : String := defaultProgram) : String :=
  String.join ((shell.scriptLines command program).map (· ++ "\n"))

/-- The file in a home directory in which a shell looks for the script of a command. -/
def installPath (shell : Shell) (command : String) (home : Path) : Path :=
  match shell with
  | bash => (home.join ".bash_completion.d").join command
  | zsh => (home.join ".zfunc").join ("_" ++ command)
  | fish => ((home.join ".config").join "fish" |>.join "completions").join (command ++ ".fish")

/-- What a user has to do before the scripts of a shell work; `path` is one of them. -/
def activationHint (shell : Shell) (path : String) : String :=
  match shell with
  | bash => "Restart your shell or run: source " ++ path
  | zsh => "Add to .zshrc: fpath+=~/.zfunc && autoload -Uz compinit && compinit"
  | fish => "Restart your shell to activate completions."

end Shell

/-- The commands to hook up in a shell, each once. -/
structure Hooks where
  shell : Shell
  program : String := Shell.defaultProgram
  commands : List String := []
  deriving DecidableEq, Repr

namespace Hooks

/-- One more command. -/
def register (h : Hooks) (command : String) : Hooks :=
  if h.commands.contains command then h else { h with commands := h.commands ++ [command] }

/-- All those commands. -/
def registerAll (h : Hooks) (commands : List String) : Hooks := commands.foldl register h

/-- The script of one command, registered or not. -/
def scriptFor (h : Hooks) (command : String) : String := h.shell.script command h.program

/-- The script of all registered commands. -/
def script (h : Hooks) : String := String.intercalate "\n" (h.commands.map h.scriptFor)

end Hooks

end TabCompletion
