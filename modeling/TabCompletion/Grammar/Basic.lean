import TabCompletion.Failure
import TabCompletion.Grammar.Domain
import TabCompletion.Text.Blank

/-!
# Grammars

A grammar is the table of the options that a command knows. Every option has a long form,
may have a short form, and has a domain that says what follows it. The types hold the rules
of a grammar, so that a value of them is always a grammar that was accepted: the forms
have their shape and no two options of a command share one.
-/

namespace TabCompletion

/-- The text is the long form of an option: `--` and at least one character more, no blanks. -/
def isLongForm (s : String) : Bool :=
  ['-', '-'].isPrefixOf s.toList && 3 ≤ s.toList.length && !s.toList.any Text.isBlank

/-- The text is the short form of an option: `-` and a character that is neither `-`, a space
nor a tab. -/
def isShortForm (s : String) : Bool :=
  match s.toList with
  | ['-', c] => c != '-' && c != ' ' && c != '\t'
  | _ => false

/-- The text is the name of a command: one word. -/
def isCommandName (s : String) : Bool := !s.toList.isEmpty && !s.toList.any Text.isBlank

/-- An option of a command. -/
structure OptionSpec where
  long : String
  short : Option String
  domain : Domain
  long_form : isLongForm long = true
  short_form : ∀ s ∈ short, isShortForm s = true
  deriving DecidableEq

/-- All forms of an option, the long one first. -/
def OptionSpec.forms (o : OptionSpec) : List String := o.long :: o.short.toList

/-- A command and its options, in the order in which they are offered. -/
structure Grammar where
  command : String
  options : List OptionSpec
  command_name : isCommandName command = true
  long_nodup : (options.map OptionSpec.long).Nodup
  short_nodup : (options.filterMap OptionSpec.short).Nodup
  deriving DecidableEq

namespace Grammar

/-- The option of that form. -/
def findOption? (g : Grammar) (form : String) : Option OptionSpec :=
  g.options.find? fun o => o.forms.contains form

/-- The option of that form, or the failure to know it. -/
def getOption (g : Grammar) (form : String) : Except Failure OptionSpec :=
  match g.findOption? form with
  | some o => .ok o
  | none => .error (.ofUnmatchedToken form)

/-- All forms of all options: the short ones in their order, then the long ones. -/
def optionForms (g : Grammar) : List String :=
  g.options.filterMap OptionSpec.short ++ g.options.map OptionSpec.long

end Grammar

end TabCompletion
