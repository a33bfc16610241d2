import TabCompletion.Host.Basic
import TabCompletion.Report.Drawing

/-!
# Reports

What the program tells its user: data on one stream, remarks on another. A `Reporter` knows
how tables are printed, whether remarks may have colour, and which of them are wanted. With
colour a remark is written as markup, and what is seen of the markup is printed; that its lines are
broken at the width of the terminal is left out.
-/

namespace TabCompletion

namespace Report

/-- How tables are printed; `auto` draws them on a terminal with colour. -/
inductive Format where
  | auto
  | json
  | plain
  | drawn
  deriving DecidableEq, Repr

/-- The name of a format. -/
def Format.name : Format → String
  | .auto => "auto"
  | .json => "json"
  | .plain => "plain"
  | .drawn => "rich"

/-- All formats. -/
def Format.all : List Format := [.auto, .json, .plain, .drawn]

/-- The format of that name. -/
def Format.ofName? (name : String) : Option Format := Format.all.find? fun f => f.name = name

/-- The kinds of remark. -/
inductive Kind where
  | success
  | suggestion
  | warning
  | error
  | debug
  deriving DecidableEq, Repr

/-- A remark without colour. -/
def Kind.plain (kind : Kind) (message : String) : String :=
  match kind with
  | .success => message
  | .suggestion => "→ " ++ message
  | .warning => "Warning: " ++ message
  | .error => "Error: " ++ message
  | .debug => "[debug] " ++ message

/-- A remark as markup. -/
def Kind.markup (kind : Kind) (message : String) : String :=
  match kind with
  | .success => "[green]" ++ message ++ "[/green]"
  | .suggestion => "[dim]→ " ++ message ++ "[/dim]"
  | .warning => "[yellow]Warning:[/yellow] " ++ message
  | .error => "[bold red]Error:[/bold red] " ++ message
  | .debug => "[dim]\\[debug] " ++ message ++ "[/dim]"

/-- What is seen of a text with markup, its tabs as blanks. -/
def seen (renderer : Markup.Renderer) (markup : String) : Except Fault String :=
  (renderer.visible markup.toList).map fun cs =>
    String.ofList (['\n'].intercalate ((Text.splitAt '\n' cs).map (Text.expandTabs 0)))

end Report

/-- How the program reports. -/
structure Reporter where
  /-- How tables are printed; not `auto`. -/
  format : Report.Format
  /-- Remarks have no colour. -/
  colorless : Bool
  /-- Successes and suggestions are not wanted. -/
  quiet : Bool := false
  /-- Remarks on the inner work are wanted too. -/
  verbose : Bool := false
  /-- The looks of drawn tables. -/
  ink : Ink := {}
  /-- How markup is rendered. -/
  renderer : Markup.Renderer := {}

namespace Reporter

open Report

/-- The environment asks for no colour. -/
def refusesColor (env : Environment) : Bool :=
  (env.get? "NO_COLOR").isSome || env.get? "TERM" = some "dumb"

/-- The terminal knows no looks. -/
def isBareTerminal (env : Environment) : Bool :=
  ["dumb", "unknown"].contains
    (String.ofList (((env.get? "TERM").getD "").toList.map Char.toLower))

/-- The looks of drawn tables. -/
def inkOf (env : Environment) (colorless : Bool) : Ink :=
  if isBareTerminal env then {}
  else { title := some "3", header := some (if colorless then "1" else "1;36") }

/-- The reporter on a host. -/
def ofHost (h : Host) (format : Format) (colorless quiet verbose : Bool) : Reporter :=
  let colorless := colorless || refusesColor h.environment
  let format := match format with
    | .auto => if h.terminal && !colorless then .drawn else .plain
    | format => format
  { format, colorless, quiet, verbose, ink := inkOf h.environment colorless,
    renderer := h.renderer }

/-- The reporter that is used unless another one is set up. -/
def standard (h : Host) : Reporter := ofHost h .auto false false false

/-- Remarks of that kind are wanted. -/
def wants (r : Reporter) : Kind → Bool
  | .success | .suggestion => !r.quiet
  | .warning | .error => true
  | .debug => r.verbose

/-- What a remark prints. -/
def remark (r : Reporter) (kind : Kind) (message : String) : Except Fault String :=
  if !r.wants kind then .ok ""
  else if r.colorless then .ok (kind.plain message ++ "\n")
  else (seen r.renderer (kind.markup message)).map (· ++ "\n")

/-- What data print. -/
def data (text : String) : String := text ++ "\n"

/-- What a table prints, and the fault that stopped it, if any. -/
def table (r : Reporter) (t : Table) : String × Option Fault :=
  match r.format with
  | .json => (data t.records, none)
  | .drawn =>
    match Drawing.draw r.renderer r.ink t with
    | .ok text => (text, none)
    | .error fault => ("", some fault)
  | _ => t.plain

end Reporter

end TabCompletion
