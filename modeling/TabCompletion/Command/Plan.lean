import TabCompletion.Command.Basic
import TabCompletion.Engine
import TabCompletion.Report.Basic
import TabCompletion.Shell.Glue

/-!
# Plans

What a command does in a world is a `Plan`: the steps that others can see, in order, and how
the command ends after them. A plan is made from the host as it is before the first step, and from
what the records of the plan make of it; `Step.replace` is the only other step that changes a file.
-/

namespace TabCompletion

/-- A step that others can see. -/
inductive Step where
  /-- Print data. -/
  | print (text : String)
  /-- Print a table. -/
  | table (t : Table)
  /-- Make a remark. -/
  | remark (kind : Report.Kind) (message : String)
  /-- Make a record in the journal. -/
  | record (r : Record)
  /-- Replace the file at a path. -/
  | replace (path : Path) (text : String)
  deriving Repr

/-- Steps, and what follows them: an exit code, or what ends the command otherwise. -/
structure Plan where
  steps : List Step
  ending : Except Escape Int

namespace Plan

/-- The plan that does nothing but end well. -/
def done : Plan := ⟨[], .ok 0⟩

/-- The plan with steps before it. -/
def after (steps : List Step) (p : Plan) : Plan := ⟨steps ++ p.steps, p.ending⟩

/-- The plan that takes steps and ends well. -/
def ofSteps (steps : List Step) : Plan := ⟨steps, .ok 0⟩

/-- The plan that reports a failure and ends with its exit code. -/
def failing (f : Failure) (hints : List String) : Plan :=
  ⟨.remark .error f.message :: hints.map (.remark .suggestion), .ok f.exitCode⟩

/-- The plan that goes on with the value of an action, its records first. -/
def following {α : Type} (x : Logged (Except Escape α)) (next : α → Plan) : Plan :=
  match x.value with
  | .error e => ⟨x.records.map .record, .error e⟩
  | .ok a => (next a).after (x.records.map .record)

end Plan

namespace CompletionQuery

/-- The words of the query and the index of the one under the cursor: those of its line if it
has one; otherwise the cursor stands on the last word unless the query says where. -/
def request (q : CompletionQuery) : List String × Int :=
  match q.line with
  | some line =>
    let r := Request.ofLine line q.point
    (r.tokens.map Token.text, r.cursor)
  | none => (q.words, q.cursor.getD (q.words.length - 1 : Nat))

end CompletionQuery

namespace Command

/-- The remark on a resolution. -/
def resolvedRemark (a : Engine.Answer) (r : Resolution) : Step :=
  .remark .debug ("state=" ++ r.state.name ++ " option=" ++
    (r.option.map OptionSpec.long).getD "-" ++ " candidates=" ++ toString a.offered.length)

/-- Answer a request for candidates. -/
def planCompletion (w : World) (s : Settings) (q : CompletionQuery) : Plan :=
  .following (Engine.inWorld w s) fun engine =>
    let answer := engine.explainIn (w []).room q.request.1 q.request.2
    let text := Candidates.render q.style answer.value.offered
    .ofSteps (answer.records.map .record ++
      (answer.value.resolution.map (resolvedRemark answer.value)).toList ++
      (if text = "" then [] else [.print text]))

/-- The name of the user's shell. -/
def userShell (env : Environment) : String :=
  match env.get? "SHELL" with
  | none => "bash"
  | some path => String.ofList ((Text.splitAt '/' path.toList).getLast?.getD [])

/-- The scripts of all commands for a shell. -/
def hooks (engine : Engine) (shell : Shell) : Hooks :=
  ({ shell } : Hooks).registerAll engine.registry.names

/-- The steps that put the scripts of commands where a shell looks for them. -/
def installSteps (shell : Shell) (home : Path) (hooks : Hooks) : List Step :=
  (hooks.commands.flatMap fun command =>
    let path := shell.installPath command home
    [.replace path (hooks.scriptFor command),
     .remark .success (shell.title ++ " completion for " ++ command ++ " installed to " ++
       path.text)]) ++
  (hooks.commands.getLast?.map fun command =>
    Step.remark .suggestion
      (shell.activationHint (shell.installPath command home).text)).toList

/-- Put the scripts for a shell where it looks for them. -/
def planInstall (w : World) (s : Settings) (shell : Option String) : Plan :=
  match Shell.ofUser (shell.getD (userShell (w []).environment)) with
  | .error f => .failing f []
  | .ok shell =>
    .following (Engine.inWorld w s) fun engine =>
      match (w []).environment.home with
      | .error fault => ⟨[], .error (.fault fault)⟩
      | .ok home => .ofSteps (installSteps shell home (hooks engine shell))

/-- Print the scripts for a shell. -/
def planShowScript (w : World) (s : Settings) (shell : String) : Plan :=
  match Shell.ofUser shell with
  | .error f => .failing f []
  | .ok shell =>
    .following (Engine.inWorld w s) fun engine =>
      .ofSteps [.print (hooks engine shell).script]

/-- The table of registered commands. -/
def registryTable (r : Registry) : Table :=
  .ofTexts ["Command", "Options"]
    (r.grammars.map fun g => [g.command, toString g.options.length])
    ("Registered grammars (" ++ toString r.grammars.length ++ ")")

/-- List the commands with a grammar. -/
def planList (w : World) (s : Settings) : Plan :=
  .following (Engine.inWorld w s) fun engine => .ofSteps [.table (registryTable engine.registry)]

/-- The row of an option. -/
def optionRow (o : OptionSpec) : List String :=
  [o.long, o.short.getD "-", o.domain.kind.name,
   if o.domain.kind = .enum then String.intercalate ", " o.domain.values else ""]

/-- The table of the options of a command. -/
def grammarTable (g : Grammar) : Table :=
  .ofTexts ["Long", "Short", "Domain", "Values"] (g.options.map optionRow)
    (g.command ++ " -- Options (" ++ toString g.options.length ++ ")")

/-- List the options of a command. -/
def planShowGrammar (w : World) (s : Settings) (command : String) : Plan :=
  .following (Engine.inWorld w s) fun engine =>
    match engine.registry.get command with
    | .error f => .failing f ["Run: peercomp grammar list"]
    | .ok g => .ofSteps [.table (grammarTable g)]

/-- Go on with the grammar behind a source; a source that yields none is reported. -/
def withGrammar (h : Host) (source : String) (next : Grammar → Plan) : Plan :=
  match Source.loadWithin h source with
  | .ok g => next g
  | .error stop =>
    match stop.toEscape with
    | .failure f => .failing f []
    | .fault fault => ⟨[], .error (.fault fault)⟩

/-- Say whether a document is a grammar. -/
def planCheck (h : Host) (source : String) : Plan :=
  withGrammar h source fun g =>
    .ofSteps [.remark .success ("Grammar for '" ++ g.command ++ "' is valid (" ++
      toString g.options.length ++ " options)")]

/-- Keep a grammar. -/
def planAdd (h : Host) (source : String) : Plan :=
  withGrammar h source fun g =>
    match Library.fileOf h g with
    | .error fault => ⟨[], .error (.fault fault)⟩
    | .ok path =>
      .ofSteps [.replace path (Library.fileText g),
        .remark .success ("Saved grammar for '" ++ g.command ++ "' to " ++ path.text),
        .remark .suggestion ("Run: peercomp completion install to hook up " ++ g.command)]

/-- What a command does in a world with settings. -/
def plan (w : World) (s : Settings) : Command → Plan
  | .complete query => planCompletion w s query
  | .install shell => planInstall w s shell
  | .showScript shell => planShowScript w s shell
  | .listGrammars => planList w s
  | .showGrammar command => planShowGrammar w s command
  | .checkGrammar source => planCheck (w []) source
  | .addGrammar source => planAdd (w []) source

end Command

end TabCompletion
