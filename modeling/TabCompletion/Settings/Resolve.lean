import TabCompletion.Host.Basic
import TabCompletion.Json.Reader
import TabCompletion.Settings.Basic
import TabCompletion.Text.Newline

/-!
# The settings in effect

Settings come from four places: what the command line says goes before the environment, the
environment before the file of settings, and the file before the defaults. A file that is
not there counts as empty; one that cannot be read, or does not hold settings, is a failure.

`Settings.load` and `Settings.resolve` leave the stack of the machine aside, for which a file may
be too deep (`Settings.exhausts`).
-/

namespace TabCompletion

namespace Settings

/-- Why a file holds no settings. -/
inductive FileProblem where
  | unreadable (reason : String)
  | notJson (error : Json.Error)
  | invalid (refusal : Validation.Refusal)
  deriving DecidableEq, Repr

namespace FileProblem

/-- The problem in words. -/
def message : FileProblem → String
  | unreadable reason => reason
  | notJson error => error.message
  | invalid refusal => refusal.message

/-- The refused document behind the problem, if any. -/
def refusal? : FileProblem → Option Validation.Refusal
  | invalid refusal => some refusal
  | _ => none

end FileProblem

/-- The failure to read the file of settings at a path. -/
def fileFailure (path : Path) (problem : FileProblem) : Failure :=
  { kind := .settings,
    message := "Invalid global config at " ++ path.text ++ ": " ++ problem.message,
    refusal := problem.refusal? }

/-- The settings of the bytes of a file. -/
def ofBytes (bytes : List UInt8) : Except FileProblem Settings :=
  match Text.Utf8.decode bytes with
  | .error e => .error (.unreadable e.message)
  | .ok cs =>
    match Json.readChars (Text.unifyNewlines cs) with
    | .error e => .error (.notJson e)
    | .ok d =>
      match ofDocument d with
      | .error refusal => .error (.invalid refusal)
      | .ok s => .ok s

/-- The file of settings. -/
def file (h : Host) : Except Fault Path :=
  h.environment.configDirectory.map fun dir => dir.join "config.json"

/-- The settings of the file of settings, the defaults if there is none. -/
def load (h : Host) : Except Escape Settings :=
  match file h with
  | .error fault => .error (.fault fault)
  | .ok path =>
    match h.disk.isFile path.text with
    | .error fault => .error (.fault fault)
    | .ok false => .ok {}
    | .ok true =>
      match h.disk.read path.text with
      | .error (.file fault) => .error (.failure (fileFailure path (.unreadable fault.text)))
      | .error fault => .error (.fault fault)
      | .ok bytes =>
        match ofBytes bytes with
        | .error problem => .error (.failure (fileFailure path problem))
        | .ok s => .ok s

/-- The characters of the file of settings, if they can be read. -/
def characters? (h : Host) : Option (List Char) :=
  match file h with
  | .error _ => none
  | .ok path =>
    match h.disk.isFile path.text, h.disk.read path.text with
    | .ok true, .ok bytes => (Text.Utf8.decode bytes).toOption.map Text.unifyNewlines
    | _, _ => none

/-- The text of the file of settings is too deep for the stack of the host. -/
def exhausts (h : Host) : Bool :=
  match characters? h with
  | some cs => h.stack.json (String.ofList cs)
  | none => false

/-- The settings with what the environment says. -/
def withEnvironment (s : Settings) (env : Environment) : Settings :=
  let logFile :=
    match env.get? "PEERCOMP_LOG_FILE" with
    | some path => if path = "" then s.logFile else some path
    | none => s.logFile
  { s with
    logFile
    path :=
      { markDirectories := (env.flag? "PEERCOMP_MARK_DIRECTORIES").getD s.path.markDirectories
        showHidden := (env.flag? "PEERCOMP_SHOW_HIDDEN").getD s.path.showHidden } }

/-- What the command line says about settings. -/
structure Choices where
  format : Option String := none
  logFile : Option String := none
  deriving DecidableEq, Repr

/-- The settings with what the command line says. -/
def withChoices (s : Settings) (choices : Choices) : Settings :=
  { s with
    format := choices.format.getD s.format
    logFile := choices.logFile.orElse fun _ => s.logFile }

/-- The settings in effect. -/
def resolve (h : Host) (choices : Choices) : Except Escape Settings :=
  (load h).map fun s => (s.withEnvironment h.environment).withChoices choices

end Settings

end TabCompletion
