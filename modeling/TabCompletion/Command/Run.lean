import TabCompletion.Command.Plan
import TabCompletion.Journal.Outlets

/-!
# Runs

A run of the program: what a command line does on a host. The flags and the settings come
first; they say how the program reports and where its records go. Then the steps of the
command's plan are taken one after another until one of them cannot be. A failure is
reported and gives the exit code; a fault leaves a crash log behind. `run` is the outcome.

The output is taken to be open to the end of the run and to take every character, and the file of
the journal to take every record once it is open.
-/

namespace TabCompletion

/-- What is done so far: the disk, and what is printed as data and as remarks. -/
structure Progress where
  disk : Disk
  out : String := ""
  err : String := ""
  deriving DecidableEq, Repr

namespace Progress

/-- More data are printed. -/
def print (p : Progress) (text : String) : Progress := { p with out := p.out ++ text }

/-- More remarks are printed. -/
def tell (p : Progress) (text : String) : Progress := { p with err := p.err ++ text }

end Progress

/-- How steps are taken: how the program reports, where its records go, and the time. -/
structure Stage where
  reporter : Reporter
  outlets : Outlets
  stamp : String

namespace Stage

/-- Make a remark. -/
def remark (r : Reporter) (p : Progress) (kind : Report.Kind) (message : String) :
    Progress × Option Fault :=
  match r.remark kind message with
  | .ok text => (p.tell text, none)
  | .error fault => (p, some fault)

/-- Take a step. -/
def take (s : Stage) (p : Progress) : Step → Progress × Option Fault
  | .print text => (p.print (Reporter.data text), none)
  | .table t => (p.print (s.reporter.table t).1, (s.reporter.table t).2)
  | .remark kind message => remark s.reporter p kind message
  | .record r =>
    ({ p.tell (s.outlets.shown r) with disk := s.outlets.filed s.stamp p.disk r }, none)
  | .replace path text =>
    ({ p with disk := (p.disk.replace path text).1 }, (p.disk.replace path text).2)

/-- The world in which steps are taken from a disk on: records go to the file of the journal. -/
def world (s : Stage) (h : Host) (disk : Disk) : World :=
  fun records => { h with disk := records.foldl (s.outlets.filed s.stamp) disk }

/-- Take steps up to the first that cannot be taken. -/
def takeAll (s : Stage) (p : Progress) : List Step → Progress × Option Fault
  | [] => (p, none)
  | step :: rest =>
    match s.take p step with
    | (p, none) => s.takeAll p rest
    | (p, some fault) => (p, some fault)

/-- Carry out a plan. -/
def carryOut (s : Stage) (p : Progress) (plan : Plan) : Progress × Except Escape Int :=
  match s.takeAll p plan.steps with
  | (p, none) => (p, plan.ending)
  | (p, some fault) => (p, .error (.fault fault))

end Stage

/-- How a run ends. -/
inductive Ending where
  /-- With an exit code. -/
  | exit (code : Int)
  /-- With help. -/
  | help
  /-- With the refusal of its arguments. -/
  | misuse (m : Misuse)
  /-- With a fault of which no log could be left behind. -/
  | lost (fault : Fault)
  deriving DecidableEq, Repr

/-- The exit code. -/
def Ending.exitCode : Ending → Int
  | exit code => code
  | help => 0
  | misuse _ => 2
  | lost _ => 1

/-- What a run leaves behind. -/
structure Outcome where
  disk : Disk
  out : String := ""
  err : String := ""
  ending : Ending
  deriving DecidableEq, Repr

namespace Progress

/-- The outcome of a run that ends here. -/
def finish (p : Progress) (ending : Ending) : Outcome :=
  { disk := p.disk, out := p.out, err := p.err, ending }

/-- The outcome of a run that ends with an error and an exit code. -/
def finishWith (p : Progress) (r : Reporter) (message : String) (code : Int) : Outcome :=
  match Stage.remark r p .error message with
  | (p, none) => p.finish (.exit code)
  | (p, some fault) => p.finish (.lost fault)

end Progress

namespace Crash

/-- What a crash log holds. -/
def content (fault : Fault) : String :=
  match fault with
  | .file f => f.text ++ "\n"
  | .refused r => r.message ++ "\n"
  | _ => "The program met a value that it cannot use.\n"

/-- The disk with a crash log, and its path. -/
def write (env : Environment) (stamp : String) (d : Disk) (fault : Fault) :
    Disk × Except Fault Path :=
  match env.dataDirectory with
  | .error fault => (d, .error fault)
  | .ok data =>
    match d.ensureDirectory data with
    | (d, some fault) => (d, .error fault)
    | (d, none) =>
      match d.ensureDirectory (data.join "logs") with
      | (d, some fault) => (d, .error fault)
      | (d, none) =>
        let path := (data.join "logs").join ("crash-" ++ stamp ++ ".log")
        match d.granted .write path.text (d.write path.text (Text.Utf8.encode (content fault))) with
        | .ok d => (d, .ok path)
        | .error fault => (d, .error fault)

end Crash

namespace Run

/-- The version of the program. -/
def version : String := "peercomp 0.1.0"

/-- The outcome of a run that has come to an end. -/
def conclude (h : Host) (r : Reporter) (p : Progress) : Except Escape Int → Outcome
  | .ok code => p.finish (.exit code)
  | .error (.failure f) => p.finishWith r f.message f.exitCode
  | .error (.fault fault) =>
    match Crash.write h.environment h.stamp p.disk fault with
    | (disk, .error fault) => { p with disk }.finish (.lost fault)
    | (disk, .ok path) =>
      { p with disk }.finishWith r ("Unexpected error. Crash log: " ++ path.text) 1

/-- The settings in effect. If the file of settings is of no use the defaults are, whatever the
flags and the environment say, and its problem is told. A file that is too deep for the stack is a
fault. -/
def settings (h : Host) (f : Flags) : Except Escape (Settings × Option String) :=
  if Settings.exhausts h then .error (.fault .tooDeep)
  else match Settings.resolve h f.choices with
    | .ok s => .ok (s, none)
    | .error (.failure failure) =>
      if failure.kind = .settings then .ok ({}, some failure.message)
      else .error (.failure failure)
    | .error fault => .error fault

/-- How the program reports. -/
def reporter (h : Host) (f : Flags) (s : Settings) : Reporter :=
  Reporter.ofHost h ((Report.Format.ofName? s.format).getD .auto) f.noColor f.quiet f.verbose

/-- The steps before those of a command. -/
def openingSteps (records : List Record) (problem : Option String) : List Step :=
  records.map .record ++
    (problem.map fun p => Step.remark .warning (p ++ "; using defaults")).toList

/-- The outcome of the command of that name with its arguments, on a stage that is set. -/
def onStage (h : Host) (stage : Stage) (s : Settings) (p : Progress) (name : String)
    (args : List String) : Outcome :=
  match Command.read h.integerOf name args with
  | .error misuse => p.finish (.misuse misuse)
  | .ok .help => p.finish .help
  | .ok .version => (p.print (version ++ "\n")).finish (.exit 0)
  | .ok (.run command) =>
    let (p, ending) := stage.carryOut p (command.plan (stage.world h p.disk) s)
    conclude h stage.reporter p ending

/-- The outcome of a command line behind its flags. -/
def withFlags (h : Host) (f : Flags) (name : String) (args : List String) : Outcome :=
  let start : Progress := { disk := h.disk }
  match settings h f with
  | .error e => conclude h (Reporter.standard h) start (.error e)
  | .ok (s, problem) =>
    let reporter := reporter h f s
    match Outlets.setUp h f.verbose s.logFile with
    | .error fault => conclude h reporter start (.error (.fault fault))
    | .ok (disk, outlets) =>
      let stage : Stage := { reporter, outlets := outlets.value, stamp := h.stamp }
      match stage.takeAll { start with disk } (openingSteps outlets.records problem) with
      | (p, some fault) => conclude h reporter p (.error (.fault fault))
      | (p, none) => onStage h stage s p name args

end Run

/-- The outcome of a command line. -/
def run (h : Host) (args : List String) : Outcome :=
  let start : Progress := { disk := h.disk }
  match readFlags args with
  | .error misuse => start.finish (.misuse misuse)
  | .ok .help => start.finish .help
  | .ok .version => (start.print (Run.version ++ "\n")).finish (.exit 0)
  | .ok (.run (f, name, rest)) => Run.withFlags h f name rest

end TabCompletion
