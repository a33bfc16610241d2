import Mathlib.Control.Monad.Basic
import TabCompletion.Command.Run
import TabCompletion.Proofs.FilesOnly
import TabCompletion.Proofs.WorldRegistry

/-!
# Runs that complete

A run that is asked for candidates ends well exactly if nothing on its way ends in a fault
(`Answered`): neither the search for the settings, nor the journal, nor a remark, nor the
search for grammars and the loading of any of them, each as the journal has left the disk by then.
It then prints the candidates that the engine offers with the grammars that could be loaded; a run
that meets a fault prints none and ends with the exit code 1 (`exitCode_complete`).

This is said of runs that read what they read in characters (`IsLiteral`): what is printed of a
surrogate, and which file one names, is left out, and so are arguments, variables and names of
entries that are no characters. Left out as well are an output that is closed and records that
cannot be written to a file that is open.
-/

namespace TabCompletion

namespace Settings

/-- The record of settings names the file of the journal and further grammars in characters. -/
structure IsLiteral (entries : List (Document × Document)) : Prop where
  journal : ∀ codes, Document.lookup? "log_file" entries ≠ some (.brokenText codes)
  grammars : ∀ items codes, Document.lookup? "grammar_files" entries = some (.list items) →
    Document.brokenText codes ∉ items

/-- No file is too deep for a stack that nothing is too deep for. -/
theorem exhausts_of_stack {h : Host} (hstack : h.stack = {}) : exhausts h = false := by
  unfold exhausts
  rw [hstack]
  cases characters? h <;> rfl

end Settings

/-- No source is too deep for a stack that nothing is too deep for. -/
theorem Source.exhausts_of_stack {h : Host} (hstack : h.stack = {}) (source : String) :
    Source.exhausts h source = false := by
  unfold Source.exhausts Source.isTooDeep
  rw [hstack]
  cases Source.readText h source with
  | error stop => rfl
  | ok text =>
      dsimp only
      split
      · rfl
      · rw [if_neg Bool.false_ne_true]
        cases Json.read text.1 <;> simp

/-! ## Remarks and steps -/

/-- The remark can be made: it is not wanted, or has no colour, or is sound markup. -/
def Reporter.Shows (r : Reporter) (kind : Report.Kind) (message : String) : Prop :=
  r.wants kind = true → r.colorless = false →
    ∃ cs, r.renderer.visible (kind.markup message).toList = .ok cs

theorem Reporter.remark_eq_ok_iff {r : Reporter} {kind : Report.Kind} {message : String} :
    (∃ text, r.remark kind message = .ok text) ↔ r.Shows kind message := by
  unfold Reporter.remark Reporter.Shows Report.seen
  cases r.wants kind with
  | false => simp
  | true =>
      cases r.colorless with
      | true => simp
      | false =>
          cases r.renderer.visible (kind.markup message).toList <;> simp [Except.map]

/-- The remark that a step makes, if it makes any, can be made. -/
def Reporter.Permits (r : Reporter) : Step → Prop
  | .remark kind message => r.Shows kind message
  | _ => True

namespace Stage

/-- What is done after records are made. -/
def noted (s : Stage) (p : Progress) (records : List Record) : Progress :=
  records.foldl (fun p r => (s.take p (.record r)).1) p

theorem takeAll_records (s : Stage) (p : Progress) (records : List Record) (rest : List Step) :
    s.takeAll p (records.map .record ++ rest) = s.takeAll (s.noted p records) rest := by
  induction records generalizing p with
  | nil => rfl
  | cons r records ih =>
      rw [List.map_cons, List.cons_append, takeAll]
      exact ih _

theorem out_noted (s : Stage) (p : Progress) (records : List Record) :
    (s.noted p records).out = p.out := by
  induction records generalizing p with
  | nil => rfl
  | cons r records ih =>
      rw [noted, List.foldl_cons]
      exact ih _

/-- Without a file in the journal, records leave the disk as it is. -/
theorem disk_noted {s : Stage} (hs : s.outlets.file = none) (p : Progress)
    (records : List Record) : (s.noted p records).disk = p.disk := by
  induction records generalizing p with
  | nil => rfl
  | cons r records ih =>
      rw [noted, List.foldl_cons]
      refine (ih _).trans ?_
      show s.outlets.filed s.stamp p.disk r = p.disk
      rw [Outlets.filed, hs]

/-- A remark that can be made only adds to what is told. -/
theorem take_remark {s : Stage} {kind : Report.Kind} {message : String}
    (h : s.reporter.Shows kind message) (p : Progress) :
    ∃ text, s.take p (.remark kind message) = (p.tell text, none) := by
  obtain ⟨text, htext⟩ := Reporter.remark_eq_ok_iff.2 h
  exact ⟨text, by rw [take, remark, htext]⟩

end Stage

namespace Run

/-! ## Faults -/

theorem exitCode_finishWith (p : Progress) (r : Reporter) (message : String) :
    (p.finishWith r message 1).ending.exitCode = 1 := by
  unfold Progress.finishWith
  split
  · rfl
  · rfl

/-- A run that meets a fault ends with the exit code 1. -/
theorem exitCode_conclude_fault (h : Host) (r : Reporter) (p : Progress) (fault : Fault) :
    (conclude h r p (.error (.fault fault))).ending.exitCode = 1 := by
  rw [conclude]
  split
  · rfl
  · exact exitCode_finishWith _ r _

/-- A file of settings that is of no use is a failure of its own kind. -/
theorem kind_of_load_eq_error {h : Host} {failure : Failure}
    (hload : Settings.load h = .error (.failure failure)) : failure.kind = .settings := by
  unfold Settings.load at hload
  split at hload
  · cases hload
  · split at hload
    · cases hload
    · cases hload
    · split at hload
      · cases hload
        rfl
      · cases hload
      · split at hload
        · cases hload
          rfl
        · cases hload

/-- A stack that is deep enough for the file of settings does not matter. -/
theorem settings_of_shallow {h : Host} {f : Flags} (hdeep : Settings.exhausts h = false) :
    settings h f =
      match Settings.resolve h f.choices with
      | .ok s => .ok (s, none)
      | .error (.failure failure) =>
        if failure.kind = .settings then .ok ({}, some failure.message)
        else .error (.failure failure)
      | .error fault => .error fault := by
  rw [settings]
  exact if_neg (Bool.eq_false_iff.1 hdeep)

/-- Only a fault keeps the settings from being found. -/
theorem settings_eq_error {h : Host} {f : Flags} {e : Escape} (he : settings h f = .error e) :
    ∃ fault, e = .fault fault := by
  cases hdeep : Settings.exhausts h with
  | true =>
      rw [settings, if_pos hdeep] at he
      cases he
      exact ⟨_, rfl⟩
  | false =>
      rw [settings_of_shallow hdeep] at he
      unfold Settings.resolve at he
      cases hload : Settings.load h with
      | ok s =>
          rw [hload] at he
          cases he
      | error stop =>
          rw [hload] at he
          cases stop with
          | failure failure =>
              rw [Except.map] at he
              dsimp only at he
              rw [if_pos (kind_of_load_eq_error hload)] at he
              cases he
          | fault fault =>
              cases he
              exact ⟨fault, rfl⟩

/-- The set-up of the journal makes a record only if there is no file to keep it in. -/
theorem setUp_records {h : Host} {verbose : Bool} {path : Option String} {disk : Disk}
    {outlets : Logged Outlets} (hsetUp : Outlets.setUp h verbose path = .ok (disk, outlets)) :
    outlets.records = [] ∨ outlets.value.file = none := by
  unfold Outlets.setUp at hsetUp
  dsimp only at hsetUp
  split at hsetUp
  · cases hsetUp
    exact .inl rfl
  · split at hsetUp
    · cases hsetUp
      exact .inl rfl
    · cases hsetUp
      exact .inr rfl
    · cases hsetUp

/-! ## The answer to a request -/

/-- What is printed of candidates. -/
def printed (style : Candidates.Style) (offered : List String) : String :=
  if Candidates.render style offered = "" then ""
  else Reporter.data (Candidates.render style offered)

/-- The stage on which a command is carried out. -/
def stageOf (h : Host) (f : Flags) (s : Settings) (outlets : Outlets) : Stage :=
  ⟨reporter h f s, outlets, h.stamp⟩

/-- The world of a run whose journal is set up. -/
def worldOf (h : Host) (f : Flags) (s : Settings) (outlets : Outlets) (disk : Disk) : World :=
  (stageOf h f s outlets).world h disk

theorem worldOf_nil (h : Host) (f : Flags) (s : Settings) (outlets : Outlets) (disk : Disk) :
    worldOf h f s outlets disk [] = { h with disk } := rfl

/-- The engine that knows the grammars of a registry. -/
def engineOf (h : Host) (s : Settings) (r : Registry) : Engine where
  registry := r.freeze
  paths := h.offerPaths s.path

/-- What plays a part in a run is said in characters, by the file of settings and by the sources of
grammars. -/
structure IsLiteral (h : Host) (f : Flags) : Prop where
  settings : ∀ cs entries, Settings.characters? h = some cs →
    Json.readChars cs = .ok (.map entries) → Settings.IsLiteral entries
  sources : ∀ s problem disk outlets found, Run.settings h f = .ok (s, problem) →
    Outlets.setUp h f.verbose s.logFile = .ok (disk, outlets) →
    Library.files { h with disk } = .ok found →
    Library.IsLiteral (worldOf h f s outlets.value disk) (.ofSources (Library.sourcesOf found s))

/-- Nothing on the way to the answer ends in a fault, and this is the answer: the settings are
found, be they of use or not; the journal is set up; the remark on settings that are of no use
can be made; the user's grammars are found, and one source of grammars after another is dealt
with; and the remark on the answer can be made. -/
inductive Answered (h : Host) (f : Flags) (q : CompletionQuery) (a : Engine.Answer) : Prop
  | intro {s : Settings} {problem : Option String} {disk : Disk} {outlets : Logged Outlets}
      {found : List Path} {b : Library.Building}
      (hsettings : settings h f = .ok (s, problem))
      (hjournal : Outlets.setUp h f.verbose s.logFile = .ok (disk, outlets))
      (hwarning : ∀ message ∈ problem,
        (reporter h f s).Shows .warning (message ++ "; using defaults"))
      (hfiles : Library.files { h with disk } = .ok found)
      (hsources : Library.Reaches (worldOf h f s outlets.value disk)
        (.ofSources (Library.sourcesOf found s)) b)
      (hleft : b.left = [])
      (hanswer : a = ((engineOf { h with disk } s b.registry).explainIn h.room
        q.request.1 q.request.2).value)
      (hremark : ∀ r ∈ a.resolution, (reporter h f s).Permits (Command.resolvedRemark a r)) :
      Answered h f q a

/-- The steps before those of a command leave the disk as the journal left it, and print no
data; the remark on the settings decides whether they can be taken. -/
theorem takeAll_openingSteps (stage : Stage) (disk : Disk) {records : List Record}
    (hrecords : records = [] ∨ stage.outlets.file = none) {problem : Option String}
    (h : ∀ message ∈ problem, stage.reporter.Shows .warning (message ++ "; using defaults")) :
    ∃ p : Progress, stage.takeAll { disk } (openingSteps records problem) = (p, none) ∧
      p.disk = disk ∧ p.out = "" := by
  -- records reach the disk only through the file of the journal
  have hdisk : (stage.noted { disk } records).disk = disk := by
    rcases hrecords with rfl | hfile
    · rfl
    · exact Stage.disk_noted hfile _ _
  have hout := stage.out_noted { disk } records
  unfold openingSteps
  rw [Stage.takeAll_records]
  cases problem with
  | none => exact ⟨_, rfl, hdisk, hout⟩
  | some message =>
      obtain ⟨text, htext⟩ := Stage.take_remark (h message rfl) (stage.noted { disk } records)
      refine ⟨(stage.noted { disk } records).tell text, ?_, hdisk, hout⟩
      rw [Option.map_some, Option.toList_some, Stage.takeAll, htext]
      rfl

/-- The steps of an answer: its records, the remark on it, and its candidates. -/
def answerSteps (style : Candidates.Style) (answer : Logged Engine.Answer) : List Step :=
  answer.records.map .record ++
    ((answer.value.resolution.map (Command.resolvedRemark answer.value)).toList ++
      (if Candidates.render style answer.value.offered = "" then []
       else [.print (Candidates.render style answer.value.offered)]))

theorem takeAll_print (stage : Stage) (p : Progress) (style : Candidates.Style)
    (offered : List String) :
    ∃ p' : Progress, stage.takeAll p (if Candidates.render style offered = "" then []
        else [.print (Candidates.render style offered)]) = (p', none) ∧
      p'.out = p.out ++ printed style offered := by
  unfold printed
  split
  · exact ⟨p, rfl, by simp⟩
  · exact ⟨_, rfl, rfl⟩

/-- The remark on an answer decides whether its steps can be taken; they print the
candidates. -/
theorem takeAll_answerSteps (stage : Stage) (p : Progress) (style : Candidates.Style)
    {answer : Logged Engine.Answer}
    (h : ∀ r ∈ answer.value.resolution,
      stage.reporter.Permits (Command.resolvedRemark answer.value r)) :
    ∃ p', stage.takeAll p (answerSteps style answer) = (p', none) ∧
      p'.out = p.out ++ printed style answer.value.offered := by
  have hout := stage.out_noted p answer.records
  unfold answerSteps
  rw [Stage.takeAll_records, ← hout]
  cases hresolution : answer.value.resolution with
  | none => exact takeAll_print stage _ style _
  | some r =>
      obtain ⟨text, htext⟩ := Stage.take_remark (h r hresolution)
        (stage.noted p answer.records)
      obtain ⟨p', hp', hprinted⟩ := takeAll_print stage
        ((stage.noted p answer.records).tell text) style answer.value.offered
      refine ⟨p', ?_, hprinted⟩
      rw [Option.map_some, Option.toList_some, List.singleton_append, Stage.takeAll,
        Command.resolvedRemark, htext]
      exact hp'

/-- If the building of the registry comes to the last source, the engine knows the grammars that it
has come to by then. -/
theorem value_inWorld {w : World} {s : Settings} {found : List Path} {b : Library.Building}
    (hfiles : Library.files (w []) = .ok found)
    (hsources : Library.Reaches w (.ofSources (Library.sourcesOf found s)) b)
    (hleft : b.left = []) : (Engine.inWorld w s).value = .ok (engineOf (w []) s b.registry) := by
  rw [Engine.inWorld, Logged.value_bind,
    Library.value_registryIn_of_reaches hfiles hsources hleft]
  rfl

theorem plan_complete_of_ok {w : World} {s : Settings} {e : Engine}
    (hengine : (Engine.inWorld w s).value = .ok e) (q : CompletionQuery) :
    Command.planCompletion w s q =
      ⟨(Engine.inWorld w s).records.map .record ++
        answerSteps q.style (e.explainIn (w []).room q.request.1 q.request.2), .ok 0⟩ := by
  rw [Command.planCompletion, Plan.following, hengine]
  dsimp only
  rw [Plan.ofSteps, Plan.after, answerSteps, List.append_assoc]

section

variable {h : Host} {args : List String} {f : Flags} {rest : List String} {q : CompletionQuery}

/-- A run whose journal is set up takes its opening steps and goes on with its command. -/
theorem run_eq_of_setUp {name : String} (hflags : readFlags args = .ok (.run (f, name, rest)))
    {s : Settings} {problem : Option String} (hsettings : settings h f = .ok (s, problem))
    {disk : Disk} {outlets : Logged Outlets}
    (hjournal : Outlets.setUp h f.verbose s.logFile = .ok (disk, outlets)) :
    run h args =
      match (stageOf h f s outlets.value).takeAll { disk }
        (openingSteps outlets.records problem) with
      | (p, some fault) => conclude h (reporter h f s) p (.error (.fault fault))
      | (p, none) => onStage h (stageOf h f s outlets.value) s p name rest := by
  rw [run, hflags]
  dsimp only
  rw [withFlags, hsettings]
  dsimp only
  rw [hjournal]
  rfl

theorem onStage_complete
    (hquery : Command.read h.integerOf "complete" rest = .ok (.run (.complete q)))
    (stage : Stage) (s : Settings) (p : Progress) :
    onStage h stage s p "complete" rest =
      let done := stage.carryOut p (Command.planCompletion (stage.world h p.disk) s q)
      conclude h stage.reporter done.1 done.2 := by
  rw [onStage, hquery]
  rfl

/-- A request that is answered ends well, with the candidates of its answer. -/
theorem run_of_answered (hflags : readFlags args = .ok (.run (f, "complete", rest)))
    (hquery : Command.read h.integerOf "complete" rest = .ok (.run (.complete q)))
    {a : Engine.Answer} (ha : Answered h f q a) :
    (run h args).ending = .exit 0 ∧ (run h args).out = printed q.style a.offered := by
  obtain @⟨s, problem, disk, outlets, found, b, hsettings, hjournal, hwarning, hfiles, hsources,
    hleft, rfl, hremark⟩ := ha
  obtain ⟨p, hopening, rfl, hout⟩ := takeAll_openingSteps (stageOf h f s outlets.value) disk
    (setUp_records hjournal) hwarning
  have hengine := value_inWorld hfiles hsources hleft
  obtain ⟨p', htaken, hprinted⟩ := takeAll_answerSteps (stageOf h f s outlets.value)
    ((stageOf h f s outlets.value).noted p
      (Engine.inWorld (worldOf h f s outlets.value p.disk) s).records) q.style hremark
  rw [Stage.out_noted, hout, String.empty_append] at hprinted
  rw [run_eq_of_setUp hflags hsettings hjournal, hopening]
  dsimp only
  rw [onStage_complete hquery]
  dsimp only
  rw [← worldOf, plan_complete_of_ok hengine, worldOf_nil, Stage.carryOut, Stage.takeAll_records,
    htaken]
  exact ⟨rfl, hprinted⟩

end

/-! ## A run that meets a fault, and one that does not -/

/-- An environment whose directories are found from the working directory. -/
def sampleEnvironment : Environment where
  values := [("HOME", "home"), ("XDG_CONFIG_HOME", "config"), ("XDG_DATA_HOME", "data"),
    ("NO_COLOR", "1")]
  users := []
  ownHome := none
  platform := "Linux"

/-- A host without files. -/
def bareHost : Host where
  environment := sampleEnvironment
  disk := { tree := Tree.empty, cwd := [] }

/-- The file of settings, which is missing. -/
def settingsPath : Path := ⟨.here, ["config", "peercomp", "config.json"]⟩

/-- The document of a grammar whose command is a day that no calendar has. -/
def misdatedDocument : String := "command: 2024-99-99\n"

/-- The directory of the user's grammars. -/
def grammarsPath : Path := ⟨.here, ["config", "peercomp", "grammars"]⟩

/-- The file of the document. -/
def misdatedFile : Path := ⟨.here, ["config", "peercomp", "grammars", "bad.yaml"]⟩

/-- A host with that file. -/
def misdatedHost : Host where
  environment := sampleEnvironment
  disk :=
    { tree := ⟨[(["config"], .directory), (["config", "peercomp"], .directory),
        (grammarsPath.parts, .directory),
        (misdatedFile.parts, .file (Text.Utf8.encode misdatedDocument))]⟩,
      cwd := [] }

/-- Nothing is refused there. -/
theorem grants_misdatedHost (call : Call) (path : String) : misdatedHost.disk.Grants call path :=
  Disk.grants_of_refusals_eq_nil rfl call path

theorem locate_misdatedFile :
    misdatedHost.disk.locate true misdatedFile.text =
      .ok (.found misdatedFile.parts (.file (Text.Utf8.encode misdatedDocument))) := by
  have hreaches : misdatedHost.disk.Reaches misdatedFile.text misdatedFile.parts := by decide
  exact hreaches.locate (by decide) (by simp) true

/-- Without a file of settings the defaults are in effect. -/
theorem load_of_absent {h : Host} {path : Path} (hfile : Settings.file h = .ok path)
    (hentry : h.disk.isFile path.text = .ok false) : Settings.load h = .ok {} := by
  rw [Settings.load, hfile]
  dsimp only
  rw [hentry]

/-- Its day ends the reading of it in a fault. -/
theorem isFaulty_misdatedFile : Library.IsFaulty misdatedHost misdatedFile.text := by
  have hpath : misdatedHost.environment.expandPath (Path.ofText misdatedFile.text) =
      .ok misdatedFile := by decide
  have hcontent : Source.textOf (Text.Utf8.encode misdatedDocument) = .ok misdatedDocument := by
    decide +kernel
  have hhint : Source.hintOfSuffix misdatedFile.suffix = .yaml := by decide
  have hread := Source.readFile_of_read misdatedHost hpath
    (Disk.isFile_of_locate (grants_misdatedHost _ _) locate_misdatedFile)
    (Disk.read_of_locate (grants_misdatedHost _ _) locate_misdatedFile) hcontent (by decide)
  -- documents have no decidable equality, but the fault alone can be compared
  have hparse : (Source.parse misdatedDocument .yaml).map (fun _ => ()) =
      .error (.fault .badValue) := by decide +kernel
  refine ⟨by decide, .badValue, ?_⟩
  rw [Source.load, Source.loadAs, Source.loadDocument,
    Source.readText_of_isLocal misdatedHost (by decide), hread, hhint]
  dsimp only [bind, Except.bind]
  cases hvalue : Source.parse misdatedDocument .yaml with
  | ok d =>
      rw [hvalue] at hparse
      cases hparse
  | error stop =>
      rw [hvalue] at hparse
      cases hparse
      rfl

theorem readFlags_sample :
    readFlags ["complete", "--", "peerd", "--ov"] =
      .ok (.run ({}, "complete", ["--", "peerd", "--ov"])) := by
  decide

theorem read_sample :
    Command.read bareHost.integerOf "complete" ["--", "peerd", "--ov"] =
      .ok (.run (.complete { words := ["peerd", "--ov"] })) := by
  decide

/-- On a disk without files nothing is found behind a name. -/
theorem ask_bareHost (path name next : String) (rest : List String) (hpath : Disk.IsPath path)
    (hroot : Tree.startsAtRoot path = false) (hname : Tree.IsEntryName name)
    (hsteps : Tree.stepsOf path = name :: next :: rest) (question : Entry → Bool) :
    bareHost.disk.ask path question = .ok false := by
  have hstart : bareHost.disk.startOf path = [] := by
    rw [Disk.startOf, hroot]
    rfl
  refine Disk.ask_of_missing (Disk.grants_of_refusals_eq_nil rfl _ _) hpath ?_ question
  rw [hstart, hsteps]
  exact Tree.walk_missing hname rfl next rest

theorem file_bareHost : Settings.file bareHost = .ok settingsPath := by decide

theorem absent_bareHost : bareHost.disk.isFile settingsPath.text = .ok false :=
  ask_bareHost settingsPath.text "config" "peercomp" ["config.json"] (by decide)
    (by decide) (by decide) (by decide) _

theorem settings_bareHost : settings bareHost {} = .ok ({}, none) := by
  rw [settings_of_shallow (Settings.exhausts_of_stack rfl), Settings.resolve,
    load_of_absent file_bareHost absent_bareHost]
  decide

theorem files_bareHost : Library.files bareHost = .ok [] := by
  have hdirectory : bareHost.environment.grammarsDirectory = .ok grammarsPath := by
    decide
  have his : bareHost.disk.isDirectory grammarsPath.text = .ok false :=
    ask_bareHost grammarsPath.text "config" "peercomp" ["grammars"] (by decide)
      (by decide) (by decide) (by decide) _
  simp [Library.files, hdirectory, his, bind, Except.bind, pure, Except.pure]

/-- Without that document the request is answered. -/
theorem answered_bareHost :
    Answered bareHost {} { words := ["peerd", "--ov"] }
      ((engineOf bareHost {} Library.start).explainIn .usual ["peerd", "--ov"] 1).value := by
  refine .intro settings_bareHost rfl nofun files_bareHost .refl rfl ?_ ?_
  · rfl
  · intro r hr hwanted
    cases hwanted

end Run

end TabCompletion
