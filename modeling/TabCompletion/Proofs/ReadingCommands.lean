import TabCompletion.Proofs.Attempts

/-!
# Commands that only read

Five commands only read: what they do others see on the terminal alone. Without a file for the
journal, a run that asks for nothing else leaves all files as they were, unless it meets a fault;
then it leaves a crash log behind, and nothing but the log and directories on the way to it is new
(`Run.keeps_files`).
-/

namespace TabCompletion

/-! ## Steps that change no file -/

/-- The step changes no file. -/
def Step.KeepsFiles : Step → Prop
  | .replace .. => False
  | _ => True

namespace Stage

variable {stage : Stage}

theorem disk_take (hfile : stage.outlets.file = none) (p : Progress) {step : Step}
    (hstep : step.KeepsFiles) : (stage.take p step).1.disk = p.disk := by
  cases step with
  | print text => rfl
  | table t => rfl
  | remark kind message =>
      rw [take, remark]
      cases stage.reporter.remark kind message <;> rfl
  | record r => exact disk_noted hfile p [r]
  | replace path text => exact hstep.elim

/-- Steps that change no file leave the disk as it was, wherever they stop. -/
theorem disk_takeAll (hfile : stage.outlets.file = none) (p : Progress) {steps : List Step}
    (hsteps : ∀ step ∈ steps, step.KeepsFiles) : (stage.takeAll p steps).1.disk = p.disk := by
  induction steps generalizing p with
  | nil => rfl
  | cons step steps ih =>
      obtain ⟨hstep, hrest⟩ := List.forall_mem_cons.1 hsteps
      have hdisk := disk_take hfile p hstep
      rw [takeAll]
      cases htaken : stage.take p step with
      | mk p' stopped =>
          rw [htaken] at hdisk
          cases stopped with
          | some fault => exact hdisk
          | none => exact (ih p' hrest).trans hdisk

theorem disk_carryOut (hfile : stage.outlets.file = none) (p : Progress) {plan : Plan}
    (hsteps : ∀ step ∈ plan.steps, step.KeepsFiles) : (stage.carryOut p plan).1.disk = p.disk := by
  have hdisk := disk_takeAll hfile p hsteps
  rw [carryOut]
  cases htaken : stage.takeAll p plan.steps with
  | mk p' stopped =>
      rw [htaken] at hdisk
      cases stopped <;> exact hdisk

end Stage

/-! ## Plans that change no file -/

namespace Plan

/-- No step of the plan changes a file. -/
def KeepsFiles (plan : Plan) : Prop := ∀ step ∈ plan.steps, step.KeepsFiles

theorem keepsFiles_records {records : List Record} {step : Step}
    (h : step ∈ records.map Step.record) : step.KeepsFiles := by
  obtain ⟨r, -, rfl⟩ := List.mem_map.1 h
  trivial

theorem keepsFiles_failing (f : Failure) (hints : List String) : (failing f hints).KeepsFiles := by
  refine List.forall_mem_cons.2 ⟨trivial, fun step hstep => ?_⟩
  obtain ⟨hint, -, rfl⟩ := List.mem_map.1 hstep
  trivial

theorem keepsFiles_following {α : Type} (x : Logged (Except Escape α)) {next : α → Plan}
    (hnext : ∀ a, (next a).KeepsFiles) : (following x next).KeepsFiles := by
  unfold following
  cases x.value with
  | error e => exact fun step => keepsFiles_records
  | ok a =>
      intro step hstep
      rcases List.mem_append.1 hstep with hrecord | hnext'
      · exact keepsFiles_records hrecord
      · exact hnext a step hnext'

end Plan

namespace Command

/-- The command only reads. -/
def Reads : Command → Prop
  | .install _ | .addGrammar _ => False
  | _ => True

theorem keepsFiles_withGrammar (h : Host) (source : String) {next : Grammar → Plan}
    (hnext : ∀ g, (next g).KeepsFiles) : (withGrammar h source next).KeepsFiles := by
  unfold withGrammar
  cases Source.loadWithin h source with
  | ok g => exact hnext g
  | error stop =>
      cases stop with
      | failure f => exact Plan.keepsFiles_failing f.toFailure []
      | fault fault => exact nofun

/-- A command that only reads changes no file. -/
theorem keepsFiles_plan (w : World) (s : Settings) {command : Command} (hreads : command.Reads) :
    (command.plan w s).KeepsFiles := by
  unfold plan
  cases command with
  | complete query =>
      unfold planCompletion
      refine Plan.keepsFiles_following _ fun engine step hstep => ?_
      simp only [Plan.ofSteps, List.mem_append] at hstep
      rcases hstep with (hrecord | hremark) | hprint
      · exact Plan.keepsFiles_records hrecord
      · obtain ⟨r, -, rfl⟩ := Option.map_eq_some_iff.1 (Option.mem_toList.1 hremark)
        trivial
      · -- nothing is printed if there is no candidate
        rw [List.mem_ite_nil_left, List.mem_singleton] at hprint
        obtain ⟨-, rfl⟩ := hprint
        trivial
  | install shell => exact hreads.elim
  | showScript shell =>
      unfold planShowScript
      dsimp only
      cases Shell.ofUser shell with
      | error f => exact Plan.keepsFiles_failing f []
      | ok shell =>
          exact Plan.keepsFiles_following _ fun engine => List.forall_mem_singleton.2 trivial
  | listGrammars =>
      unfold planList
      exact Plan.keepsFiles_following _ fun engine => List.forall_mem_singleton.2 trivial
  | showGrammar name =>
      unfold planShowGrammar
      refine Plan.keepsFiles_following _ fun engine => ?_
      cases engine.registry.get name with
      | error f => exact Plan.keepsFiles_failing f _
      | ok g => exact List.forall_mem_singleton.2 trivial
  | checkGrammar source =>
      unfold planCheck
      exact keepsFiles_withGrammar (w []) source fun g => List.forall_mem_singleton.2 trivial
  | addGrammar source => exact hreads.elim

end Command

namespace Run

/-! ## Runs that change no file -/

/-- No file is named for the journal by the settings that are found for the arguments. -/
def KeepsNoJournal (h : Host) (args : List String) : Prop :=
  ∀ f name rest s problem, readFlags args = .ok (.run (f, name, rest)) →
    settings h f = .ok (s, problem) → s.logFile = none ∨ s.logFile = some ""

/-- The disk after an attempt, be it interrupted or not. -/
def diskAfter : Except Interruption Outcome → Disk
  | .ok o => o.disk
  | .error i => i.progress.disk

section

variable {h : Host} {args : List String}

theorem setUp_of_noJournal (h : Host) (verbose : Bool) {path : Option String}
    (hpath : path = none ∨ path = some "") :
    ∃ outlets, Outlets.setUp h verbose path = .ok (h.disk, pure outlets) ∧ outlets.file = none := by
  rcases hpath with rfl | rfl
  · exact ⟨_, rfl, rfl⟩
  · exact ⟨_, rfl, rfl⟩

theorem keepsFiles_openingSteps (records : List Record) (problem : Option String) :
    ∀ step ∈ openingSteps records problem, step.KeepsFiles := by
  intro step hstep
  rcases List.mem_append.1 hstep with hrecord | hwarning
  · exact Plan.keepsFiles_records hrecord
  · obtain ⟨message, -, rfl⟩ := Option.map_eq_some_iff.1 (Option.mem_toList.1 hwarning)
    trivial

theorem disk_attemptOn {stage : Stage} (hfile : stage.outlets.file = none) (s : Settings)
    (p : Progress) {name : String} {rest : List String}
    (hreads : ∀ command, Command.read h.integerOf name rest = .ok (.run command) → command.Reads) :
    diskAfter (attemptOn h stage s p name rest) = p.disk := by
  unfold attemptOn
  split
  · rfl
  · rfl
  · rfl
  · next command hread =>
      have hdisk := Stage.disk_carryOut hfile p
        (Command.keepsFiles_plan (stage.world h p.disk) s (hreads command hread))
      split
      · next hdone =>
          rw [hdone] at hdisk
          exact hdisk
      · next hdone =>
          rw [hdone] at hdisk
          exact hdisk

/-- An attempt at a command that only reads leaves the disk as it was, be it interrupted or not. -/
theorem disk_attempt (hreads : ∀ f command, Asks h args f command → command.Reads)
    (hjournal : KeepsNoJournal h args) : diskAfter (attempt h args) = h.disk := by
  unfold attempt
  split
  · rfl
  · rfl
  · rfl
  · next f name rest hflags =>
      unfold attemptWith
      split
      · rfl
      · next s problem hsettings =>
          -- without a file, setting up the journal changes nothing, and none of the steps does
          obtain ⟨outlets, hsetUp, hfile⟩ :=
            setUp_of_noJournal h f.verbose (hjournal f name rest s problem hflags hsettings)
          rw [hsetUp]
          dsimp only
          have hnone : (stageOf h f s outlets).outlets.file = none := hfile
          have hopening := Stage.disk_takeAll hnone { disk := h.disk }
            (keepsFiles_openingSteps [] problem)
          split
          · next hstopped =>
              exact (congrArg (fun done => done.1.disk) hstopped).symm.trans hopening
          · next hopened =>
              refine (disk_attemptOn hfile s _ fun command hread => ?_).trans
                ((congrArg (fun done => done.1.disk) hopened).symm.trans hopening)
              exact hreads f command (.intro hflags hread)

/-- Without a file for the journal, a run that asks only for commands that read leaves all files as
they were, unless it meets a fault. If it does, then nothing is new but the crash log and
directories on the way to it. -/
theorem keeps_files (hreads : ∀ f command, Asks h args f command → command.Reads)
    (hjournal : KeepsNoJournal h args) :
    ((∀ fault, ¬ Crashes h args fault) → (run h args).disk = h.disk) ∧
      ∀ fault, Crashes h args fault →
        Crash.OnlyLog h.environment h.stamp fault h.disk (run h args).disk := by
  have hdisk := disk_attempt hreads hjournal
  rw [run_eq_settle_attempt]
  constructor
  · intro hno
    cases hattempt : attempt h args with
    | ok o =>
        rw [hattempt] at hdisk
        exact hdisk
    | error i =>
        -- nothing but a fault would have escaped
        obtain ⟨fault, hfault⟩ := exists_fault_of_attempt hattempt
        exact absurd ⟨i, hattempt, hfault⟩ (hno fault)
  · rintro fault ⟨i, hattempt, hfault⟩
    have honly := Crash.onlyLog_write h.environment h.stamp i.progress.disk fault
    rw [hattempt] at hdisk ⊢
    rw [show i.progress.disk = h.disk from hdisk] at honly
    rw [settle, hfault, disk_conclude_fault, show i.progress.disk = h.disk from hdisk]
    exact honly

end

/-- Arguments that ask for a command that reads ask for no other one. -/
theorem reads_of_asks {h : Host} {args : List String} {f : Flags} {command : Command}
    (hasks : Asks h args f command) (hreads : command.Reads) :
    ∀ f' command', Asks h args f' command' → command'.Reads := by
  obtain ⟨hflags, hcommand⟩ := hasks
  rintro f' command' ⟨hflags', hcommand'⟩
  rw [hflags] at hflags'
  cases hflags'
  rw [hcommand] at hcommand'
  cases hcommand'
  exact hreads

theorem keepsNoJournal_of_flags {h : Host} {args : List String} {f : Flags} {name : String}
    {rest : List String} (hflags : readFlags args = .ok (.run (f, name, rest)))
    (hjournal : ∀ s problem, settings h f = .ok (s, problem) → s.logFile = none) :
    KeepsNoJournal h args := by
  intro f' name' rest' s problem hflags' hsettings
  rw [hflags] at hflags'
  cases hflags'
  exact .inl (hjournal s problem hsettings)

/-- A request that is answered leaves the files as they were. A check that does not find the
settings leaves a crash log behind, and nothing else. -/
theorem keeps_files_sampleHosts :
    ((∀ f command, Asks bareHost ["complete", "--", "peerd", "--ov"] f command → command.Reads) ∧
      KeepsNoJournal bareHost ["complete", "--", "peerd", "--ov"] ∧
      (run bareHost ["complete", "--", "peerd", "--ov"]).disk = bareHost.disk) ∧
    (∀ f command, Asks (goodHost lostEnvironment) ["grammar", "check", "good.json"] f command →
        command.Reads) ∧
      KeepsNoJournal (goodHost lostEnvironment) ["grammar", "check", "good.json"] ∧
      Crashes (goodHost lostEnvironment) ["grammar", "check", "good.json"] .noHome ∧
      Crash.OnlyLog lostEnvironment "" .noHome (goodHost lostEnvironment).disk
        (run (goodHost lostEnvironment) ["grammar", "check", "good.json"]).disk := by
  have hcomplete : ∀ f command, Asks bareHost ["complete", "--", "peerd", "--ov"] f command →
      command.Reads := reads_of_asks (.intro readFlags_sample read_sample) trivial
  have hcheck : ∀ f command, Asks (goodHost lostEnvironment) ["grammar", "check", "good.json"] f
      command → command.Reads := reads_of_asks (asks_check _) trivial
  have hbare : KeepsNoJournal bareHost ["complete", "--", "peerd", "--ov"] := by
    refine keepsNoJournal_of_flags readFlags_sample fun s problem hsettings => ?_
    rw [settings_bareHost] at hsettings
    cases hsettings
    rfl
  have hlost : KeepsNoJournal (goodHost lostEnvironment) ["grammar", "check", "good.json"] := by
    refine keepsNoJournal_of_flags (readFlags_grammar "check" (by decide))
      fun s problem hsettings => ?_
    rw [settings_lostHost] at hsettings
    cases hsettings
  have hno : ∀ fault, ¬ Crashes bareHost ["complete", "--", "peerd", "--ov"] fault := by
    intro fault hcrashes
    have hcode := exitCode_of_crashes hcrashes
    rw [(run_of_answered readFlags_sample read_sample answered_bareHost).1] at hcode
    cases hcode
  have hcrashes : Crashes (goodHost lostEnvironment) ["grammar", "check", "good.json"] .noHome := by
    unfold Crashes attempt
    rw [readFlags_grammar "check" (by decide)]
    dsimp only
    rw [attemptWith, settings_lostHost]
    exact ⟨_, rfl, rfl⟩
  exact ⟨⟨hcomplete, hbare, (keeps_files hcomplete hbare).1 hno⟩,
    hcheck, hlost, hcrashes, (keeps_files hcheck hlost).2 .noHome hcrashes⟩

end Run

end TabCompletion
