import TabCompletion.Proofs.CheckedGrammars

/-!
# Attempts

A run attempts what the command line asks. The attempt comes to an outcome of its own, or it is
interrupted by something that escapes from it; the run then has to deal with that
(`Run.run_eq_settle_attempt`). Attempts are orderly: an outcome of their own is an exit, and as
commands report failures themselves, only faults escape (`Run.isOrderly_attempt`).
-/

namespace TabCompletion

/-- The run ends by an exit, with its exit code. -/
def Ending.IsExit : Ending → Prop
  | .lost _ => False
  | _ => True

namespace Run

/-- What interrupts a run: how the program reports by then, what is done so far, and what
escaped. -/
structure Interruption where
  reporter : Reporter
  progress : Progress
  escape : Escape

/-- What comes of the command of that name with its arguments, on a stage that is set. -/
def attemptOn (h : Host) (stage : Stage) (s : Settings) (p : Progress) (name : String)
    (args : List String) : Except Interruption Outcome :=
  match Command.read h.integerOf name args with
  | .error misuse => .ok (p.finish (.misuse misuse))
  | .ok .help => .ok (p.finish .help)
  | .ok .version => .ok ((p.print (version ++ "\n")).finish (.exit 0))
  | .ok (.run command) =>
    match stage.carryOut p (command.plan (stage.world h p.disk) s) with
    | (p, .ok code) => .ok (p.finish (.exit code))
    | (p, .error e) => .error ⟨stage.reporter, p, e⟩

/-- What comes of a command line behind its flags. -/
def attemptWith (h : Host) (f : Flags) (name : String) (args : List String) :
    Except Interruption Outcome :=
  match settings h f with
  | .error e => .error ⟨Reporter.standard h, { disk := h.disk }, e⟩
  | .ok (s, problem) =>
    match Outlets.setUp h f.verbose s.logFile with
    | .error fault => .error ⟨reporter h f s, { disk := h.disk }, .fault fault⟩
    | .ok (disk, outlets) =>
      let stage := stageOf h f s outlets.value
      match stage.takeAll { disk } (openingSteps outlets.records problem) with
      | (p, some fault) => .error ⟨stage.reporter, p, .fault fault⟩
      | (p, none) => attemptOn h stage s p name args

/-- What comes of a command line, before anything that escapes is dealt with. -/
def attempt (h : Host) (args : List String) : Except Interruption Outcome :=
  let start : Progress := { disk := h.disk }
  match readFlags args with
  | .error misuse => .ok (start.finish (.misuse misuse))
  | .ok .help => .ok (start.finish .help)
  | .ok .version => .ok ((start.print (version ++ "\n")).finish (.exit 0))
  | .ok (.run (f, name, rest)) => attemptWith h f name rest

/-- The outcome of an attempt, or that of dealing with what escaped from it. -/
def settle (h : Host) : Except Interruption Outcome → Outcome
  | .ok o => o
  | .error i => conclude h i.reporter i.progress (.error i.escape)

theorem onStage_eq_settle (h : Host) (stage : Stage) (s : Settings) (p : Progress) (name : String)
    (args : List String) :
    onStage h stage s p name args = settle h (attemptOn h stage s p name args) := by
  unfold onStage attemptOn
  cases Command.read h.integerOf name args with
  | error misuse => rfl
  | ok asked =>
      cases asked with
      | help => rfl
      | version => rfl
      | run command =>
          dsimp only
          -- the command ends with an exit code, or something escapes from it
          cases stage.carryOut p (command.plan (stage.world h p.disk) s) with
          | mk p ending => cases ending <;> rfl

theorem withFlags_eq_settle (h : Host) (f : Flags) (name : String) (args : List String) :
    withFlags h f name args = settle h (attemptWith h f name args) := by
  unfold withFlags attemptWith
  cases settings h f with
  | error e => rfl
  | ok found =>
      dsimp only
      cases Outlets.setUp h f.verbose found.1.logFile with
      | error fault => rfl
      | ok journal =>
          dsimp only
          unfold stageOf
          cases Stage.takeAll ⟨reporter h f found.1, journal.2.value, h.stamp⟩
              { disk := journal.1 } (openingSteps journal.2.records found.2) with
          | mk p stopped =>
              cases stopped with
              | some fault => rfl
              | none => exact onStage_eq_settle ..

/-- A run makes an attempt and deals with what escapes from it. -/
theorem run_eq_settle_attempt (h : Host) (args : List String) :
    run h args = settle h (attempt h args) := by
  unfold run attempt
  cases readFlags args with
  | error misuse => rfl
  | ok asked =>
      cases asked with
      | help => rfl
      | version => rfl
      | run flags => exact withFlags_eq_settle ..

/-! ## What escapes -/

/-- What keeps an engine from being made is a fault. -/
theorem exists_fault_of_inWorld {w : World} {s : Settings} {e : Escape}
    (he : (Engine.inWorld w s).value = .error e) : ∃ fault, e = .fault fault := by
  rw [Engine.inWorld, Logged.value_bind] at he
  cases hregistry : (Library.registryIn w s).value with
  | ok r =>
      rw [hregistry] at he
      cases he
  | error e' =>
      rw [hregistry] at he
      cases he
      exact Library.exists_fault_of_registryBy hregistry

end Run

namespace Plan

/-- If the plan ends in anything but an exit code, then in a fault: it reports the failures that it
meets. -/
def Reports (plan : Plan) : Prop := ∀ e, plan.ending = .error e → ∃ fault, e = .fault fault

theorem reports_ofSteps (steps : List Step) : (ofSteps steps).Reports := nofun

theorem reports_failing (f : Failure) (hints : List String) : (failing f hints).Reports := nofun

theorem reports_fault (fault : Fault) : Reports ⟨[], .error (.fault fault)⟩ := by
  rintro e ⟨⟩
  exact ⟨fault, rfl⟩

theorem reports_following {α : Type} {x : Logged (Except Escape α)} {next : α → Plan}
    (hx : ∀ e, x.value = .error e → ∃ fault, e = .fault fault) (hnext : ∀ a, (next a).Reports) :
    (following x next).Reports := by
  unfold following
  cases hvalue : x.value with
  | error e =>
      rintro e' ⟨⟩
      exact hx e hvalue
  | ok a => exact hnext a

end Plan

/-- A plan that reports its failures is kept from ending only by a fault. -/
theorem Stage.exists_fault_of_carryOut {stage : Stage} {p p' : Progress} {plan : Plan} {e : Escape}
    (hplan : plan.Reports) (hdone : stage.carryOut p plan = (p', .error e)) :
    ∃ fault, e = .fault fault := by
  unfold carryOut at hdone
  cases htaken : stage.takeAll p plan.steps with
  | mk done stopped =>
      rw [htaken] at hdone
      cases stopped with
      | some fault =>
          cases hdone
          exact ⟨fault, rfl⟩
      -- all steps are taken, so what is left is the ending of the plan
      | none => exact hplan e (congrArg Prod.snd hdone)

namespace Command

variable (w : World) (s : Settings)

theorem reports_withGrammar (h : Host) (source : String) {next : Grammar → Plan}
    (hnext : ∀ g, (next g).Reports) : (withGrammar h source next).Reports := by
  unfold withGrammar
  cases Source.loadWithin h source with
  | ok g => exact hnext g
  | error stop =>
      cases stop with
      | failure f => exact Plan.reports_failing f.toFailure []
      | fault fault => exact Plan.reports_fault fault

/-- Every command reports the failures that it meets. -/
theorem reports_plan (command : Command) : (command.plan w s).Reports := by
  have hengine : ∀ e, (Engine.inWorld w s).value = .error e → ∃ fault, e = .fault fault :=
    fun _ => Run.exists_fault_of_inWorld
  unfold plan
  cases command with
  | complete query =>
      unfold planCompletion
      exact Plan.reports_following hengine fun engine => Plan.reports_ofSteps _
  | install shell =>
      unfold planInstall
      dsimp only
      split
      · exact Plan.reports_failing _ []
      · refine Plan.reports_following hengine fun engine => ?_
        split
        · exact Plan.reports_fault _
        · exact Plan.reports_ofSteps _
  | showScript shell =>
      unfold planShowScript
      dsimp only
      split
      · exact Plan.reports_failing _ []
      · exact Plan.reports_following hengine fun engine => Plan.reports_ofSteps _
  | listGrammars =>
      unfold planList
      exact Plan.reports_following hengine fun engine => Plan.reports_ofSteps _
  | showGrammar name =>
      unfold planShowGrammar
      refine Plan.reports_following hengine fun engine => ?_
      split
      · exact Plan.reports_failing _ _
      · exact Plan.reports_ofSteps _
  | checkGrammar source =>
      unfold planCheck
      exact reports_withGrammar (w []) source fun g => Plan.reports_ofSteps _
  | addGrammar source =>
      unfold planAdd
      refine reports_withGrammar (w []) source fun g => ?_
      split
      · exact Plan.reports_fault _
      · exact Plan.reports_ofSteps _

end Command

namespace Run

/-- The attempt ends by an exit, or a fault interrupts it. -/
def IsOrderly : Except Interruption Outcome → Prop
  | .ok o => o.ending.IsExit
  | .error i => ∃ fault, i.escape = .fault fault

theorem isOrderly_attemptOn (h : Host) (stage : Stage) (s : Settings) (p : Progress) (name : String)
    (args : List String) : IsOrderly (attemptOn h stage s p name args) := by
  unfold attemptOn
  split
  · trivial
  · trivial
  · trivial
  · next command _ =>
      split
      · trivial
      · next hdone => exact Stage.exists_fault_of_carryOut (command.reports_plan _ s) hdone

/-- Every attempt is orderly. -/
theorem isOrderly_attempt (h : Host) (args : List String) : IsOrderly (attempt h args) := by
  unfold attempt
  split
  · trivial
  · trivial
  · trivial
  · unfold attemptWith
    split
    · next hsettings => exact settings_eq_error hsettings
    · split
      · exact ⟨_, rfl⟩
      · dsimp only
        split
        · exact ⟨_, rfl⟩
        · exact isOrderly_attemptOn ..

section

variable {h : Host} {args : List String}

/-- Only faults escape from an attempt. -/
theorem exists_fault_of_attempt {i : Interruption} (hattempt : attempt h args = .error i) :
    ∃ fault, i.escape = .fault fault := by
  have horderly := isOrderly_attempt h args
  rwa [hattempt] at horderly

end

/-! ## Runs that are interrupted -/

/-- The run is interrupted by a fault. -/
def Crashes (h : Host) (args : List String) (fault : Fault) : Prop :=
  ∃ i, attempt h args = .error i ∧ i.escape = .fault fault

/-- A run that is interrupted by a fault ends with the exit code 1. -/
theorem exitCode_of_crashes {h : Host} {args : List String} {fault : Fault}
    (hcrashes : Crashes h args fault) : (run h args).ending.exitCode = 1 := by
  obtain ⟨i, hattempt, hfault⟩ := hcrashes
  rw [run_eq_settle_attempt, hattempt, settle, hfault]
  exact exitCode_conclude_fault ..

end Run

end TabCompletion
