import TabCompletion.Proofs.Completion
import TabCompletion.Proofs.Precedence

/-!
# Broken files of settings

A run whose file of settings is broken goes on. The flags and the environment should then count as
they do if there is no file (`Run.Obeys`), but they are passed over with the file: such a run takes
the defaults, and is the same whatever its flags say of tables and of the journal. So the settings
of a run obey the layers exactly if the file is not broken or nothing but the defaults is asked for
(`Run.obeys_settings_iff`).
-/

namespace TabCompletion

namespace Run

variable {h : Host} {f : Flags} {s : Settings} {path : Path} {problem : Option String}

/-- The settings are those in effect for what the file of settings says, which is nothing if it is
broken. -/
inductive Obeys (h : Host) (f : Flags) (s : Settings) : Prop
  | stated {path : Path} {c : SettingsContent} (hfile : Settings.file h = .ok path)
      (hc : Settings.Stated h path c)
      (heffect : Settings.InEffect f.choices h.environment c s) : Obeys h f s
  | broken {path : Path} {problem : Settings.FileProblem} (hfile : Settings.file h = .ok path)
      (hproblem : Settings.Broken h path problem)
      (heffect : Settings.InEffect f.choices h.environment {} s) : Obeys h f s

/-- Neither the flags nor the environment ask for anything but the defaults. -/
structure AsksForDefaults (f : Flags) (env : Environment) : Prop where
  tables : f.json = false ∧ f.plain = false
  journal : f.logFile = none ∧ env.SaysText "PEERCOMP_LOG_FILE" none
  marks : ¬ env.SaysFlag "PEERCOMP_MARK_DIRECTORIES" (some true)
  hidden : ¬ env.SaysFlag "PEERCOMP_SHOW_HIDDEN" (some false)

/-- The flags without what they say of settings. -/
def unchosen (f : Flags) : Flags := { f with json := false, plain := false, logFile := none }

/-! ## Defaults -/

theorem format_choices_eq_auto_iff :
    (f.choices.format.or none).getD "auto" = "auto" ↔ f.json = false ∧ f.plain = false := by
  unfold Flags.choices
  cases f.json <;> cases f.plain <;> simp

theorem getD_eq_iff_not_saysFlag {env : Environment} {name : String} {default : Bool} :
    (∃ said, env.SaysFlag name said ∧ default = (said.or none).getD default) ↔
      ¬ env.SaysFlag name (some !default) := by
  simp only [Environment.saysFlag_iff, exists_eq_left, Option.or_none]
  cases env.flag? name with
  | none => simp
  | some b => cases b <;> cases default <;> decide

/-- The defaults are in effect if nothing is said by a file exactly if nothing else is asked for. -/
theorem inEffect_defaults_iff {env : Environment} :
    Settings.InEffect f.choices env {} {} ↔ AsksForDefaults f env := by
  have hjournal : (∃ said, env.SaysText "PEERCOMP_LOG_FILE" said ∧
      none = f.choices.logFile.or (said.or none)) ↔
      f.logFile = none ∧ env.SaysText "PEERCOMP_LOG_FILE" none := by
    simp only [Option.or_none, eq_comm (a := none), Option.or_eq_none_iff]
    exact ⟨fun ⟨said, hsaid, hflag, hnone⟩ => ⟨hflag, hnone ▸ hsaid⟩,
      fun ⟨hflag, hsaid⟩ => ⟨none, hsaid, hflag, rfl⟩⟩
  constructor
  · rintro ⟨hlog, hmarks, hshows, hformat, -⟩
    exact ⟨format_choices_eq_auto_iff.1 hformat.symm, hjournal.1 hlog,
      getD_eq_iff_not_saysFlag.1 hmarks, getD_eq_iff_not_saysFlag.1 hshows⟩
  · rintro ⟨htables, hlog, hmarks, hshows⟩
    exact ⟨hjournal.2 hlog, getD_eq_iff_not_saysFlag.2 hmarks, getD_eq_iff_not_saysFlag.2 hshows,
      (format_choices_eq_auto_iff.2 htables).symm, rfl⟩

/-! ## The settings of a run -/

/-- A run whose settings are found has stack enough for their file. -/
theorem not_exhausts_of_settings (hsettings : settings h f = .ok (s, problem)) :
    Settings.exhausts h = false := by
  rw [Bool.eq_false_iff]
  intro hdeep
  rw [settings, if_pos hdeep] at hsettings
  cases hsettings

/-- If the file is not broken, the settings of the run are those in effect for what it says. -/
theorem settings_of_stated (hdeep : Settings.exhausts h = false)
    (hfile : Settings.file h = .ok path) {c : SettingsContent}
    (hc : Settings.Stated h path c) (f : Flags) :
    ∃ s, settings h f = .ok (s, none) ∧ Settings.InEffect f.choices h.environment c s := by
  refine ⟨_, ?_, Settings.inEffect_withChoices f.choices h.environment c⟩
  rw [settings_of_shallow hdeep, Settings.resolve, Settings.load_of_stated hfile hc]
  rfl

/-- If the file is broken, the settings of the run are the defaults. -/
theorem settings_of_broken (hdeep : Settings.exhausts h = false)
    (hfile : Settings.file h = .ok path) {problem : Settings.FileProblem}
    (hproblem : Settings.Broken h path problem) (f : Flags) :
    settings h f = .ok ({}, some (Settings.fileFailure path problem).message) := by
  rw [settings_of_shallow hdeep, Settings.resolve, Settings.load_of_broken hfile hproblem]
  rfl

/-- If settings are found it is known where their file is and whether it is there. -/
theorem exists_file_of_settings (hsettings : settings h f = .ok (s, problem)) :
    ∃ path there, Settings.file h = .ok path ∧ h.disk.isFile path.text = .ok there := by
  -- a fault in finding the file is no error of its content, and is passed on
  rw [settings_of_shallow (not_exhausts_of_settings hsettings)] at hsettings
  unfold Settings.resolve Settings.load at hsettings
  cases hfile : Settings.file h with
  | error fault =>
      rw [hfile] at hsettings
      cases hsettings
  | ok path =>
      rw [hfile] at hsettings
      dsimp only at hsettings
      cases hthere : h.disk.isFile path.text with
      | error fault =>
          rw [hthere] at hsettings
          cases hsettings
      | ok there => exact ⟨path, there, rfl, hthere⟩

theorem not_broken_of_stated (hfile : Settings.file h = .ok path) {c : SettingsContent}
    (hc : Settings.Stated h path c) (problem : Settings.FileProblem) :
    ¬ Settings.Broken h path problem := by
  intro hproblem
  have hload := Settings.load_of_stated hfile hc
  rw [Settings.load_of_broken hfile hproblem] at hload
  cases hload

/-- What the flags say of settings is passed over if the file is broken. -/
theorem withFlags_of_broken (hdeep : Settings.exhausts h = false)
    (hfile : Settings.file h = .ok path) {problem : Settings.FileProblem}
    (hproblem : Settings.Broken h path problem) (f : Flags) (name : String) (args : List String) :
    withFlags h f name args = withFlags h (unchosen f) name args := by
  rw [withFlags, withFlags, settings_of_broken hdeep hfile hproblem,
    settings_of_broken hdeep hfile hproblem]
  rfl

/-- The settings of a run obey the layers exactly if their file is not broken or nothing but the
defaults is asked for. If it is broken the defaults are taken and the flags do not count. -/
theorem obeys_settings_iff (hsettings : settings h f = .ok (s, problem)) :
    (Obeys h f s ↔ problem = none ∨ AsksForDefaults f h.environment) ∧
    (∃ path, Settings.file h = .ok path ∧
      ((problem = none ∧ ∃ c, Settings.Stated h path c) ∨
        ∃ reason, Settings.Broken h path reason ∧ s = {} ∧
          problem = some (Settings.fileFailure path reason).message ∧
          ∀ name args, withFlags h f name args = withFlags h (unchosen f) name args)) := by
  have hdeep := not_exhausts_of_settings hsettings
  obtain ⟨path, there, hfile, hthere⟩ := exists_file_of_settings hsettings
  rcases Settings.stated_or_broken hthere with ⟨c, hc⟩ | ⟨reason, hreason⟩
  · -- the file is of use, or is not there
    obtain ⟨found, hfound, heffect⟩ := settings_of_stated hdeep hfile hc f
    rw [hfound] at hsettings
    cases hsettings
    exact ⟨iff_of_true (.stated hfile hc heffect) (.inl rfl), path, hfile, .inl ⟨rfl, c, hc⟩⟩
  · -- the file is broken, and the defaults are taken
    rw [settings_of_broken hdeep hfile hreason] at hsettings
    cases hsettings
    refine ⟨?_, path, hfile,
      .inr ⟨reason, hreason, rfl, rfl, withFlags_of_broken hdeep hfile hreason f⟩⟩
    rw [← inEffect_defaults_iff]
    constructor
    · rintro (⟨hfile', hc, -⟩ | ⟨-, -, heffect⟩)
      · rw [hfile] at hfile'
        cases hfile'
        exact absurd hreason (not_broken_of_stated hfile hc reason)
      · exact .inr heffect
    · rintro (hnone | heffect)
      · cases hnone
      · exact .broken hfile hreason heffect

/-! ### A host with a broken file -/

/-- What the file holds. -/
def brokenText : String := "\x7bbroken"

/-- A host whose file of settings is broken. -/
def brokenHost : Host where
  environment := sampleEnvironment
  disk :=
    { tree := ⟨[(["config"], .directory), (["config", "peercomp"], .directory),
        (settingsPath.parts, .file (Text.Utf8.encode brokenText))]⟩
      cwd := [] }

/-- What keeps the file from being of use. -/
def brokenProblem : Settings.FileProblem := .notJson ⟨.propertyName, 1, 1, 2⟩

theorem file_brokenHost : Settings.file brokenHost = .ok settingsPath := by decide

theorem broken_brokenHost : Settings.Broken brokenHost settingsPath brokenProblem := by
  have hreaches : brokenHost.disk.Reaches settingsPath.text settingsPath.parts := by decide
  have hlocate : brokenHost.disk.locate true settingsPath.text =
      .ok (.found settingsPath.parts (.file (Text.Utf8.encode brokenText))) :=
    hreaches.locate (by decide) (by simp) true
  have hgrants := Disk.grantsReading_of_refusals_eq_nil (d := brokenHost.disk) rfl settingsPath.text
  exact .notJson (Disk.isFile_of_locate hgrants.look hlocate)
    (Disk.read_of_locate hgrants.read hlocate)
    (Text.Utf8.decode_encode brokenText) (by cbv)

/-- The warning on the file. -/
def brokenMessage : String :=
  "Invalid global config at config/peercomp/config.json: Expecting property name enclosed in " ++
    "double quotes: line 1 column 2 (char 1)"

theorem settings_brokenHost (f : Flags) : settings brokenHost f = .ok ({}, some brokenMessage) := by
  have hmessage : (Settings.fileFailure settingsPath brokenProblem).message = brokenMessage := by
    decide
  rw [settings_of_broken (Settings.exhausts_of_stack rfl) file_brokenHost broken_brokenHost,
    hmessage]

theorem obeys_settings_brokenHost :
    settings brokenHost { json := true } = .ok ({}, some brokenMessage) ∧
      (Obeys brokenHost { json := true } {} ↔
        some brokenMessage = none ∨ AsksForDefaults { json := true } sampleEnvironment) ∧
      withFlags brokenHost { json := true } "grammar" ["list"] =
        withFlags brokenHost {} "grammar" ["list"] := by
  have hsettings := settings_brokenHost { json := true }
  obtain ⟨hobeys, path, -, ⟨hnone, -⟩ | ⟨reason, -, -, -, hruns⟩⟩ := obeys_settings_iff hsettings
  · cases hnone
  · exact ⟨hsettings, hobeys, hruns "grammar" ["list"]⟩

/-- Tables should be printed as JSON, but are not. -/
theorem not_obeys_brokenHost :
    readFlags ["--json", "grammar", "list"] =
        .ok (.run ({ json := true }, "grammar", ["list"])) ∧
      settings brokenHost { json := true } = .ok ({}, some brokenMessage) ∧
      (reporter brokenHost { json := true } {}).format = .plain ∧
      ¬ Obeys brokenHost { json := true } {} := by
  refine ⟨by decide, settings_brokenHost { json := true }, by decide, ?_⟩
  rintro (⟨hfile, hc, -⟩ | ⟨-, -, heffect⟩)
  · rw [file_brokenHost] at hfile
    cases hfile
    exact not_broken_of_stated file_brokenHost hc _ broken_brokenHost
  · exact absurd (inEffect_defaults_iff.1 heffect).tables.1 (by decide)

end Run

end TabCompletion
