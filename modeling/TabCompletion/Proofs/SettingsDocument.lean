import TabCompletion.Proofs.Validation
import TabCompletion.Settings.Basic

/-!
# The documents that are settings

A document says settings in a fixed form (`SettingsForm`): a record in which every field and
every section may be left out, and in a section every field again. What it says is therefore
partial (`SettingsContent`), and what it leaves out has its default. The main statement is that
`Settings.ofDocument` accepts exactly the JSON documents of this form
(`Settings.ofDocument_iff_form`).
-/

namespace TabCompletion

open Validation

/-- What a document says of settings, as far as it says it. Further grammar documents that it does
not name are none. -/
structure SettingsContent where
  markDirectories : Option Bool := none
  showHidden : Option Bool := none
  format : Option String := none
  grammarFiles : List String := []
  logFile : Option String := none

/-- The settings with defaults for what is not said. -/
def SettingsContent.orDefaults (c : SettingsContent) : Settings where
  path :=
    { markDirectories := c.markDirectories.getD false
      showHidden := c.showHidden.getD true }
  format := c.format.getD "auto"
  grammarFiles := c.grammarFiles
  logFile := c.logFile

/-! ## Forms -/

/-- The document is this truth value: the value itself or the number for it, or one of its words. -/
inductive TruthForm : Document → Bool → Prop
  | whole {d : Document} {b : Bool} (h : d.whole? = some (if b then 1 else 0)) : TruthForm d b
  | word {s : String} {b : Bool}
      (h : truthWords.lookup (String.ofList (s.toList.map Char.toLower)) = some b) :
      TruthForm (.text s) b

/-- The document says the value in the form, as the value of a field that may be left out. -/
def Given {α : Type} (form : Document → α → Prop) (d : Document) (said : Option α) : Prop :=
  ∃ a, form d a ∧ said = some a

/-- The document says of paths whether directories are marked and whether hidden entries are
offered. -/
inductive PathsForm : Document → Option Bool × Option Bool → Prop
  | record {entries : List (Document × Document)} {said : Option Bool × Option Bool}
      (hm : FieldForm "mark_directories" (Given TruthForm) (some none) entries said.1)
      (hs : FieldForm "show_hidden" (Given TruthForm) (some none) entries said.2) :
      PathsForm (.map entries) said

/-- The document says of tables which format they have. -/
inductive FormatForm : Document → Option String → Prop
  | record {entries : List (Document × Document)} {said : Option String}
      (hf : FieldForm "format" (Given StringForm) (some none) entries said) :
      FormatForm (.map entries) said

/-- The document says this of settings. The file of the journal is given by a string or by
nothing. -/
inductive SettingsForm : Document → SettingsContent → Prop
  | record {entries : List (Document × Document)} {c : SettingsContent}
      (hp : FieldForm "path" PathsForm (some (none, none)) entries
        (c.markDirectories, c.showHidden))
      (ho : FieldForm "output" FormatForm (some none) entries c.format)
      (hg : FieldForm "grammar_files" (ListForm StringForm) (some []) entries c.grammarFiles)
      (hl : FieldForm "log_file" (OrNothing StringForm) (some none) entries c.logFile) :
      SettingsForm (.map entries) c

/-! ## What is read -/

theorem truthOfInt_eq_ok_iff {fits : Bool} {n : Int} {b : Bool} :
    truthOfInt fits n = .ok b ↔ n = if b then 1 else 0 := by
  unfold truthOfInt
  by_cases hzero : n = 0
  · cases b <;> simp [hzero]
  · by_cases hone : n = 1
    · cases b <;> simp [hone]
    · cases b <;> cases fits <;> simp [hzero, hone, refuse]

theorem truthForm_iff_whole (d : Document) (hd : ∀ s, d ≠ .text s) {b : Bool} :
    TruthForm d b ↔ d.whole? = some (if b then 1 else 0) := by
  constructor
  · intro h
    cases h with
    | whole h => exact h
    | word => exact absurd rfl (hd _)
  · exact .whole

theorem readTruth_eq_ok_iff (d : Document) (hd : d.IsJson) (b : Bool) :
    readTruth d = .ok b ↔ TruthForm d b := by
  -- a text has to be one of the words, anything else a whole number that is 0 or 1
  cases hd with
  | text s =>
      constructor
      · intro h
        rw [readTruth] at h
        split at h
        · next hword =>
            cases h
            exact .word hword
        · cases h
      · intro h
        cases h with
        | whole h => cases h
        | word h => rw [readTruth, h]
  | bool b' =>
      rw [truthForm_iff_whole (.bool b') (by simp)]
      cases b' <;> cases b <;> simp [readTruth, Document.whole?]
  | int n =>
      rw [truthForm_iff_whole (.int n) (by simp)]
      simp only [readTruth, Document.whole?, Option.some.injEq]
      exact truthOfInt_eq_ok_iff
  | float x =>
      rw [truthForm_iff_whole (.float x) (by simp)]
      simp only [readTruth, Document.whole?]
      cases x.toInt? with
      | none => simp [refuse]
      | some n =>
          simp only [Option.some.injEq]
          exact truthOfInt_eq_ok_iff
  | null =>
      rw [truthForm_iff_whole .null (by simp)]
      simp [readTruth, Document.whole?, refuse]
  | brokenText codes =>
      rw [truthForm_iff_whole (.brokenText codes) (by simp)]
      simp [readTruth, Document.whole?, refuse]
  | @list items _ =>
      rw [truthForm_iff_whole (.list items) (by simp)]
      simp [readTruth, Document.whole?, refuse]
  | @map entries _ _ =>
      rw [truthForm_iff_whole (.map entries) (by simp)]
      simp [readTruth, Document.whole?, refuse]

section

variable {α β : Type} {entries : List (Document × Document)} {name : String}
  {read : Document → Checked α}

/-- A field whose value follows from what its document says is read as the value that follows from
what the record says. -/
theorem readField_eq_ok_iff_exists (hentries : (Document.map entries).IsJson)
    {form : Document → β → Prop} (f : β → α) (default : β)
    (hform : ∀ d : Document, d.IsJson → ∀ a, read d = .ok a ↔ ∃ b, form d b ∧ f b = a) {a : α} :
    readField name read (some (f default)) entries = .ok a ↔
      ∃ b, FieldForm name form (some default) entries b ∧ f b = a := by
  rw [readField_eq_ok_iff hentries hform]
  constructor
  · rintro (⟨hd, b, hb, rfl⟩ | ⟨hd, ha⟩)
    · exact ⟨b, .given hd hb, rfl⟩
    · exact ⟨default, .absent hd rfl, Option.some.inj ha⟩
  · rintro ⟨b, ⟨hd, hb⟩ | ⟨hd, hb⟩, rfl⟩
    · exact .given hd ⟨b, hb, rfl⟩
    · exact .absent hd (congrArg (Option.map f) hb)

/-- A field that may be left out is read as what the record says, or the default. -/
theorem readField_eq_ok_iff_getD (hentries : (Document.map entries).IsJson)
    {form : Document → α → Prop}
    (hform : ∀ d : Document, d.IsJson → ∀ a, read d = .ok a ↔ form d a) {default a : α} :
    readField name read (some default) entries = .ok a ↔
      ∃ said, FieldForm name (Given form) (some none) entries said ∧ said.getD default = a := by
  refine readField_eq_ok_iff_exists hentries (fun said => said.getD default) none
    fun d hd a => ?_
  rw [hform d hd a]
  constructor
  · exact fun h => ⟨some a, ⟨a, h, rfl⟩, rfl⟩
  · rintro ⟨said, ⟨b, hb, rfl⟩, rfl⟩
    exact hb

end

/-- The settings of paths with defaults for what is not said. -/
def PathSettings.ofSaid (said : Option Bool × Option Bool) : PathSettings :=
  ⟨said.1.getD false, said.2.getD true⟩

theorem PathSettings.read_eq_ok_iff (d : Document) (hd : d.IsJson) (p : PathSettings) :
    PathSettings.read d = .ok p ↔ ∃ said, PathsForm d said ∧ PathSettings.ofSaid said = p := by
  unfold PathSettings.read
  simp only [bind_eq_ok_iff, readRecord_eq_ok_iff]
  constructor
  · rintro ⟨entries, rfl, q, hq, hp⟩
    cases hp
    rw [both_eq_ok_iff, readField_eq_ok_iff_getD hd readTruth_eq_ok_iff,
      readField_eq_ok_iff_getD hd readTruth_eq_ok_iff] at hq
    obtain ⟨⟨marks, hm, hmarks⟩, ⟨shows, hs, hshows⟩⟩ := hq
    refine ⟨(marks, shows), .record hm hs, ?_⟩
    rw [PathSettings.ofSaid, hmarks, hshows]
  · rintro ⟨said, ⟨hm, hs⟩, rfl⟩
    refine ⟨_, rfl, (said.1.getD false, said.2.getD true), ?_, rfl⟩
    rw [both_eq_ok_iff, readField_eq_ok_iff_getD hd readTruth_eq_ok_iff,
      readField_eq_ok_iff_getD hd readTruth_eq_ok_iff]
    exact ⟨⟨said.1, hm, rfl⟩, ⟨said.2, hs, rfl⟩⟩

theorem readFormat_eq_ok_iff (d : Document) (hd : d.IsJson) (format : String) :
    readFormat d = .ok format ↔ ∃ said, FormatForm d said ∧ said.getD "auto" = format := by
  unfold readFormat
  simp only [bind_eq_ok_iff, readRecord_eq_ok_iff]
  constructor
  · rintro ⟨entries, rfl, hf⟩
    obtain ⟨said, hsaid, hformat⟩ := (readField_eq_ok_iff_getD hd readText_eq_ok_iff).1 hf
    exact ⟨said, .record hsaid, hformat⟩
  · rintro ⟨said, ⟨hf⟩, hformat⟩
    exact ⟨_, rfl, (readField_eq_ok_iff_getD hd readText_eq_ok_iff).2 ⟨said, hf, hformat⟩⟩

theorem readPathsField_eq_ok_iff {entries : List (Document × Document)}
    (hentries : (Document.map entries).IsJson) {p : PathSettings} :
    readField "path" PathSettings.read (some {}) entries = .ok p ↔
      ∃ said, FieldForm "path" PathsForm (some (none, none)) entries said ∧
        PathSettings.ofSaid said = p :=
  readField_eq_ok_iff_exists hentries PathSettings.ofSaid (none, none) PathSettings.read_eq_ok_iff

theorem readFormatField_eq_ok_iff {entries : List (Document × Document)}
    (hentries : (Document.map entries).IsJson) {format : String} :
    readField "output" readFormat (some "auto") entries = .ok format ↔
      ∃ said, FieldForm "output" FormatForm (some none) entries said ∧
        said.getD "auto" = format :=
  readField_eq_ok_iff_exists hentries (fun said => said.getD "auto") none readFormat_eq_ok_iff

theorem readGrammarFiles_eq_ok_iff (d : Document) (hd : d.IsJson) (sources : List String) :
    readItems .notList readText d = .ok sources ↔ ListForm StringForm d sources :=
  readItems_eq_ok_iff hd readText_eq_ok_iff

/-- Settings are read from a JSON document exactly if it says them, with defaults for what it
leaves out. -/
theorem Settings.read_eq_ok_iff {d : Document} (hd : d.IsJson) {s : Settings} :
    Settings.read d = .ok s ↔ ∃ c, SettingsForm d c ∧ c.orDefaults = s := by
  have hfields : ∀ entries, d = .map entries → ∀ p,
      both (both (both (readField "path" PathSettings.read (some {}) entries)
        (readField "output" readFormat (some "auto") entries))
        (readField "grammar_files" (readItems .notList readText) (some []) entries))
        (readField "log_file" readOptionalText (some none) entries) = .ok p ↔
      ∃ c, SettingsForm d c ∧ c.orDefaults = ⟨p.1.1.1, p.1.1.2, p.1.2, p.2⟩ := by
    -- the four fields side by side
    rintro entries rfl ⟨⟨⟨path, format⟩, sources⟩, logFile⟩
    simp only [both_eq_ok_iff, readPathsField_eq_ok_iff hd, readFormatField_eq_ok_iff hd,
      readField_eq_ok_iff hd readGrammarFiles_eq_ok_iff,
      readField_eq_ok_iff hd readOptionalText_eq_ok_iff]
    constructor
    · rintro ⟨⟨⟨⟨said, hp, rfl⟩, said', ho, rfl⟩, hg⟩, hl⟩
      exact ⟨⟨said.1, said.2, said', sources, logFile⟩, .record hp ho hg hl, rfl⟩
    · rintro ⟨c, ⟨hp, ho, hg, hl⟩, hc⟩
      cases hc
      exact ⟨⟨⟨⟨_, hp, rfl⟩, _, ho, rfl⟩, hg⟩, hl⟩
  unfold Settings.read
  simp only [bind_eq_ok_iff, readRecord_eq_ok_iff]
  -- a document that is no record is neither read nor of the form
  constructor
  · rintro ⟨entries, rfl, p, hp, hs⟩
    cases hs
    exact (hfields entries rfl p).1 hp
  · rintro ⟨c, hc, rfl⟩
    obtain ⟨entries, rfl⟩ : ∃ entries, d = .map entries := by
      cases hc with
      | record => exact ⟨_, rfl⟩
    exact ⟨entries, rfl, _, (hfields entries rfl (((_, _), _), _)).2 ⟨c, hc, rfl⟩, rfl⟩

/-- A JSON document is accepted exactly if it has the form of settings, and the settings are then
those that it says, with defaults for what it leaves out. -/
theorem Settings.ofDocument_iff_form {d : Document} (hd : d.IsJson) {s : Settings} :
    Settings.ofDocument d = .ok s ↔ ∃ c, SettingsForm d c ∧ c.orDefaults = s := by
  rw [Settings.ofDocument, orRefuse_eq_ok_iff, Settings.read_eq_ok_iff hd]

/-- A JSON document is refused exactly if it does not have the form of settings. -/
theorem Settings.exists_refusal_iff {d : Document} (hd : d.IsJson) :
    (∃ refusal, Settings.ofDocument d = .error refusal) ↔ ∀ c, ¬ SettingsForm d c := by
  cases h : Settings.ofDocument d with
  | ok s =>
      obtain ⟨c, hc, -⟩ := (Settings.ofDocument_iff_form hd).1 h
      exact ⟨nofun, fun hnone => absurd hc (hnone c)⟩
  | error refusal =>
      simp only [Except.error.injEq, exists_eq', true_iff]
      intro c hc
      have hs := (Settings.ofDocument_iff_form hd).2 ⟨c, hc, rfl⟩
      rw [h] at hs
      cases hs

end TabCompletion
