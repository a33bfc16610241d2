import TabCompletion.Proofs.JsonDocument
import TabCompletion.Proofs.JsonReading
import TabCompletion.Proofs.Loading
import TabCompletion.Proofs.SettingsDocument
import TabCompletion.Proofs.Utf8
import TabCompletion.Settings.Resolve

/-!
# What goes before what

Settings are said by the command line, by the environment and by the file of settings; what none
of them says has its default (`Settings.InEffect`). Each of them has its own way of saying nothing:
the command line does not mention the setting, a variable is empty or holds no word for a flag,
the file leaves a field out. Whatever the other two say, settings are found exactly if the file is
of use or is not there, and are then those in effect (`Settings.resolve_eq_iff`).
-/

namespace TabCompletion

namespace Text

/-! ## Blanks at the ends -/

/-- A text is its stripped text between blanks. -/
theorem exists_eq_append_strip (cs : List Char) : ∃ front back,
    cs = front ++ strip cs ++ back ∧ ∀ c ∈ front ++ back, isBlank c = true := by
  have hstart := List.takeWhile_append_dropWhile (p := isBlank) (l := cs)
  have hend := List.takeWhile_append_dropWhile (p := isBlank) (l := (stripStart cs).reverse)
  have hback := congrArg List.reverse hend
  rw [List.reverse_append, List.reverse_reverse] at hback
  refine ⟨cs.takeWhile isBlank, ((stripStart cs).reverse.takeWhile isBlank).reverse, ?_, ?_⟩
  · rw [List.append_assoc, strip, stripEnd, hback]
    exact hstart.symm
  · intro c hc
    rcases List.mem_append.1 hc with hc | hc
    · exact List.mem_takeWhile_imp hc
    · exact List.mem_takeWhile_imp (List.mem_reverse.1 hc)

theorem strip_append {front word back : List Char} (hblank : ∀ c ∈ front ++ back, isBlank c = true)
    (hne : word ≠ []) (hword : ∀ c ∈ word, isBlank c = false) :
    strip (front ++ word ++ back) = word := by
  obtain ⟨hfront, hback⟩ := List.forall_mem_append.1 hblank
  have hkept : ∀ {cs tail : List Char}, cs ≠ [] → (∀ c ∈ cs, isBlank c = false) →
      (cs ++ tail).dropWhile isBlank = cs ++ tail := by
    intro cs tail hcs hall
    obtain ⟨c, rest, rfl⟩ := List.exists_cons_of_ne_nil hcs
    exact List.dropWhile_cons_of_neg (by simp [hall c List.mem_cons_self])
  have hstart : stripStart (front ++ word ++ back) = word ++ back := by
    rw [stripStart, List.append_assoc, List.dropWhile_append_of_pos hfront, hkept hne hword]
  rw [strip, stripEnd, hstart, List.reverse_append,
    List.dropWhile_append_of_pos fun c hc => hback c (List.mem_reverse.1 hc),
    ← List.append_nil word.reverse, hkept (by simpa using hne)
      fun c hc => hword c (List.mem_reverse.1 hc), List.append_nil, List.reverse_reverse]

end Text

namespace Environment

/-! ## What variables say -/

/-- The value is one of the words between blanks, in upper or lower case. -/
def IsWord (words : List String) (value : String) : Prop :=
  ∃ front word back, value.toList = front ++ word ++ back ∧
    (∀ c ∈ front ++ back, Text.isBlank c = true) ∧ String.ofList (word.map Char.toLower) ∈ words

/-- What a variable says of a flag: that it is on, that it is off, or nothing. -/
inductive SaysFlag (env : Environment) (name : String) : Option Bool → Prop
  | on {value : String} (hvalue : env.get? name = some value) (hword : IsWord onWords value) :
      SaysFlag env name (some true)
  | off {value : String} (hvalue : env.get? name = some value) (hword : IsWord offWords value) :
      SaysFlag env name (some false)
  | nothing (h : ∀ value, env.get? name = some value →
      ¬ IsWord onWords value ∧ ¬ IsWord offWords value) : SaysFlag env name none

/-- What a variable says of a text: its value, unless that is empty. -/
inductive SaysText (env : Environment) (name : String) : Option String → Prop
  | text {value : String} (hvalue : env.get? name = some value) (hne : value ≠ "") :
      SaysText env name (some value)
  | nothing (h : ∀ value, env.get? name = some value → value = "") : SaysText env name none

/-- The words are none that blanks take part in. -/
theorem words_sound : ∀ w ∈ onWords ++ offWords,
    w.toList ≠ [] ∧ ∀ c ∈ w.toList, Text.isBlank c = false := by
  simp [onWords, offWords, Text.isBlank, Text.isBlankCode]

theorem toLower_of_isBlank {c : Char} (h : Text.isBlank c = true) : c.toLower = c := by
  have hupper : ¬ (c.val ≥ 'A'.val ∧ c.val ≤ 'Z'.val) := by
    rintro ⟨hA, hZ⟩
    have hlow : 65 ≤ c.toNat := hA
    have hhigh : c.toNat ≤ 90 := hZ
    simp only [Text.isBlank, Text.isBlankCode, Bool.or_eq_true, Bool.and_eq_true, decide_eq_true_eq,
      beq_iff_eq] at h
    omega
  exact dif_neg hupper

/-- A value is one of the words exactly if its stripped text in lower case is. -/
theorem isWord_iff {words : List String} (hwords : words ⊆ onWords ++ offWords) (value : String) :
    IsWord words value ↔
      String.ofList ((Text.strip value.toList).map Char.toLower) ∈ words := by
  constructor
  · rintro ⟨front, word, back, hvalue, hblank, hmem⟩
    obtain ⟨hne, hnone⟩ := words_sound _ (hwords hmem)
    rw [String.toList_ofList] at hne hnone
    -- a blank is its own lower case, so the word has none before it is lowered
    have hword : ∀ c ∈ word, Text.isBlank c = false := by
      intro c hc
      by_contra hb
      have hb' : Text.isBlank c = true := by simpa using hb
      have hlower := hnone _ (List.mem_map_of_mem hc)
      rw [toLower_of_isBlank hb'] at hlower
      exact hb hlower
    rw [hvalue, Text.strip_append hblank (by simpa using hne) hword]
    exact hmem
  · intro hmem
    obtain ⟨front, back, hvalue, hblank⟩ := Text.exists_eq_append_strip value.toList
    exact ⟨front, _, back, hvalue, hblank, hmem⟩

theorem not_mem_onWords : ∀ w ∈ offWords, w ∉ onWords := by decide

/-- A variable says of a flag what is found in it. -/
theorem saysFlag_iff {env : Environment} {name : String} {said : Option Bool} :
    env.SaysFlag name said ↔ said = env.flag? name := by
  have hon := isWord_iff (List.subset_append_left onWords offWords)
  have hoff := isWord_iff (List.subset_append_right onWords offWords)
  unfold flag?
  simp only [List.contains_eq_mem, decide_eq_true_eq]
  constructor
  · rintro (⟨hvalue, hword⟩ | ⟨hvalue, hword⟩ | h)
    · rw [hvalue, Option.getD_some, if_pos ((hon _).1 hword)]
    · have hoff' := (hoff _).1 hword
      rw [hvalue, Option.getD_some, if_neg (not_mem_onWords _ hoff'), if_pos hoff']
    · cases hvalue : env.get? name with
      | none => rfl
      | some value =>
          obtain ⟨hnotOn, hnotOff⟩ := h value hvalue
          rw [Option.getD_some, if_neg (mt (hon _).2 hnotOn), if_neg (mt (hoff _).2 hnotOff)]
  · intro hsaid
    rw [hsaid]
    cases hvalue : env.get? name with
    | none => exact .nothing (by simp [hvalue])
    | some value =>
        rw [Option.getD_some]
        split
        · next hword => exact .on hvalue ((hon _).2 hword)
        · next hnotOn =>
            split
            · next hword => exact .off hvalue ((hoff _).2 hword)
            · next hnotOff =>
                refine .nothing fun other hother => ?_
                rw [hvalue] at hother
                cases hother
                exact ⟨mt (hon _).1 hnotOn, mt (hoff _).1 hnotOff⟩

/-- The text that a variable says, none if it is empty. -/
theorem saysText_iff {env : Environment} {name : String} {said : Option String} :
    env.SaysText name said ↔ said = (env.get? name).filter (· ≠ "") := by
  constructor
  · rintro (⟨hvalue, hne⟩ | h)
    · rw [hvalue, Option.filter_some, if_pos (by simpa using hne)]
    · cases hvalue : env.get? name with
      | none => rfl
      | some value => rw [h value hvalue, Option.filter_some, if_neg (by simp)]
  · rintro rfl
    cases hvalue : env.get? name with
    | none => exact .nothing (by simp [hvalue])
    | some value =>
        by_cases hne : value = ""
        · rw [Option.filter_some, if_neg (by simpa using hne)]
          exact .nothing (by simp [hvalue, hne])
        · rw [Option.filter_some, if_pos (by simpa using hne)]
          exact .text hvalue hne

end Environment

namespace Settings

/-! ## The file of settings -/

/-- The file of settings at a path says this; if there is none, nothing is said. -/
inductive Stated (h : Host) (path : Path) : SettingsContent → Prop
  | absent (hthere : h.disk.isFile path.text = .ok false) : Stated h path {}
  | given {bytes : List UInt8} {cs : List Char} {d : Document} {c : SettingsContent}
      (hthere : h.disk.isFile path.text = .ok true)
      (hread : h.disk.read path.text = .ok bytes)
      (hdecode : Text.Utf8.decode bytes = .ok cs)
      (hjson : Json.readChars (Text.unifyNewlines cs) = .ok d)
      (hform : SettingsForm d c) : Stated h path c

/-- There is a file of settings at a path, and this keeps it from being of use: it cannot be read,
it is not UTF-8, it is not JSON, or it has not the form of settings. -/
inductive Broken (h : Host) (path : Path) : FileProblem → Prop
  | unread {fault : FileFault} (hthere : h.disk.isFile path.text = .ok true)
      (hread : h.disk.read path.text = .error (.file fault)) :
      Broken h path (.unreadable fault.text)
  | notText {bytes : List UInt8} {e : Text.Utf8.DecodeError}
      (hthere : h.disk.isFile path.text = .ok true)
      (hread : h.disk.read path.text = .ok bytes)
      (hdecode : Text.Utf8.decode bytes = .error e) : Broken h path (.unreadable e.message)
  | notJson {bytes : List UInt8} {cs : List Char} {e : Json.Error}
      (hthere : h.disk.isFile path.text = .ok true)
      (hread : h.disk.read path.text = .ok bytes)
      (hdecode : Text.Utf8.decode bytes = .ok cs)
      (hjson : Json.readChars (Text.unifyNewlines cs) = .error e) : Broken h path (.notJson e)
  | invalid {bytes : List UInt8} {cs : List Char} {d : Document} {refusal : Validation.Refusal}
      (hthere : h.disk.isFile path.text = .ok true)
      (hread : h.disk.read path.text = .ok bytes)
      (hdecode : Text.Utf8.decode bytes = .ok cs)
      (hjson : Json.readChars (Text.unifyNewlines cs) = .ok d)
      (hform : ∀ c, ¬ SettingsForm d c) (hrefusal : ofDocument d = .error refusal) :
      Broken h path (.invalid refusal)

section

variable {h : Host} {path : Path}

/-- If the path of the file of settings can be asked, the file says something or is broken. -/
theorem stated_or_broken {there : Bool} (hthere : h.disk.isFile path.text = .ok there) :
    (∃ c, Stated h path c) ∨ ∃ problem, Broken h path problem := by
  cases there with
  | false => exact .inl ⟨_, .absent hthere⟩
  | true =>
      cases hread : h.disk.read path.text with
      | error fault =>
          -- the system refuses to read a file that is there
          obtain ⟨kind, -, rfl⟩ := Disk.exists_refused_of_read hthere hread
          exact .inr ⟨_, .unread hthere hread⟩
      | ok bytes =>
          cases hdecode : Text.Utf8.decode bytes with
          | error e => exact .inr ⟨_, .notText hthere hread hdecode⟩
          | ok cs =>
              cases hjson : Json.readChars (Text.unifyNewlines cs) with
              | error e => exact .inr ⟨_, .notJson hthere hread hdecode hjson⟩
              | ok d =>
                  -- the document is one of JSON, so its form decides whether it is refused
                  have hd := Json.isJson_of_readChars hjson
                  by_cases hform : ∃ c, SettingsForm d c
                  · obtain ⟨c, hc⟩ := hform
                    exact .inl ⟨c, .given hthere hread hdecode hjson hc⟩
                  · have hnone := not_exists.1 hform
                    obtain ⟨refusal, hrefusal⟩ := (exists_refusal_iff hd).2 hnone
                    exact .inr ⟨_, .invalid hthere hread hdecode hjson hnone hrefusal⟩

/-- A file of settings that can be read decides by its bytes. -/
theorem load_of_read (hfile : file h = .ok path) (hthere : h.disk.isFile path.text = .ok true)
    {bytes : List UInt8} (hread : h.disk.read path.text = .ok bytes) :
    load h = (ofBytes bytes).mapError fun problem => .failure (fileFailure path problem) := by
  unfold load
  simp only [hfile, hthere, hread]
  cases ofBytes bytes <;> rfl

theorem load_of_stated (hfile : file h = .ok path) {c : SettingsContent} (hc : Stated h path c) :
    load h = .ok c.orDefaults := by
  cases hc with
  | absent hthere =>
      unfold load
      simp only [hfile, hthere]
      rfl
  | given hthere hread hdecode hjson hform =>
      have hs := (ofDocument_iff_form (Json.isJson_of_readChars hjson)).2 ⟨c, hform, rfl⟩
      rw [load_of_read hfile hthere hread]
      simp only [ofBytes, hdecode, hjson, hs, Except.mapError]

theorem load_of_broken (hfile : file h = .ok path) {problem : FileProblem}
    (hproblem : Broken h path problem) :
    load h = .error (.failure (fileFailure path problem)) := by
  cases hproblem with
  | unread hthere hread =>
      unfold load
      simp only [hfile, hthere, hread]
  | notText hthere hread hdecode =>
      rw [load_of_read hfile hthere hread]
      simp only [ofBytes, hdecode, Except.mapError]
  | notJson hthere hread hdecode hjson =>
      rw [load_of_read hfile hthere hread]
      simp only [ofBytes, hdecode, hjson, Except.mapError]
  | invalid hthere hread hdecode hjson _ hrefusal =>
      rw [load_of_read hfile hthere hread]
      simp only [ofBytes, hdecode, hjson, hrefusal, Except.mapError]

end

/-! ## Layers -/

/-- These settings are in effect when the file of settings says what is given: each is what the
command line says, or else what the environment says, or else what the file says, or else the
default. Further grammar documents are said by the file alone, and the format of tables by no
variable. -/
structure InEffect (choices : Choices) (env : Environment) (c : SettingsContent) (s : Settings) :
    Prop where
  logFile : ∃ said, env.SaysText "PEERCOMP_LOG_FILE" said ∧
    s.logFile = choices.logFile.or (said.or c.logFile)
  markDirectories : ∃ said, env.SaysFlag "PEERCOMP_MARK_DIRECTORIES" said ∧
    s.path.markDirectories = (said.or c.markDirectories).getD false
  showHidden : ∃ said, env.SaysFlag "PEERCOMP_SHOW_HIDDEN" said ∧
    s.path.showHidden = (said.or c.showHidden).getD true
  format : s.format = (choices.format.or c.format).getD "auto"
  grammarFiles : s.grammarFiles = c.grammarFiles

section

variable {choices : Choices} {env : Environment} {c : SettingsContent} {s s' : Settings}

theorem logFile_withEnvironment (s : Settings) (env : Environment) :
    (s.withEnvironment env).logFile =
      ((env.get? "PEERCOMP_LOG_FILE").filter (· ≠ "")).or s.logFile := by
  unfold withEnvironment
  cases env.get? "PEERCOMP_LOG_FILE" with
  | none => rfl
  | some path =>
      by_cases hempty : path = ""
      · simp [hempty, Option.filter_some]
      · simp [hempty, Option.filter_some]

/-- What the layers say determines the settings in effect. -/
theorem InEffect.unique (h : InEffect choices env c s) (h' : InEffect choices env c s') :
    s = s' := by
  obtain ⟨⟨said, hsaid, hlog⟩, ⟨marks, hmarks, hmark⟩, ⟨shows, hshows, hshow⟩, hformat, hfiles⟩ := h
  obtain ⟨⟨said', hsaid', hlog'⟩, ⟨marks', hmarks', hmark'⟩, ⟨shows', hshows', hshow'⟩, hformat',
    hfiles'⟩ := h'
  -- what a variable says is determined
  have heqSaid := (Environment.saysText_iff.1 hsaid).trans (Environment.saysText_iff.1 hsaid').symm
  have heqMarks := (Environment.saysFlag_iff.1 hmarks).trans
    (Environment.saysFlag_iff.1 hmarks').symm
  have heqShows := (Environment.saysFlag_iff.1 hshows).trans
    (Environment.saysFlag_iff.1 hshows').symm
  rw [heqSaid, ← hlog'] at hlog
  rw [heqMarks, ← hmark'] at hmark
  rw [heqShows, ← hshow'] at hshow
  rw [← hformat'] at hformat
  rw [← hfiles'] at hfiles
  obtain ⟨⟨_, _⟩, _, _, _⟩ := s
  obtain ⟨⟨_, _⟩, _, _, _⟩ := s'
  rw [Settings.mk.injEq, PathSettings.mk.injEq]
  exact ⟨⟨hmark, hshow⟩, hformat, hfiles, hlog⟩

/-- The settings of the file, changed by the environment and then by the command line, are those
in effect. -/
theorem inEffect_withChoices (choices : Choices) (env : Environment) (c : SettingsContent) :
    InEffect choices env c ((c.orDefaults.withEnvironment env).withChoices choices) where
  logFile := by
    refine ⟨_, Environment.saysText_iff.2 rfl, ?_⟩
    rw [withChoices, ← Option.or_eq_orElse]
    dsimp only
    rw [logFile_withEnvironment]
    rfl
  markDirectories := by
    refine ⟨_, Environment.saysFlag_iff.2 rfl, ?_⟩
    simp only [withChoices, withEnvironment, SettingsContent.orDefaults, Option.getD_or]
  showHidden := by
    refine ⟨_, Environment.saysFlag_iff.2 rfl, ?_⟩
    simp only [withChoices, withEnvironment, SettingsContent.orDefaults, Option.getD_or]
  format := by
    rw [Option.getD_or]
    rfl
  grammarFiles := rfl

end

end Settings

end TabCompletion
