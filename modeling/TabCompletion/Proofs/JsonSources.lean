import TabCompletion.Proofs.FilesOnly
import TabCompletion.Proofs.JsonLineEnds
import TabCompletion.Proofs.Path
import TabCompletion.Proofs.Utf8

/-!
# One JSON text from any source

The same bytes may come from a file, from the input of the program or from the network. The line
ends of the first two are unified and those of the last are not; and a file name or a content type
may say that a text is JSON, or say nothing (`Source.Supplies`). None of this makes a difference to
a text that is a JSON mapping: from every source it is loaded as that mapping, and so as the same
grammar, or it is refused for the same reasons (`Source.load_of_supplies`).
-/

namespace TabCompletion

/-! ## Mappings are not blank -/

/-- Only a mapping is called one. -/
theorem Document.exists_of_kindName {d : Document} (h : d.kindName = "dict") :
    ∃ entries, d = .map entries := by
  cases d with
  | map entries => exact ⟨entries, rfl⟩
  | _ => simp [kindName] at h

namespace Json

theorem ne_map_of_readWord {cur next : Cursor} {d : Document} (h : readWord cur = .ok (d, next))
    (entries : List (Document × Document)) : d ≠ .map entries := by
  unfold readWord at h
  split at h
  · next word n hkeyword =>
      cases h
      obtain ⟨⟨w, d'⟩, hfind, heq⟩ := Option.map_eq_some_iff.1 hkeyword
      have hmem := List.mem_of_find?_eq_some hfind
      obtain ⟨rfl, -⟩ := Prod.mk.inj heq
      rintro rfl
      simp [keywords] at hmem
  · split at h
    · split at h
      · next hvalue =>
          cases h
          rintro rfl
          unfold Numeral.value at hvalue
          split at hvalue
          · split at hvalue <;> cases hvalue
          · cases hvalue
      · cases h
    · cases h

theorem ne_map_of_readText {cur next : Cursor} {d : Document} (h : readText cur = .ok (d, next))
    (entries : List (Document × Document)) : d ≠ .map entries := by
  unfold readText at h
  split at h
  · cases h
  · cases h
    unfold Document.ofCodes
    split <;> exact nofun

/-- A mapping starts with a brace. -/
theorem peek_of_readValue {fuel : Nat} {cur next : Cursor} {entries : List (Document × Document)}
    (h : readValue fuel cur = .ok (.map entries, next)) : cur.peek = some '\x7b' := by
  cases fuel with
  | zero =>
      rw [readValue] at h
      cases h
  | succ fuel =>
      rw [readValue_succ] at h
      dsimp only at h
      split at h
      · exact absurd rfl (ne_map_of_readText h entries)
      split at h
      · -- a list is no mapping
        split at h
        · cases h
        · cases hitems : readItems fuel (cur.advance 1).skip with
          | error problem =>
              rw [hitems] at h
              cases h
          | ok read =>
              rw [hitems] at h
              cases h
      split at h
      · assumption
      · exact absurd rfl (ne_map_of_readWord h entries)

/-- A text that is read as a mapping is not blank. -/
theorem not_isBlankText_of_read {s : String} {entries : List (Document × Document)}
    (h : read s = .ok (.map entries)) : Text.isBlankText s = false := by
  have hbrace : (Cursor.skip ⟨s.toList, 0⟩).peek = some '\x7b' := by
    unfold read readChars at h
    split at h
    · cases h
    · split at h
      · cases h
      · next d next hvalue =>
          dsimp only at h
          split at h
          · cases h
            exact peek_of_readValue hvalue
          · cases h
  rw [Cursor.peek, Cursor.rest_skip] at hbrace
  have hmem : '\x7b' ∈ s.toList := (List.dropWhile_suffix _).mem (List.mem_of_mem_head? hbrace)
  rw [Text.isBlankText, List.all_eq_false]
  exact ⟨_, hmem, by decide⟩

end Json

namespace Source

/-! ## Sources that supply a text -/

/-- A word occurs in a text. -/
theorem occursIn_eq_true_iff {word cs : List Char} : occursIn word cs = true ↔ word <:+: cs := by
  induction cs with
  | nil => rw [occursIn, List.isEmpty_iff, List.infix_nil]
  | cons c cs ih =>
      rw [occursIn, Bool.or_eq_true, List.isPrefixOf_iff_prefix, ih, List.infix_cons_iff]

/-- The sources whose bytes are those of the text, and which are not said to be YAML. -/
inductive Supplies (h : Host) (text : String) : String → Prop
  /-- A file; its suffix, in lower case, is none of the suffixes of YAML. -/
  | file {source : String} {p : Path} (hlocal : isLocal source = true)
      (hpath : h.environment.expandPath (Path.ofText source) = .ok p)
      (hfile : h.disk.isFile p.text = .ok true)
      (hbytes : h.disk.read p.text = .ok (Text.Utf8.encode text))
      (hsuffix : String.ofList (p.suffix.toList.map Char.toLower) ∉ [".yaml", ".yml"]) :
      Supplies h text source
  /-- The input of the program. -/
  | input (hbytes : h.input = Text.Utf8.encode text) : Supplies h text "-"
  /-- An answer of the network. Its content type names no character set, and it names JSON or does
  not name YAML. -/
  | answer {url : String} {code : Nat} {contentType : Option String}
      (hremote : isRemote url = true)
      (hfetch : h.fetch url = .response code contentType (Text.Utf8.encode text))
      (hcode : 200 ≤ code ∧ code < 300)
      (hcharset : contentType.bind Text.Charset.parameter? = none)
      (htype : "json".toList <:+: (contentType.getD "").toList ∨
        ¬ "yaml".toList <:+: (contentType.getD "").toList ∧
          ¬ "yml".toList <:+: (contentType.getD "").toList) :
      Supplies h text url

theorem hintOfSuffix_ne_yaml {suffix : String}
    (h : String.ofList (suffix.toList.map Char.toLower) ∉ [".yaml", ".yml"]) :
    hintOfSuffix suffix ≠ .yaml := by
  unfold hintOfSuffix
  dsimp only
  split
  · decide
  · rw [if_neg (by simpa using h)]
    decide

theorem hintOfType_ne_yaml {contentType : String}
    (h : "json".toList <:+: contentType.toList ∨
      ¬ "yaml".toList <:+: contentType.toList ∧ ¬ "yml".toList <:+: contentType.toList) :
    hintOfType contentType ≠ .yaml := by
  unfold hintOfType
  dsimp only
  split
  · decide
  · next hjson =>
      rw [occursIn_eq_true_iff] at hjson
      obtain ⟨hyaml, hyml⟩ := h.resolve_left hjson
      rw [← occursIn_eq_true_iff] at hyaml hyml
      rw [if_neg (by rw [Bool.or_eq_true, not_or]; exact ⟨hyaml, hyml⟩)]
      decide

/-! ## What is loaded from them -/

variable {h : Host} {text source : String}

/-- The text with the line ends unified. -/
def unified (text : String) : String := String.ofList (Text.unifyNewlines text.toList)

theorem textOf_encode (text : String) : textOf (Text.Utf8.encode text) = .ok (unified text) := by
  rw [textOf, Text.Utf8.decode_encode]
  rfl

theorem read_unified {d : Document} (hread : Json.read text = .ok d) :
    Json.read (unified text) = .ok d := by
  rw [Json.read, unified, String.toList_ofList]
  exact Json.readChars_of_sameLines (Text.sameLines_unifyNewlines text.toList) hread

/-- A source that supplies a text is read as that text, perhaps with its line ends unified, and is
not taken for YAML. -/
theorem exists_readText (hsource : Supplies h text source)
    (hblank : Text.isBlankText (unified text) = false) :
    ∃ content hint, readText h source = .ok (content, hint) ∧
      (content = text ∨ content = unified text) ∧ hint ≠ .yaml := by
  cases hsource with
  | @file source p hlocal hpath hfile hbytes hsuffix =>
      refine ⟨unified text, hintOfSuffix p.suffix, ?_, .inr rfl, hintOfSuffix_ne_yaml hsuffix⟩
      rw [readText_of_isLocal h hlocal]
      exact readFile_of_read h hpath hfile hbytes (textOf_encode text) hblank
  | input hbytes =>
      refine ⟨unified text, .unknown, ?_, .inr rfl, by decide⟩
      unfold readText readInput
      simp only [hbytes, textOf_encode, hblank]
      rfl
  | @answer _ code contentType hremote hfetch hcode hcharset htype =>
      have hinput : source ≠ "-" := by
        rintro rfl
        exact absurd hremote (by decide)
      have hbody : bodyOf h contentType (Text.Utf8.encode text) = .ok text.toList := by
        rw [bodyOf, hcharset]
        exact congrArg Except.ok (Text.Utf8.decodeLenient_encode text)
      refine ⟨text, hintOfType (contentType.getD ""), ?_, .inl rfl, hintOfType_ne_yaml htype⟩
      rw [readText, if_neg hinput, if_pos hremote]
      unfold readRemote
      rw [hfetch]
      dsimp only
      rw [if_neg (by simp; omega), hbody]
      dsimp only
      rw [String.ofList_toList]

theorem loadDocument_of_supplies {entries : List (Document × Document)}
    (hread : Json.read text = .ok (.map entries)) (hsource : Supplies h text source) :
    loadDocument h source = .ok (.map entries) := by
  have hunified := read_unified hread
  obtain ⟨content, hint, htext, hcontent, hhint⟩ :=
    exists_readText hsource (Json.not_isBlankText_of_read hunified)
  have hjson : Json.read content = .ok (.map entries) := by
    rcases hcontent with rfl | rfl
    · exact hread
    · exact hunified
  rw [loadDocument, htext]
  show parse content hint = _
  rw [parse, if_neg hhint, hjson]
  rfl

/-- A JSON mapping is loaded as the same mapping from every source that supplies its text, and as
the same grammar; or from every source it is refused, for the same reasons. -/
theorem load_of_supplies {text : String} {entries : List (Document × Document)}
    (hread : Json.read text = .ok (.map entries)) :
    (∀ h source, Supplies h text source → loadDocument h source = .ok (.map entries)) ∧
      ((∃ g, Grammar.ofDocument (.map entries) = .ok g ∧
          ∀ h source, Supplies h text source → load h source = .ok g) ∨
        ∃ refusal, Grammar.ofDocument (.map entries) = .error refusal ∧
          ∀ h source, Supplies h text source →
            load h source = .error (.failure (.invalid source refusal))) := by
  have hdocument : ∀ h source, Supplies h text source →
      loadDocument h source = .ok (.map entries) :=
    fun h source hsource => loadDocument_of_supplies hread hsource
  refine ⟨hdocument, ?_⟩
  cases hgrammar : Grammar.ofDocument (.map entries) with
  | ok g =>
      refine .inl ⟨g, rfl, fun h source hsource => ?_⟩
      rw [load, loadAs, hdocument h source hsource]
      dsimp only [bind, Except.bind]
      rw [hgrammar]
      rfl
  | error refusal =>
      refine .inr ⟨refusal, rfl, fun h source hsource => ?_⟩
      rw [load, loadAs, hdocument h source hsource]
      dsimp only [bind, Except.bind]
      rw [hgrammar]
      rfl

/-- The document of a grammar, its lines ended in all three ways. -/
def mixedText : String := "\x7b\r\n\"command\": \"swap-cli\"\r\x7d\n"

theorem read_mixedText :
    ∃ entries g, Json.read mixedText = .ok (.map entries) ∧
      Grammar.ofDocument (.map entries) = .ok g ∧ g.command = "swap-cli" := by
  -- documents have no decidable equality, but their kinds and the names of their commands do
  have hread : (Json.read mixedText).map (fun d =>
      (d.kindName, (Grammar.ofDocument d).map Grammar.command)) = .ok ("dict", .ok "swap-cli") := by
    decide +kernel
  obtain ⟨d, hd, heq⟩ := Environment.map_eq_ok_iff.1 hread
  obtain ⟨hkind, hcommand⟩ := Prod.mk.inj heq
  obtain ⟨g, hgrammar, hname⟩ := Environment.map_eq_ok_iff.1 hcommand
  obtain ⟨entries, rfl⟩ := Document.exists_of_kindName hkind
  exact ⟨entries, g, hd, hgrammar, hname⟩

/-- A host that supplies this text in four ways. -/
def mirrorHost : Host where
  environment := { values := [], users := [], ownHome := none, platform := "Linux" }
  disk :=
    { tree := ⟨[(["swap-cli.json"], .file (Text.Utf8.encode mixedText)),
        (["swap-cli.txt"], .file (Text.Utf8.encode mixedText))]⟩,
      cwd := [] }
  input := Text.Utf8.encode mixedText
  replies := [("https://example.com/swap-cli.json",
    .response 200 (some "text/plain") (Text.Utf8.encode mixedText))]

/-- The names of its files. -/
def mirrorFiles : List String := ["swap-cli.json", "swap-cli.txt"]

/-- Its sources. -/
def mirrorSources : List String :=
  mirrorFiles ++ ["-", "https://example.com/swap-cli.json"]

theorem locate_mirrorHost {name : String} (hname : name ∈ mirrorFiles) :
    mirrorHost.disk.locate true (Path.text ⟨.here, [name]⟩) =
      .ok (.found [name] (.file (Text.Utf8.encode mixedText))) := by
  have hpath : ∀ name ∈ mirrorFiles, Disk.IsPath (Path.text ⟨.here, [name]⟩) ∧
      Tree.stepsOf (Path.text ⟨.here, [name]⟩) = [name] ∧ Tree.IsEntryName name := by decide
  obtain ⟨hpath, hsteps, hentryName⟩ := hpath name hname
  have hentry : mirrorHost.disk.tree.entry? ([] ++ [name]) =
      some (.file (Text.Utf8.encode mixedText)) := by
    rcases List.mem_pair.1 hname with rfl | rfl <;> rfl
  have hstart : mirrorHost.disk.startOf (Path.text ⟨.here, [name]⟩) = [] := ite_self []
  rw [Disk.locate_eq_ok_iff, hstart, hsteps]
  exact ⟨hpath, Tree.walk_file hentryName _ hentry⟩

theorem supplies_file {name : String} (hname : name ∈ mirrorFiles) :
    Supplies mirrorHost mixedText name := by
  have hlocal : ∀ name ∈ mirrorFiles, isLocal name = true := by decide
  have hpath : ∀ name ∈ mirrorFiles,
      mirrorHost.environment.expandPath (Path.ofText name) = .ok ⟨.here, [name]⟩ := by decide
  have hsuffix : ∀ name ∈ mirrorFiles,
      String.ofList ((Path.suffix ⟨.here, [name]⟩).toList.map Char.toLower) ∉
        [".yaml", ".yml"] := by decide
  have hgrants := Disk.grants_of_refusals_eq_nil (d := mirrorHost.disk) rfl
  have hlocate := locate_mirrorHost hname
  exact .file (hlocal name hname) (hpath name hname)
    (Disk.isFile_of_locate (hgrants _ _) hlocate) (Disk.read_of_locate (hgrants _ _) hlocate)
    (hsuffix name hname)

theorem supplies_answer :
    Supplies mirrorHost mixedText "https://example.com/swap-cli.json" := by
  have hfetch : mirrorHost.fetch "https://example.com/swap-cli.json" =
      .response 200 (some "text/plain") (Text.Utf8.encode mixedText) := by
    rw [Host.fetch, mirrorHost, List.lookup_cons_self]
    rfl
  have htype : ¬ "yaml".toList <:+: "text/plain".toList ∧
      ¬ "yml".toList <:+: "text/plain".toList := by
    rw [← occursIn_eq_true_iff, ← occursIn_eq_true_iff]
    decide
  exact .answer (by decide) hfetch (by decide) (by decide) (.inr htype)

theorem supplies_mirrorHost : ∀ source ∈ mirrorSources, Supplies mirrorHost mixedText source := by
  rw [mirrorSources, List.forall_mem_append, List.forall_mem_cons, List.forall_mem_singleton]
  exact ⟨fun name hname => supplies_file hname, .input rfl, supplies_answer⟩

/-- Line ends of all kinds in one text, and still each of its sources gives the same grammar. -/
theorem load_mirrorHost :
    ∃ entries g, Json.read mixedText = .ok (.map entries) ∧ g.command = "swap-cli" ∧
      ∀ source ∈ mirrorSources, Supplies mirrorHost mixedText source ∧
        loadDocument mirrorHost source = .ok (.map entries) ∧ load mirrorHost source = .ok g := by
  obtain ⟨entries, g, hread, hgrammar, hname⟩ := read_mixedText
  obtain ⟨hdocument, ⟨g', hgrammar', hload⟩ | ⟨refusal, hrefusal, -⟩⟩ := load_of_supplies hread
  · obtain rfl : g' = g := Except.ok.inj (hgrammar'.symm.trans hgrammar)
    refine ⟨entries, g', hread, hname, fun source hsource => ?_⟩
    have hsupplies := supplies_mirrorHost source hsource
    exact ⟨hsupplies, hdocument mirrorHost source hsupplies, hload mirrorHost source hsupplies⟩
  · cases hrefusal.symm.trans hgrammar

end Source

end TabCompletion
