import TabCompletion.Grammar.Library
import TabCompletion.Proofs.GrammarDocument
import TabCompletion.Proofs.JsonDocument
import TabCompletion.Proofs.Utf8

/-!
# Saved grammars

The file of a grammar holds its document (`Grammar.toDocument`), from which everything that the
reader supplies is left out. The document has the form of a grammar that holds what the grammar
holds (`Grammar.grammarForm_toDocument`), so the grammar is read back from the bytes of its file
(`parse_fileText`).
-/

namespace TabCompletion

open Json Validation

/-! ## The document of a grammar -/

theorem Document.isJson_of_isPlain {d : Document} (h : IsPlain d) : d.IsJson := by
  induction h with
  | text s => exact .text s
  | list _ ih => exact .list ih
  | map hkeys _ _ ih => exact .map (fun e he => .inl (hkeys e he)) ih

theorem valuesForm_texts (items : List String) :
    ValuesForm (.texts items) (items.map Text.codes) := by
  refine ⟨_, rfl, ?_⟩
  rw [List.forall₂_map_left_iff, List.forall₂_map_right_iff]
  exact List.forall₂_same.2 fun _ _ => rfl

theorem Domain.isPlain_toDocument (domain : Domain) : IsPlain domain.toDocument := by
  cases domain with
  | none => exact isPlain_record .nil nofun
  | path =>
      refine isPlain_record (by decide) ?_
      exact List.forall_mem_singleton.2 (.text _)
  | enum values =>
      cases values with
      | nil =>
          refine isPlain_record (by decide) ?_
          exact List.forall_mem_singleton.2 (.text _)
      | cons v vs =>
          refine isPlain_record (show ["kind", "values"].Nodup by decide) ?_
          exact List.forall_mem_cons.2
            ⟨.text _, List.forall_mem_singleton.2 (isPlain_texts _)⟩

theorem Domain.domainForm_toDocument (domain : Domain) :
    DomainForm domain.toDocument domain.coded := by
  cases domain with
  | none =>
      -- nothing is written of the default, which is what absent fields say
      exact .record (.absent rfl rfl) (.absent rfl rfl)
  | path => exact .record (.given rfl rfl) (.absent rfl rfl)
  | enum values =>
      cases values with
      | nil => exact .record (.given rfl rfl) (.absent rfl rfl)
      | cons v vs => exact .record (.given rfl rfl) (.given rfl (valuesForm_texts (v :: vs)))

theorem OptionSpec.isPlain_toDocument (o : OptionSpec) : IsPlain o.toDocument := by
  have hdomain := o.domain.isPlain_toDocument
  unfold OptionSpec.toDocument
  cases o.short with
  | none =>
      split
      · refine isPlain_record (show ["long"].Nodup by decide) ?_
        exact List.forall_mem_singleton.2 (.text _)
      · refine isPlain_record (show ["long", "domain"].Nodup by decide) ?_
        exact List.forall_mem_cons.2 ⟨.text _, List.forall_mem_singleton.2 hdomain⟩
  | some s =>
      split
      · refine isPlain_record (show ["long", "short"].Nodup by decide) ?_
        exact List.forall_mem_cons.2 ⟨.text _, List.forall_mem_singleton.2 (.text s)⟩
      · refine isPlain_record (show ["long", "short", "domain"].Nodup by decide) ?_
        exact List.forall_mem_cons.2
          ⟨.text _, List.forall_mem_cons.2 ⟨.text s, List.forall_mem_singleton.2 hdomain⟩⟩

/-- The document of an option says what the option holds: what is left out of it is what the
reader supplies. -/
theorem OptionSpec.optionForm_toDocument (o : OptionSpec) :
    OptionForm o.toDocument o.coded.content := by
  obtain ⟨long, short, domain, _, _⟩ := o
  have hdomain := domain.domainForm_toDocument
  unfold OptionSpec.toDocument OptionSpec.Coded.content OptionSpec.coded
  dsimp only
  cases short with
  | none =>
      split
      · next h => exact .record (.given rfl rfl) (.absent rfl rfl) (.absent rfl (h ▸ rfl))
      · exact .record (.given rfl rfl) (.absent rfl rfl) (.given rfl hdomain)
  | some s =>
      split
      · next h => exact .record (.given rfl rfl) (.given rfl (.given rfl)) (.absent rfl (h ▸ rfl))
      · exact .record (.given rfl rfl) (.given rfl (.given rfl)) (.given rfl hdomain)

theorem Grammar.isPlain_toDocument (g : Grammar) : IsPlain g.toDocument := by
  unfold Grammar.toDocument
  split
  · refine isPlain_record (show ["command"].Nodup by decide) ?_
    exact List.forall_mem_singleton.2 (.text _)
  · refine isPlain_record (show ["command", "options"].Nodup by decide) ?_
    refine List.forall_mem_cons.2 ⟨.text _, List.forall_mem_singleton.2 (.list fun d hd => ?_)⟩
    obtain ⟨o, -, rfl⟩ := List.mem_map.1 hd
    exact o.isPlain_toDocument

/-- The document of a grammar says what the grammar holds. -/
theorem Grammar.grammarForm_toDocument (g : Grammar) :
    GrammarForm g.toDocument g.coded.content := by
  have hoptions : ListForm OptionForm (.list (g.options.map OptionSpec.toDocument))
      g.coded.content.options := by
    refine ⟨_, rfl, ?_⟩
    rw [Grammar.Coded.content, Grammar.coded, List.map_map, List.forall₂_map_left_iff,
      List.forall₂_map_right_iff]
    exact List.forall₂_same.2 fun o _ => o.optionForm_toDocument
  unfold Grammar.toDocument
  split
  · next h =>
      refine .record (.given rfl rfl) (.absent rfl ?_)
      simp [Grammar.Coded.content, Grammar.coded, List.isEmpty_iff.1 h]
  · exact .record (.given rfl rfl) (.given rfl hoptions)

/-- The document of a grammar says the grammar, letter for letter. -/
theorem Grammar.coded_ofDocument_toDocument (g : Grammar) :
    Grammar.Coded.ofDocument g.toDocument = .ok g.coded := by
  have hjson := Document.isJson_of_isPlain g.isPlain_toDocument
  rw [Grammar.Coded.ofDocument, orRefuse_eq_ok_iff, Grammar.Coded.read_eq_ok_iff hjson]
  exact g.grammarForm_toDocument

/-- A grammar is read back from its document. -/
theorem Grammar.ofDocument_toDocument (g : Grammar) : Grammar.ofDocument g.toDocument = .ok g :=
  Grammar.ofDocument_of_coded g.coded_ofDocument_toDocument

/-! ## The file of a grammar -/

theorem unifyNewlines_eq_self {cs : List Char} (h : '\r' ∉ cs) : Text.unifyNewlines cs = cs := by
  induction cs using Text.unifyNewlines.induct with
  | case1 => rfl
  | case2 rest => exact absurd List.mem_cons_self h
  | case3 rest => exact absurd List.mem_cons_self h
  | case4 c rest hcrlf hcr ih =>
      rw [Text.unifyNewlines, ih fun hmem => h (List.mem_cons_of_mem c hmem)]
      · exact hcrlf
      · exact hcr

theorem toList_fileText (g : Grammar) :
    (Library.fileText g).toList = form (.indented 0) g.toDocument ++ ['\n'] := by
  rw [Library.fileText, String.toList_append, writeIndented, String.toList_ofList]
  rfl

/-- The bytes of the file are read as its text. -/
theorem textOf_fileText (g : Grammar) :
    Source.textOf (Text.Utf8.encode (Library.fileText g)) = .ok (Library.fileText g) := by
  -- no carriage return is written, so there is no line end to unify
  have hreturn : '\r' ∉ (Library.fileText g).toList := by
    rw [toList_fileText, List.mem_append, not_or]
    refine ⟨fun h => ?_, by decide⟩
    exact absurd (g.isPlain_toDocument.isWritten _ _ h) (by decide)
  rw [Source.textOf, Text.Utf8.decode_encode]
  show Except.ok (String.ofList (Text.unifyNewlines _)) = _
  rw [unifyNewlines_eq_self hreturn, String.ofList_toList]

/-- The text of the file is read as the document of the grammar, unless it is taken for YAML. -/
theorem parse_fileText (g : Grammar) {hint : Hint} (h : hint ≠ .yaml) :
    Source.parse (Library.fileText g) hint = .ok g.toDocument := by
  have hread : Json.read (Library.fileText g) = .ok g.toDocument := by
    rw [Json.read, toList_fileText]
    exact readChars_form g.isPlain_toDocument (.indented 0) (List.forall_mem_singleton.2 rfl)
  rw [Source.parse, if_neg h, hread]
  rfl

/-- A grammar is read back from the bytes of its file, be they known to be JSON or not. -/
theorem load_fileText (g : Grammar) :
    ∃ content d, Source.textOf (Text.Utf8.encode (Library.fileText g)) = .ok content ∧
      Source.parse content (Hint.ofName "json") = .ok d ∧
      Source.parse content (Hint.ofName "") = .ok d ∧
      Grammar.ofDocument d = .ok g :=
  ⟨_, _, textOf_fileText g, parse_fileText g (by decide), parse_fileText g (by decide),
    g.ofDocument_toDocument⟩

end TabCompletion
