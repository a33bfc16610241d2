import TabCompletion.Proofs.GrammarDocument
import TabCompletion.Proofs.Narrowing
import TabCompletion.Proofs.Rendering
import TabCompletion.Proofs.Spelling

/-!
# One candidate to a line

A shell reads what it is offered line by line. Commands and long forms hold no blanks, so a line is
enough for each of them. Three things get past the rules of a grammar: a short form whose letter is
the line end, a value that holds a line end, and values that are all empty. `Engine.BreaksLines`
says at which cursors one of them comes up, and `Grammar.IsLineSafe` that a grammar has none. The
main statement is that, paths apart, what is offered is read back from its lines at all other
cursors, and at every cursor exactly if all grammars are safe (`Engine.readsByLine_explain`).
-/

namespace TabCompletion

/-! ## Candidates that are kept -/

namespace Candidates

variable {candidates : List String} {typed : String}

/-- Only an empty candidate is kept exactly if there is no other one and nothing is typed. -/
theorem filter_eq_blank_iff :
    filter candidates typed = [""] ↔
      typed = "" ∧ candidates ≠ [] ∧ ∀ c ∈ candidates, c = "" := by
  constructor
  · intro h
    have hkept : "" ∈ filter candidates typed := h ▸ List.mem_singleton_self _
    obtain ⟨hmem, hprefix⟩ := (mem_filter_iff candidates typed).1 hkept
    -- only the empty text begins an empty candidate
    obtain rfl : typed = "" := String.toList_eq_nil_iff.1 (List.prefix_nil.1 hprefix)
    refine ⟨rfl, List.ne_nil_of_mem hmem, fun c hc => ?_⟩
    have hc' := (mem_filter_iff candidates "").2 ⟨hc, List.nil_prefix⟩
    rwa [h, List.mem_singleton] at hc'
  · rintro ⟨rfl, hne, hblank⟩
    refine (isFiltered_filter candidates "").unique
      ⟨List.nodup_singleton _, fun c => ?_, List.pairwise_singleton _ _⟩
    rw [List.mem_singleton]
    refine ⟨?_, fun h => hblank c h.1⟩
    rintro rfl
    obtain ⟨c, hc⟩ := List.exists_mem_of_ne_nil _ hne
    exact ⟨hblank c hc ▸ hc, List.nil_prefix⟩

theorem readsByLine_filter_iff :
    ReadsByLine (filter candidates typed) ↔
      (∀ c ∈ candidates, typed.toList <+: c.toList → '\n' ∉ c.toList) ∧
        ¬ (typed = "" ∧ candidates ≠ [] ∧ ∀ c ∈ candidates, c = "") := by
  rw [readsByLine_iff, ne_eq, filter_eq_blank_iff, and_comm]
  simp only [mem_filter_iff, and_imp]

end Candidates

/-! ## The words of a grammar -/

theorem lineEnd_notMem_of_isBlank {cs : List Char} (h : ∀ c ∈ cs, Text.isBlank c = false) :
    '\n' ∉ cs := by
  intro hmem
  have hblank : Text.isBlank '\n' = true := by decide
  rw [h '\n' hmem] at hblank
  cases hblank

/-- A form that holds a line end is the short one whose letter is the line end. -/
theorem OptionSpec.eq_of_lineEnd_mem {o : OptionSpec} {t : String} (ht : t ∈ o.forms)
    (hline : '\n' ∈ t.toList) : t = "-\n" ∧ o.short = some t := by
  rcases OptionSpec.mem_forms.1 ht with rfl | hshort
  · obtain ⟨-, -, hblank⟩ := (isLongForm_iff o.long).1 o.long_form
    exact absurd hline (lineEnd_notMem_of_isBlank hblank)
  · obtain ⟨c, hc, -⟩ := (isShortForm_iff t).1 (o.short_form t (Option.mem_def.2 hshort))
    rw [hc] at hline
    obtain rfl : '\n' = c := by simpa using hline
    exact ⟨String.toList_injective hc, hshort⟩

/-- Commands are read back from their lines. -/
theorem Registry.readsByLine_names (r : Registry) (typed : String) :
    Candidates.ReadsByLine (Candidates.filter r.names typed) := by
  have hname : ∀ c ∈ r.names, isCommandName c = true := by
    intro c hc
    obtain ⟨g, -, rfl⟩ := List.mem_map.1 hc
    exact g.command_name
  refine Candidates.readsByLine_filter_iff.2 ⟨fun c hc _ => ?_, ?_⟩
  · exact lineEnd_notMem_of_isBlank ((isCommandName_iff c).1 (hname c hc)).2
  · rintro ⟨-, hne, hblank⟩
    obtain ⟨c, hc⟩ := List.exists_mem_of_ne_nil _ hne
    refine ((isCommandName_iff c).1 (hname c hc)).1 ?_
    rw [hblank c hc]
    rfl

namespace Grammar

/-- Nothing that the grammar lists gets in the way of lines. -/
structure IsLineSafe (g : Grammar) : Prop where
  short_ne : ∀ o ∈ g.options, o.short ≠ some "-\n"
  values_closed : ∀ o ∈ g.options, ∀ v ∈ o.domain.values, '\n' ∉ v.toList
  values_filled : ∀ o ∈ g.options, o.domain.values ≠ [] → ∃ v ∈ o.domain.values, v ≠ ""

/-- Forms are read back from their lines unless the one with the line end is among them. -/
theorem readsByLine_optionForms_iff (g : Grammar) (typed : String) :
    Candidates.ReadsByLine (Candidates.filter g.optionForms typed) ↔
      ∀ o ∈ g.options, o.short = some "-\n" → ¬ typed.toList <+: ['-', '\n'] := by
  rw [Candidates.readsByLine_filter_iff]
  constructor
  · rintro ⟨hclosed, -⟩ o ho hshort hprefix
    have hmem := (g.mem_optionForms_iff _).2 ⟨o, ho, OptionSpec.mem_forms.2 (.inr hshort)⟩
    exact hclosed _ hmem hprefix (by decide)
  · intro h
    refine ⟨fun t ht hprefix hline => ?_, ?_⟩
    · obtain ⟨o, ho, hform⟩ := (g.mem_optionForms_iff t).1 ht
      -- no other form holds a line end
      obtain ⟨rfl, hshort⟩ := OptionSpec.eq_of_lineEnd_mem hform hline
      exact h o ho hshort hprefix
    · rintro ⟨-, hne, hblank⟩
      obtain ⟨t, ht⟩ := List.exists_mem_of_ne_nil _ hne
      obtain ⟨o, -, hform⟩ := (g.mem_optionForms_iff t).1 ht
      exact OptionSpec.ne_empty_of_mem_forms hform (hblank t ht)

end Grammar

/-! ## The answers of an engine -/

namespace Engine

/-- What is offered for the word at an index cannot be read back from lines: the short form with
the line end is among the forms offered, or a value with a line end among the values, or there are
values and all of them are empty. -/
inductive BreaksLines (e : Engine) (words : List String) : Nat → Prop
  | form {i : Nat} {g : Grammar} {o : OptionSpec}
      (hg : e.registry.lookup? (wordAt words 0) = some g)
      (hfree : ∀ o ∈ g.options, wordAt words i ∈ o.forms → o.domain = .none)
      (ho : o ∈ g.options) (hshort : o.short = some "-\n")
      (htyped : (wordAt words (i + 1)).toList <+: ['-', '\n']) : BreaksLines e words (i + 1)
  | value {i : Nat} {g : Grammar} {o : OptionSpec} {v : String}
      (hg : e.registry.lookup? (wordAt words 0) = some g)
      (ho : o ∈ g.options) (hform : wordAt words i ∈ o.forms)
      (hv : v ∈ o.domain.values) (hline : '\n' ∈ v.toList)
      (htyped : (wordAt words (i + 1)).toList <+: v.toList) : BreaksLines e words (i + 1)
  | blank {i : Nat} {g : Grammar} {o : OptionSpec}
      (hg : e.registry.lookup? (wordAt words 0) = some g)
      (ho : o ∈ g.options) (hform : wordAt words i ∈ o.forms)
      (hne : o.domain.values ≠ []) (hblank : ∀ v ∈ o.domain.values, v = "")
      (htyped : wordAt words (i + 1) = "") : BreaksLines e words (i + 1)

variable {e : Engine} {words : List String} {i : Nat} {g : Grammar} {o : OptionSpec}

/-- Behind a command that is not known no line is broken. -/
theorem not_breaksLines_of_unknown (hg : e.registry.lookup? (wordAt words 0) = none) :
    ¬ e.BreaksLines words (i + 1) := by
  rintro (⟨hg', -, -, -, -⟩ | ⟨hg', -, -, -, -, -⟩ | ⟨hg', -, -, -, -, -⟩)
  all_goals exact absurd (hg.symm.trans hg') nofun

/-- Where forms are offered, only a form breaks lines. -/
theorem breaksLines_form_iff (hg : e.registry.lookup? (wordAt words 0) = some g)
    (hfree : ∀ o ∈ g.options, wordAt words i ∈ o.forms → o.domain = .none) :
    e.BreaksLines words (i + 1) ↔
      ∃ o ∈ g.options, o.short = some "-\n" ∧ (wordAt words (i + 1)).toList <+: ['-', '\n'] := by
  constructor
  · intro h
    cases h with
    | form hg' _ ho hshort htyped =>
        obtain rfl := Option.some.inj (hg.symm.trans hg')
        exact ⟨_, ho, hshort, htyped⟩
    | value hg' ho hform hv _ _ =>
        obtain rfl := Option.some.inj (hg.symm.trans hg')
        rw [hfree _ ho hform] at hv
        cases hv
    | blank hg' ho hform hne _ _ =>
        obtain rfl := Option.some.inj (hg.symm.trans hg')
        rw [hfree _ ho hform] at hne
        exact absurd rfl hne
  · rintro ⟨o, ho, hshort, htyped⟩
    exact .form hg hfree ho hshort htyped

/-- Where values are offered, only a value breaks lines. -/
theorem breaksLines_value_iff (hg : e.registry.lookup? (wordAt words 0) = some g)
    (ho : o ∈ g.options) (hform : wordAt words i ∈ o.forms) (hd : o.domain ≠ .none) :
    e.BreaksLines words (i + 1) ↔
      (∃ v ∈ o.domain.values, (wordAt words (i + 1)).toList <+: v.toList ∧ '\n' ∈ v.toList) ∨
        (wordAt words (i + 1) = "" ∧ o.domain.values ≠ [] ∧ ∀ v ∈ o.domain.values, v = "") := by
  constructor
  · intro h
    cases h with
    | form hg' hfree _ _ _ =>
        obtain rfl := Option.some.inj (hg.symm.trans hg')
        exact absurd (hfree o ho hform) hd
    | value hg' ho' hform' hv hline htyped =>
        obtain rfl := Option.some.inj (hg.symm.trans hg')
        -- the word is a form of one option only
        obtain rfl := g.eq_of_mem_forms ho ho' hform hform'
        exact .inl ⟨_, hv, htyped, hline⟩
    | blank hg' ho' hform' hne hblank htyped =>
        obtain rfl := Option.some.inj (hg.symm.trans hg')
        obtain rfl := g.eq_of_mem_forms ho ho' hform hform'
        exact .inr ⟨htyped, hne, hblank⟩
  · rintro (⟨v, hv, htyped, hline⟩ | ⟨htyped, hne, hblank⟩)
    · exact .value hg ho hform hv hline htyped
    · exact .blank hg ho hform hne hblank htyped

/-- The candidates for the words before a cursor are read back from their lines, those of them
that begin with the word under it, unless that breaks lines. -/
theorem readsByLine_candidatesAt_iff (e : Engine) (words : List String) (index : Nat) :
    Candidates.ReadsByLine
        (Candidates.filter (e.candidatesAt words index) (wordAt words index)) ↔
      ¬ e.BreaksLines words index := by
  cases index with
  | zero => exact iff_of_true (e.registry.readsByLine_names _) nofun
  | succ i =>
      cases hg : e.registry.lookup? (wordAt words 0) with
      | none =>
          -- nothing is offered
          rw [candidatesAt_unknown hg]
          have hnone : Candidates.ReadsByLine [] := Candidates.readsByLine_iff.2 ⟨nofun, nofun⟩
          exact iff_of_true hnone (not_breaksLines_of_unknown hg)
      | some g =>
          by_cases hfree : ∀ o ∈ g.options, wordAt words i ∈ o.forms → o.domain = .none
          · rw [candidatesAt_of_free hg hfree, g.readsByLine_optionForms_iff,
              breaksLines_form_iff hg hfree]
            simp only [not_exists, not_and]
          · push Not at hfree
            obtain ⟨o, ho, hform, hd⟩ := hfree
            have hfound := (g.findOption?_eq_some_iff _ o).2 ⟨ho, hform⟩
            rw [candidatesAt_value hg hfound hd, Candidates.readsByLine_filter_iff,
              breaksLines_value_iff hg ho hform hd, not_or]
            simp only [not_exists, not_and]

/-- No path is completed behind the empty word. -/
theorem not_completesPath_of_blank {words : List String} {i : Nat} (h : wordAt words i = "") :
    ¬ e.CompletesPath words (i + 1) := by
  rintro ⟨j, g, o, hj, -, -, hform, -⟩
  obtain rfl : i = j := Nat.succ.inj hj
  exact OptionSpec.ne_empty_of_mem_forms hform h

/-- No path is completed behind a form of an option that is not followed by one. -/
theorem not_completesPath_of_form (hg : e.registry.lookup? (wordAt words 0) = some g)
    (ho : o ∈ g.options) (hform : wordAt words i ∈ o.forms) (hd : o.domain ≠ .path) :
    ¬ e.CompletesPath words (i + 1) := by
  rintro ⟨j, g', o', hj, hg', ho', hform', hd'⟩
  obtain rfl : i = j := Nat.succ.inj hj
  obtain rfl := Option.some.inj (hg.symm.trans hg')
  obtain rfl := g.eq_of_mem_forms ho ho' hform hform'
  exact hd hd'

/-- A grammar is safe if no request for its command breaks lines, paths apart. -/
theorem isLineSafe_of_forall_not_breaksLines
    (h : ∀ words index, ¬ e.CompletesPath words index → ¬ e.BreaksLines words index)
    (hg : g ∈ e.registry.grammars) : g.IsLineSafe := by
  have hlookup : e.registry.lookup? g.command = some g := Registry.lookup?_command_of_mem hg
  have hlong : ∀ o : OptionSpec, o.long ∈ o.forms := fun o => OptionSpec.mem_forms.2 (.inl rfl)
  -- values come up behind the long form of their option, forms behind an empty word
  have hvalues : ∀ o ∈ g.options, o.domain.values ≠ [] →
      ¬ e.BreaksLines [g.command, o.long] 2 := by
    intro o ho hne
    have hd : o.domain ≠ .path := by
      intro hd
      rw [hd] at hne
      exact hne rfl
    exact h _ _ (not_completesPath_of_form hlookup ho (hlong o) hd)
  constructor
  case short_ne =>
    intro o ho hshort
    have hfree : ∀ o' ∈ g.options, "" ∈ o'.forms → o'.domain = .none := by
      intro o' _ hform
      exact absurd rfl (OptionSpec.ne_empty_of_mem_forms hform)
    apply h [g.command, ""] 2 (not_completesPath_of_blank rfl)
    exact .form hlookup hfree ho hshort List.nil_prefix
  case values_closed =>
    intro o ho v hv hline
    apply hvalues o ho (List.ne_nil_of_mem hv)
    exact .value hlookup ho (hlong o) hv hline List.nil_prefix
  case values_filled =>
    intro o ho hne
    by_contra hblank
    apply hvalues o ho hne
    refine .blank hlookup ho (hlong o) hne ?_ rfl
    intro v hv
    by_contra hv'
    exact hblank ⟨v, hv, hv'⟩

theorem not_breaksLines_of_forall_isLineSafe (h : ∀ g ∈ e.registry.grammars, g.IsLineSafe)
    (words : List String) (index : Nat) : ¬ e.BreaksLines words index := by
  intro hbreaks
  cases hbreaks with
  | form hg _ ho hshort _ =>
      exact (h _ (List.mem_of_find?_eq_some hg)).short_ne _ ho hshort
  | value hg ho _ hv hline _ =>
      exact (h _ (List.mem_of_find?_eq_some hg)).values_closed _ ho _ hv hline
  | blank hg ho _ hne hblank _ =>
      obtain ⟨v, hv, hv'⟩ := (h _ (List.mem_of_find?_eq_some hg)).values_filled _ ho hne
      exact hv' (hblank v hv)

/-- What is offered is read back from its lines, paths apart, at exactly the cursors that do not
break lines. It is read back for all words and at every cursor exactly if all grammars are safe. -/
theorem readsByLine_explain (e : Engine) :
    (∀ (words : List String) (cursor : Int), ¬ e.CompletesPath words cursor.toNat →
        (Candidates.ReadsByLine (e.explain words cursor).value.offered ↔
          ¬ e.BreaksLines words cursor.toNat)) ∧
      ((∀ (words : List String) (cursor : Int), ¬ e.CompletesPath words cursor.toNat →
          Candidates.ReadsByLine (e.explain words cursor).value.offered) ↔
        ∀ g ∈ e.registry.grammars, g.IsLineSafe) := by
  have hcursor : ∀ (words : List String) (cursor : Int), ¬ e.CompletesPath words cursor.toNat →
      (Candidates.ReadsByLine (e.explain words cursor).value.offered ↔
        ¬ e.BreaksLines words cursor.toNat) := by
    intro words cursor h
    rw [offered_explain e h]
    exact readsByLine_candidatesAt_iff e words cursor.toNat
  refine ⟨hcursor, fun h g hg => ?_, fun h words cursor hpath => ?_⟩
  · refine isLineSafe_of_forall_not_breaksLines (fun words index hpath => ?_) hg
    exact (hcursor words index hpath).1 (h words index hpath)
  · exact (hcursor words cursor hpath).2 (not_breaksLines_of_forall_isLineSafe h words _)

theorem readsByLine_explain_overlay :
    (∀ g ∈ builtinEngine.registry.grammars, g.IsLineSafe) ∧
      ¬ builtinEngine.CompletesPath ["peerd", "-o"] (2 : Int).toNat ∧
      (builtinEngine.explain ["peerd", "-o"] 2).value.offered ≠ [] ∧
      Text.splitLines
          (Candidates.render .lines (builtinEngine.explain ["peerd", "-o"] 2).value.offered) =
        ["tcp", "zmq", "http", "websocket", "smtp"] := by
  have hpeerd : Grammar.peerd.IsLineSafe :=
    ⟨by decide +kernel, by decide +kernel, by decide +kernel⟩
  have hsafe : ∀ g ∈ builtinEngine.registry.grammars, g.IsLineSafe :=
    List.forall_mem_singleton.2 hpeerd
  have hreads :=
    (readsByLine_explain builtinEngine).2.2 hsafe ["peerd", "-o"] 2 not_completesPath_overlay
  have hoffered : (builtinEngine.explain ["peerd", "-o"] 2).value.offered =
      ["tcp", "zmq", "http", "websocket", "smtp"] := by decide
  have hne : (builtinEngine.explain ["peerd", "-o"] 2).value.offered ≠ [] := by
    rw [hoffered]
    exact List.cons_ne_nil _ _
  exact ⟨hsafe, not_completesPath_overlay, hne, (hreads.splitLines_eq hne).trans hoffered⟩

/-- A command with a short form, a value and an empty value that get past the rules. -/
def pasteGrammar : Grammar where
  command := "paste"
  options := [⟨"--line-end", some "-\n", .none, by decide, by decide⟩,
    ⟨"--delimiter", none, .enum [",\n"], by decide, isShortForm_of_mem_none⟩,
    ⟨"--suffix", none, .enum [""], by decide, isShortForm_of_mem_none⟩]
  command_name := by decide
  long_nodup := by decide
  short_nodup := by decide

/-- An engine that knows this command only. -/
def pasteEngine : Engine where
  registry := Registry.empty.insert pasteGrammar
  paths := fun _ => pure (.ok [])

theorem not_completesPath_pasteEngine (words : List String) (index : Nat) :
    ¬ pasteEngine.CompletesPath words index := by
  rintro ⟨i, g, o, -, hg, ho, -, hd⟩
  obtain rfl : g = pasteGrammar := List.mem_singleton.1 (List.mem_of_find?_eq_some hg)
  have hdomain : ∀ o ∈ pasteGrammar.options, o.domain ≠ .path := by decide
  exact hdomain o ho hd

/-- The short form takes two lines, and so does the value with a line end. Nothing is written for
the empty value, although it is offered. -/
theorem not_readsByLine_pasteEngine :
    (¬ pasteEngine.CompletesPath ["paste", ""] 1 ∧
        (pasteEngine.explain ["paste", ""] 1).value.offered =
          ["-\n", "--line-end", "--delimiter", "--suffix"] ∧
        Candidates.render .lines ["-\n", "--line-end", "--delimiter", "--suffix"] =
          "-\n\n--line-end\n--delimiter\n--suffix" ∧
        ¬ Candidates.ReadsByLine ["-\n", "--line-end", "--delimiter", "--suffix"]) ∧
      (¬ pasteEngine.CompletesPath ["paste", "--delimiter", ""] 2 ∧
        (pasteEngine.explain ["paste", "--delimiter", ""] 2).value.offered = [",\n"] ∧
        Candidates.render .lines [",\n"] = ",\n" ∧ ¬ Candidates.ReadsByLine [",\n"]) ∧
      ¬ pasteEngine.CompletesPath ["paste", "--suffix", ""] 2 ∧
        (pasteEngine.explain ["paste", "--suffix", ""] 2).value.offered = [""] ∧
        Candidates.render .lines [""] = "" ∧ ¬ Candidates.ReadsByLine [""] := by
  refine ⟨⟨not_completesPath_pasteEngine _ _, by decide, by decide, fun h => ?_⟩,
    ⟨not_completesPath_pasteEngine _ _, by decide, by decide, fun h => ?_⟩,
    not_completesPath_pasteEngine _ _, by decide, by decide, fun h => ?_⟩
  · exact (Candidates.readsByLine_iff.1 h).2 "-\n" (by decide) (by decide)
  · exact (Candidates.readsByLine_iff.1 h).2 ",\n" (by decide) (by decide)
  · exact (Candidates.readsByLine_iff.1 h).1 rfl

end Engine

end TabCompletion
