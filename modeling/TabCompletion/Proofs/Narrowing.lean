import TabCompletion.Proofs.Engine

/-!
# Typing more

The word under the cursor decides which candidates are kept, and nothing else: neither the state
nor the grammar nor the option, and the candidates themselves only where a path is completed
(`Engine.exists_resolve`). So more text at the end of that word narrows what is offered
(`Engine.explain_typeAt`): the candidates that still begin with the word stay, each once and in
their order, and no other comes in.
-/

namespace TabCompletion

namespace Request

/-- The words with more text at the end of the one at an index; a word that is not there is
empty. -/
def typeAt (words : List String) (index : Nat) (more : String) : List String :=
  (padTo index words).set index (wordAt words index ++ more)

theorem wordAt_typeAt_self (words : List String) (index : Nat) (more : String) :
    wordAt (typeAt words index more) index = wordAt words index ++ more := by
  rw [wordAt, List.getD_eq_getElem?_getD, typeAt,
    List.getElem?_set_self (lt_length_padTo index words), Option.getD_some]

theorem wordAt_typeAt_of_lt (words : List String) {index i : Nat} (hi : i < index)
    (more : String) : wordAt (typeAt words index more) i = wordAt words i := by
  rw [wordAt, List.getD_eq_getElem?_getD, typeAt, List.getElem?_set_ne (Nat.ne_of_gt hi),
    getElem?_padTo words (Nat.le_of_lt hi), Option.getD_some]

/-- The words that a request is resolved by, if its words agree with others before the cursor. -/
theorem resolvedBy_of_agree {words words' : List String} {cursor : Int} {i : Nat}
    (hi : cursor.toNat = i + 1) (hsame : ∀ j < i + 1, wordAt words' j = wordAt words j) :
    (ofWords words' cursor).cursor ≠ 0 ∧ (ofWords words' cursor).command = wordAt words 0 ∧
      (ofWords words' cursor).previous = wordAt words i := by
  refine ⟨?_, ?_, ?_⟩
  · rw [cursor_ofWords, hi]
    exact Nat.succ_ne_zero i
  · rw [command_ofWords, hsame 0 (Nat.succ_pos i)]
  · rw [previous_ofWords words' cursor hi, hsame i (Nat.lt_succ_self i)]

end Request

namespace Engine

/-- The word at an index is the value of an option whose domain is the paths. -/
def CompletesPath (e : Engine) (words : List String) (index : Nat) : Prop :=
  ∃ i g o, index = i + 1 ∧ e.registry.lookup? (wordAt words 0) = some g ∧ o ∈ g.options ∧
    wordAt words i ∈ o.forms ∧ o.domain = .path

/-- The candidates for the word at an index before it is looked at, unless a path is completed. -/
def candidatesAt (e : Engine) (words : List String) : Nat → List String
  | 0 => e.registry.names
  | i + 1 =>
    match e.registry.lookup? (wordAt words 0) with
    | none => []
    | some g =>
      match g.findOption? (wordAt words i) with
      | none => g.optionForms
      | some o => if o.domain = .none then g.optionForms else o.domain.values

section CandidatesAt

variable {e : Engine} {words : List String} {i : Nat} {g : Grammar} {o : OptionSpec}

theorem candidatesAt_unknown (hg : e.registry.lookup? (wordAt words 0) = none) :
    e.candidatesAt words (i + 1) = [] := by
  simp only [candidatesAt, hg]

theorem candidatesAt_noOption (hg : e.registry.lookup? (wordAt words 0) = some g)
    (ho : g.findOption? (wordAt words i) = none) :
    e.candidatesAt words (i + 1) = g.optionForms := by
  simp only [candidatesAt, hg, ho]

theorem candidatesAt_flag (hg : e.registry.lookup? (wordAt words 0) = some g)
    (ho : g.findOption? (wordAt words i) = some o) (hd : o.domain = .none) :
    e.candidatesAt words (i + 1) = g.optionForms := by
  simp only [candidatesAt, hg, ho, if_pos hd]

/-- Behind a word that is no form of an option with a value the forms are the candidates. -/
theorem candidatesAt_of_free (hg : e.registry.lookup? (wordAt words 0) = some g)
    (hfree : ∀ o ∈ g.options, wordAt words i ∈ o.forms → o.domain = .none) :
    e.candidatesAt words (i + 1) = g.optionForms := by
  cases ho : g.findOption? (wordAt words i) with
  | none => exact candidatesAt_noOption hg ho
  | some o =>
      obtain ⟨hmem, hform⟩ := (g.findOption?_eq_some_iff _ o).1 ho
      exact candidatesAt_flag hg ho (hfree o hmem hform)

theorem candidatesAt_value (hg : e.registry.lookup? (wordAt words 0) = some g)
    (ho : g.findOption? (wordAt words i) = some o) (hd : o.domain ≠ .none) :
    e.candidatesAt words (i + 1) = o.domain.values := by
  simp only [candidatesAt, hg, ho, if_neg hd]

end CandidatesAt

/-- Unless a path is completed, every request that agrees on the words before the cursor has
one and the same resolution, and its candidates are those for these words. -/
theorem exists_resolve_candidatesAt (e : Engine) {words : List String} {index : Nat}
    (h : ¬ e.CompletesPath words index) :
    ∃ r : Resolution, r.candidates = e.candidatesAt words index ∧
      ∀ (words' : List String) (cursor : Int), cursor.toNat = index →
        (∀ i < index, wordAt words' i = wordAt words i) →
        (e.resolve (Request.ofWords words' cursor)).value = .ok r := by
  cases index with
  | zero => exact ⟨_, rfl, fun words' cursor hcursor _ => resolve_first e hcursor⟩
  | succ i =>
      cases hg : e.registry.lookup? (wordAt words 0) with
      | none =>
          refine ⟨{ state := .expectOptionOrPositional }, (candidatesAt_unknown hg).symm,
            fun words' cursor hi hsame => ?_⟩
          obtain ⟨hne, hcommand, -⟩ := Request.resolvedBy_of_agree hi hsame
          exact resolve_unknown e hne (hcommand ▸ hg)
      | some g =>
          cases ho : g.findOption? (wordAt words i) with
          | none =>
              refine ⟨{ state := .expectOptionOrPositional, candidates := g.optionForms,
                        grammar := some g }, (candidatesAt_noOption hg ho).symm,
                fun words' cursor hi hsame => ?_⟩
              obtain ⟨hne, hcommand, hprevious⟩ := Request.resolvedBy_of_agree hi hsame
              exact resolve_noOption e hne (hcommand ▸ hg) (hprevious ▸ ho)
          | some o =>
              cases hd : o.domain with
              | none =>
                  refine ⟨{ state := .expectOptionOrPositional, candidates := g.optionForms,
                            grammar := some g, option := some o },
                    (candidatesAt_flag hg ho hd).symm, fun words' cursor hi hsame => ?_⟩
                  obtain ⟨hne, hcommand, hprevious⟩ := Request.resolvedBy_of_agree hi hsame
                  rw [resolve_option e hne (hcommand ▸ hg) (hprevious ▸ ho), hd]
                  rfl
              | enum values =>
                  have hvalues : e.candidatesAt words (i + 1) = values := by
                    rw [candidatesAt_value hg ho (hd ▸ nofun), hd, Domain.values]
                  refine ⟨{ state := .expectOptionValue, candidates := values, grammar := some g,
                            option := some o }, hvalues.symm, fun words' cursor hi hsame => ?_⟩
                  obtain ⟨hne, hcommand, hprevious⟩ := Request.resolvedBy_of_agree hi hsame
                  rw [resolve_option e hne (hcommand ▸ hg) (hprevious ▸ ho), hd]
                  exact resolveValue_enum e g _ hd
              | path =>
                  obtain ⟨hmem, hform⟩ := (g.findOption?_eq_some_iff _ o).1 ho
                  exact absurd ⟨i, g, o, rfl, hg, hmem, hform, hd⟩ h

/-- Unless a path is completed, every request that agrees on the words before the cursor has
one and the same resolution. -/
theorem exists_resolve (e : Engine) {words : List String} {index : Nat}
    (h : ¬ e.CompletesPath words index) :
    ∃ r, ∀ (words' : List String) (cursor : Int), cursor.toNat = index →
      (∀ i < index, wordAt words' i = wordAt words i) →
      (e.resolve (Request.ofWords words' cursor)).value = .ok r := by
  obtain ⟨r, -, hr⟩ := e.exists_resolve_candidatesAt h
  exact ⟨r, hr⟩

/-- The answer to a request that has a resolution. -/
theorem value_explain_of_resolve {e : Engine} {words : List String} {cursor : Int} {r : Resolution}
    (h : (e.resolve (Request.ofWords words cursor)).value = .ok r) :
    (e.explain words cursor).value =
      ⟨some r, Candidates.filter r.candidates (wordAt words cursor.toNat)⟩ := by
  rw [value_explain, h, Candidates.filter_eq_eraseDups]
  rfl

/-- Unless a path is completed, an answer offers the candidates for the words before the cursor
that begin with the word under it. -/
theorem offered_explain (e : Engine) {words : List String} {cursor : Int}
    (h : ¬ e.CompletesPath words cursor.toNat) :
    (e.explain words cursor).value.offered =
      Candidates.filter (e.candidatesAt words cursor.toNat) (wordAt words cursor.toNat) := by
  obtain ⟨r, hcandidates, hr⟩ := e.exists_resolve_candidatesAt h
  rw [value_explain_of_resolve (hr words cursor rfl fun _ _ => rfl), hcandidates]

/-- More text at the end of the word under the cursor leaves the resolution as it is, unless a
path is completed, and keeps of what is offered what begins with the longer word: each once, in
the same order, and nothing else. -/
theorem explain_typeAt (e : Engine) (words : List String) (cursor : Int) (more : String)
    (h : ¬ e.CompletesPath words cursor.toNat) :
    let typed := wordAt words cursor.toNat ++ more
    let before := (e.explain words cursor).value
    let after := (e.explain (Request.typeAt words cursor.toNat more) (max cursor 0)).value
    before.resolution.isSome = true ∧ after.resolution = before.resolution ∧
      after.offered = Candidates.filter before.offered typed ∧
      after.offered = before.offered.filter (Candidates.extendsTyped typed) ∧
      after.offered.Nodup := by
  intro typed before after
  obtain ⟨r, hr⟩ := e.exists_resolve h
  have hcursor : (max cursor 0).toNat = cursor.toNat := by omega
  have hbefore : before = ⟨some r, _⟩ :=
    value_explain_of_resolve (hr words cursor rfl fun _ _ => rfl)
  have hafter : after = ⟨some r, Candidates.filter r.candidates _⟩ := value_explain_of_resolve
    (hr _ _ hcursor fun i hi => Request.wordAt_typeAt_of_lt words hi more)
  rw [hcursor, Request.wordAt_typeAt_self] at hafter
  rw [hbefore, hafter]
  refine ⟨rfl, rfl, (Candidates.filter_filter _ _ _).symm, ?_, Candidates.nodup_filter _ _⟩
  rw [← Candidates.filter_of_nodup (Candidates.nodup_filter _ _), Candidates.filter_filter]

/-- An engine that knows the built-in grammar, whose source of paths fails. -/
def builtinEngine : Engine where
  registry := Library.start
  paths := fun _ => pure (.error (.fault .noHome))

theorem not_completesPath_overlay : ¬ builtinEngine.CompletesPath ["peerd", "-o"] 2 := by
  rintro ⟨i, g, o, hi, hg, ho, hform, hd⟩
  obtain rfl : i = 1 := by omega
  have hpeerd : builtinEngine.registry.lookup? "peerd" = some Grammar.peerd := by decide
  obtain rfl : Grammar.peerd = g := Option.some.inj (hpeerd.symm.trans hg)
  have hfound := (Grammar.peerd.findOption?_eq_some_iff "-o" o).2 ⟨ho, hform⟩
  have hdomain : (Grammar.peerd.findOption? "-o").map OptionSpec.domain ≠ some .path := by
    decide
  rw [hfound, Option.map_some, hd] at hdomain
  exact hdomain rfl

/-- The cursor stands behind the last word, on one that is not there yet. -/
theorem explain_typeAt_overlay :
    ¬ builtinEngine.CompletesPath ["peerd", "-o"] (2 : Int).toNat ∧
      (builtinEngine.explain ["peerd", "-o"] 2).value.offered =
        ["tcp", "zmq", "http", "websocket", "smtp"] ∧
      Request.typeAt ["peerd", "-o"] 2 "t" = ["peerd", "-o", "t"] ∧
      (builtinEngine.explain ["peerd", "-o", "t"] 2).value.offered = ["tcp"] := by
  have hoffered : (builtinEngine.explain ["peerd", "-o"] 2).value.offered =
      ["tcp", "zmq", "http", "websocket", "smtp"] := by decide
  obtain ⟨-, -, hnarrowed, -⟩ :=
    explain_typeAt builtinEngine ["peerd", "-o"] 2 "t" not_completesPath_overlay
  refine ⟨not_completesPath_overlay, hoffered, by decide, ?_⟩
  rw [hoffered] at hnarrowed
  exact hnarrowed.trans (by decide)

end Engine

end TabCompletion
