import Mathlib.Data.List.Nodup
import TabCompletion.Proofs.Engine

/-!
# Long and short forms

Every form of every option of a grammar has an entry of its own in one table (`Grammar.formTable`):
no form comes twice (`Grammar.nodup_formTable`), so it makes no difference whether an earlier or a
later entry counts, and looking a word up in the table finds the option that has it as a form
(`Grammar.findOption?_eq_lookup`). `Grammar.HasExactForms` puts together what this means for those
who ask a grammar for its options. An engine only asks for the option before the cursor, so its
answer is the same whichever form of the option stands there (`Engine.explain_of_either_form`).
-/

namespace TabCompletion

/-- In a table without repeated keys every entry is found. -/
theorem lookup_eq_some_iff_mem {β : Type} {table : List (String × β)}
    (h : (table.map Prod.fst).Nodup) {key : String} {value : β} :
    table.lookup key = some value ↔ (key, value) ∈ table := by
  induction table with
  | nil => simp
  | cons entry table ih =>
      obtain ⟨k, v⟩ := entry
      obtain ⟨hk, hrest⟩ := List.nodup_cons.1 h
      by_cases hkey : key = k
      · -- the key of the first entry is in no other one
        subst hkey
        have habsent : (key, value) ∉ table := fun hmem => hk (List.mem_map.2 ⟨_, hmem, rfl⟩)
        simp [habsent, eq_comm]
      · have hne : (key == k) = false := by simpa using hkey
        simp [List.lookup_cons, hne, hkey, ih hrest]

namespace OptionSpec

theorem nodup_forms (o : OptionSpec) : o.forms.Nodup := by
  unfold forms
  cases hs : o.short with
  | none => simp
  | some s =>
      have hne : o.long ≠ s := fun h => o.long_ne_short o (h ▸ hs)
      simpa using hne

end OptionSpec

namespace Grammar

/-- The forms of all options, each with its option. -/
def formTable (g : Grammar) : List (String × OptionSpec) :=
  g.options.flatMap fun o => o.forms.map fun form => (form, o)

theorem mem_formTable {g : Grammar} {t : String} {o : OptionSpec} :
    (t, o) ∈ g.formTable ↔ o ∈ g.options ∧ t ∈ o.forms := by
  simp [formTable]

/-- No form comes twice, be it as a long or as a short one. -/
theorem nodup_formTable (g : Grammar) : (g.formTable.map Prod.fst).Nodup := by
  have hkeys : g.formTable.map Prod.fst = g.options.flatMap OptionSpec.forms := by
    simp [formTable, List.map_flatMap, Function.comp_def]
  rw [hkeys, List.nodup_flatMap]
  refine ⟨fun o _ => o.nodup_forms, ?_⟩
  have hoptions : g.options.Nodup := List.Nodup.of_map _ g.long_nodup
  apply hoptions.pairwise_of_forall_ne
  intro o ho o' ho' hne t ht ht'
  exact hne (g.eq_of_mem_forms ho ho' ht ht')

/-- Finding the option of a form is looking it up in the table, in which no entry takes the place
of another: the last one for a form is the only one. -/
theorem findOption?_eq_lookup (g : Grammar) (t : String) :
    g.findOption? t = g.formTable.reverse.lookup t := by
  have hnodup : (g.formTable.reverse.map Prod.fst).Nodup := by
    rw [List.map_reverse, List.nodup_reverse]
    exact g.nodup_formTable
  apply Option.ext
  intro o
  rw [findOption?_eq_some_iff, lookup_eq_some_iff_mem hnodup, List.mem_reverse, mem_formTable]

theorem getOption_eq_ok_iff (g : Grammar) (t : String) (o : OptionSpec) :
    g.getOption t = .ok o ↔ g.findOption? t = some o := by
  unfold getOption
  cases g.findOption? t <;> simp

theorem getOption_eq_error_iff (g : Grammar) (t : String) (f : Failure) :
    g.getOption t = .error f ↔ g.findOption? t = none ∧ f = .ofUnmatchedToken t := by
  unfold getOption
  cases g.findOption? t <;> simp [eq_comm]

theorem nodup_optionForms (g : Grammar) : g.optionForms.Nodup := by
  refine List.nodup_append.2 ⟨g.short_nodup, g.long_nodup, ?_⟩
  -- a short form of one option is never the long form of one
  intro s hs l hl hsame
  obtain ⟨o, -, hshort⟩ := List.mem_filterMap.1 hs
  obtain ⟨o', -, hlong⟩ := List.mem_map.1 hl
  exact o'.long_ne_short o (by rw [hlong, ← hsame, hshort])

theorem mem_optionForms_iff (g : Grammar) (t : String) :
    t ∈ g.optionForms ↔ ∃ o ∈ g.options, t ∈ o.forms := by
  simp only [optionForms, List.mem_append, List.mem_filterMap, List.mem_map, OptionSpec.mem_forms]
  constructor
  · rintro (⟨o, ho, hshort⟩ | ⟨o, ho, hlong⟩)
    · exact ⟨o, ho, .inr hshort⟩
    · exact ⟨o, ho, .inl hlong.symm⟩
  · rintro ⟨o, ho, hlong | hshort⟩
    · exact .inr ⟨o, ho, hlong.symm⟩
    · exact .inl ⟨o, ho, hshort⟩

/-- A grammar has the options of exactly the words that are forms of them. -/
structure HasExactForms (g : Grammar) : Prop where
  findOption?_eq_some_iff : ∀ t o,
    g.findOption? t = some o ↔ o ∈ g.options ∧ (t = o.long ∨ o.short = some t)
  eq_of_mem_forms : ∀ t, ∀ o ∈ g.options, ∀ o' ∈ g.options, t ∈ o.forms → t ∈ o'.forms → o = o'
  findOption?_eq_lookup : ∀ t, g.findOption? t = g.formTable.reverse.lookup t
  getOption_eq_ok_iff : ∀ t o, g.getOption t = .ok o ↔ g.findOption? t = some o
  getOption_eq_error_iff : ∀ t f,
    g.getOption t = .error f ↔ g.findOption? t = none ∧ f = .ofUnmatchedToken t
  nodup_optionForms : g.optionForms.Nodup
  mem_optionForms_iff : ∀ t, t ∈ g.optionForms ↔ g.findOption? t ≠ none

theorem hasExactForms (g : Grammar) : g.HasExactForms where
  findOption?_eq_some_iff t o := by
    rw [g.findOption?_eq_some_iff t o, OptionSpec.mem_forms]
  eq_of_mem_forms _ _ ho _ ho' := g.eq_of_mem_forms ho ho'
  findOption?_eq_lookup := g.findOption?_eq_lookup
  getOption_eq_ok_iff := g.getOption_eq_ok_iff
  getOption_eq_error_iff := g.getOption_eq_error_iff
  nodup_optionForms := g.nodup_optionForms
  mem_optionForms_iff t := by
    rw [mem_optionForms_iff, ne_eq, g.findOption?_eq_none_iff]
    simp

end Grammar

/-! ## The word before the cursor -/

theorem wordAt_set_self {words : List String} {index : Nat} (h : index < words.length)
    (word : String) : wordAt (words.set index word) index = word := by
  rw [wordAt, List.getD_eq_getElem?_getD, List.getElem?_set_self h, Option.getD_some]

theorem wordAt_set_of_ne (words : List String) {index i : Nat} (h : index ≠ i) (word : String) :
    wordAt (words.set index word) i = wordAt words i := by
  rw [wordAt, wordAt, List.getD_eq_getElem?_getD, List.getD_eq_getElem?_getD,
    List.getElem?_set_ne h]

namespace Engine

variable (e : Engine) {words words' : List String} {cursor : Int} {i : Nat} {g : Grammar}
  {o : OptionSpec}

/-- The answer is the same if the words before the cursor are forms of one option, and the first
word and the one under the cursor are the same. -/
theorem value_explain_of_forms (hi : cursor.toNat = i + 1)
    (hg : e.registry.lookup? (wordAt words 0) = some g) (ho : o ∈ g.options)
    (hform : wordAt words i ∈ o.forms) (hform' : wordAt words' i ∈ o.forms)
    (hfirst : wordAt words' 0 = wordAt words 0)
    (hcurrent : wordAt words' (i + 1) = wordAt words (i + 1)) :
    (e.explain words' cursor).value = (e.explain words cursor).value := by
  have hne : ∀ words, (Request.ofWords words cursor).cursor ≠ 0 := by
    intro words
    rw [Request.cursor_ofWords, hi]
    exact Nat.succ_ne_zero i
  have hfound : g.findOption? (Request.ofWords words cursor).previous = some o := by
    rw [Request.previous_ofWords words cursor hi]
    exact (g.findOption?_eq_some_iff _ o).2 ⟨ho, hform⟩
  have hfound' : g.findOption? (Request.ofWords words' cursor).previous = some o := by
    rw [Request.previous_ofWords words' cursor hi]
    exact (g.findOption?_eq_some_iff _ o).2 ⟨ho, hform'⟩
  have hknown : e.registry.lookup? (Request.ofWords words cursor).command = some g := by
    rwa [Request.command_ofWords]
  have hknown' : e.registry.lookup? (Request.ofWords words' cursor).command = some g := by
    rwa [Request.command_ofWords, hfirst]
  rw [value_explain, value_explain, resolve_option e (hne words) hknown hfound,
    resolve_option e (hne words') hknown' hfound', Request.current_ofWords,
    Request.current_ofWords, hi, hcurrent]

/-- A word finds an option of a grammar exactly if it is a form of that option, and no word is a
form of two. So an answer is the same whether the long or the short form of an option stands in
front of the cursor. -/
theorem explain_of_either_form :
    (∀ g : Grammar, g.HasExactForms) ∧
      ∀ (e : Engine) (words : List String) (cursor : Int) (g : Grammar) (o : OptionSpec)
        (short : String), 2 ≤ cursor → e.registry.lookup? (wordAt words 0) = some g →
        o ∈ g.options → o.short = some short →
        (e.explain (words.set (cursor - 1).toNat o.long) cursor).value =
          (e.explain (words.set (cursor - 1).toNat short) cursor).value := by
  refine ⟨Grammar.hasExactForms, ?_⟩
  intro e words cursor g o short hcursor hg ho hshort
  obtain ⟨i, hi⟩ : ∃ i, cursor.toNat = i + 1 := ⟨cursor.toNat - 1, by omega⟩
  obtain rfl : (cursor - 1).toNat = i := by omega
  by_cases hlength : (cursor - 1).toNat < words.length
  · have hzero : (cursor - 1).toNat ≠ 0 := by omega
    have hnext : (cursor - 1).toNat ≠ (cursor - 1).toNat + 1 := (Nat.succ_ne_self _).symm
    apply e.value_explain_of_forms hi (g := g) (o := o)
    · rwa [wordAt_set_of_ne words hzero]
    · exact ho
    · rw [wordAt_set_self hlength]
      exact OptionSpec.mem_forms.2 (.inr hshort)
    · rw [wordAt_set_self hlength]
      exact OptionSpec.mem_forms.2 (.inl rfl)
    · rw [wordAt_set_of_ne words hzero, wordAt_set_of_ne words hzero]
    · rw [wordAt_set_of_ne words hnext, wordAt_set_of_ne words hnext]
  · -- there is no such word, and nothing is set
    rw [List.set_eq_of_length_le (Nat.not_lt.1 hlength),
      List.set_eq_of_length_le (Nat.not_lt.1 hlength)]

/-- The overlays of the built-in grammar are offered behind either form of their option. -/
theorem explain_of_either_form_overlay :
    ∃ (e : Engine) (o : OptionSpec), e.registry.lookup? "peerd" = some Grammar.peerd ∧
      o ∈ Grammar.peerd.options ∧ o.long = "--overlay" ∧ o.short = some "-o" ∧
      (e.explain ["peerd", "--overlay", "t"] 2).value =
        (e.explain ["peerd", "-o", "t"] 2).value := by
  have hforms : (Grammar.peerd.findOption? "-o").map (fun o => (o.long, o.short)) =
      some ("--overlay", some "-o") := by decide
  obtain ⟨o, hfound, ho⟩ := Option.map_eq_some_iff.1 hforms
  obtain ⟨hlong, hshort⟩ := Prod.mk.inj ho
  have hmem := ((Grammar.peerd.findOption?_eq_some_iff "-o" o).1 hfound).1
  let e : Engine := ⟨Library.start, fun _ => pure (.ok [])⟩
  have hknown : e.registry.lookup? "peerd" = some Grammar.peerd := by decide
  have hsame := explain_of_either_form.2 e ["peerd", "", "t"] 2 Grammar.peerd o "-o" (by decide)
    hknown hmem hshort
  rw [hlong] at hsame
  exact ⟨e, o, hknown, hmem, hlong, hshort, hsame⟩

end Engine

end TabCompletion
