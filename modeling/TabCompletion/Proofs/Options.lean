import Mathlib.Data.List.Nodup
import TabCompletion.Grammar.Basic

/-!
# The forms of options

A long form has at least three characters and a short form has two, and no two options of a
grammar share a long or a short form. So a word is the form of at most one option
(`eq_of_mem_forms`), and `findOption?` finds an option exactly if the word is one of its forms
(`findOption?_eq_some_iff`).
-/

namespace TabCompletion

theorem isLongForm_iff (s : String) :
    isLongForm s = true ↔
      ['-', '-'] <+: s.toList ∧ 3 ≤ s.toList.length ∧ ∀ c ∈ s.toList, Text.isBlank c = false := by
  simp only [isLongForm, Bool.and_eq_true, decide_eq_true_eq, List.isPrefixOf_iff_prefix,
    Bool.not_eq_eq_eq_not, Bool.not_true, List.any_eq_false, Bool.not_eq_true]
  exact and_assoc

theorem isShortForm_iff (s : String) :
    isShortForm s = true ↔
      ∃ c, s.toList = ['-', c] ∧ c ≠ '-' ∧ c ≠ ' ' ∧ c ≠ '\t' := by
  unfold isShortForm
  split
  · next c hs => simp [hs, and_assoc]
  · next hs =>
      constructor
      · intro h
        cases h
      · rintro ⟨c, hc, -⟩
        exact absurd hc (hs c)

theorem isCommandName_iff (s : String) :
    isCommandName s = true ↔ s.toList ≠ [] ∧ ∀ c ∈ s.toList, Text.isBlank c = false := by
  simp [isCommandName]

theorem three_le_length_of_isLongForm {s : String} (h : isLongForm s = true) :
    3 ≤ s.toList.length :=
  ((isLongForm_iff s).1 h).2.1

theorem length_of_isShortForm {s : String} (h : isShortForm s = true) : s.toList.length = 2 := by
  unfold isShortForm at h
  split at h
  · next hs => rw [hs]; rfl
  · cases h

/-- An option may do without a short form. -/
theorem isShortForm_of_mem_none : ∀ s ∈ (none : Option String), isShortForm s = true :=
  fun s hs => absurd hs (Option.not_mem_none s)

/-- No text is both a long and a short form. -/
theorem not_isShortForm_of_isLongForm {s : String} (h : isLongForm s = true) :
    isShortForm s = false := by
  rw [Bool.eq_false_iff]
  intro hs
  have hlong := three_le_length_of_isLongForm h
  have hshort := length_of_isShortForm hs
  omega

namespace OptionSpec

theorem mem_forms {o : OptionSpec} {t : String} :
    t ∈ o.forms ↔ t = o.long ∨ o.short = some t := by
  simp [forms]

/-- The long form of one option is never the short form of one. -/
theorem long_ne_short (o o' : OptionSpec) : o'.short ≠ some o.long := by
  intro h
  have hshort := o'.short_form o.long (Option.mem_def.2 h)
  rw [not_isShortForm_of_isLongForm o.long_form] at hshort
  cases hshort

theorem ne_empty_of_mem_forms {o : OptionSpec} {t : String} (ht : t ∈ o.forms) :
    t ≠ "" := by
  rintro rfl
  rcases mem_forms.1 ht with hlong | hshort
  · have hlength := three_le_length_of_isLongForm o.long_form
    rw [← hlong] at hlength
    exact absurd hlength (by decide)
  · have hlength := length_of_isShortForm (o.short_form "" (Option.mem_def.2 hshort))
    exact absurd hlength (by decide)

end OptionSpec

/-- If the values that `f` gives on a list do not repeat, two members with one value are the
same. -/
theorem eq_of_nodup_filterMap {α β : Type} {f : α → Option β} {l : List α}
    (hl : (l.filterMap f).Nodup) {a a' : α} (ha : a ∈ l) (ha' : a' ∈ l) {b : β}
    (h : f a = some b) (h' : f a' = some b) : a = a' := by
  have hpair := List.pairwise_filterMap.1 hl
  -- the values differ pairwise, so the first of the two members excludes the other
  induction hpair with
  | nil => cases ha
  | @cons x l hx hpair ih =>
      have hl' : (l.filterMap f).Nodup := List.pairwise_filterMap.2 hpair
      rcases List.mem_cons.1 ha with rfl | hmem
      · rcases List.mem_cons.1 ha' with rfl | hmem'
        · rfl
        · exact absurd rfl (hx a' hmem' b h b h')
      · rcases List.mem_cons.1 ha' with rfl | hmem'
        · exact absurd rfl (hx a hmem b h' b h)
        · exact ih hl' hmem hmem'

namespace Grammar

/-- A word is the form of at most one option of a grammar. -/
theorem eq_of_mem_forms (g : Grammar) {o o' : OptionSpec} (ho : o ∈ g.options)
    (ho' : o' ∈ g.options) {t : String} (h : t ∈ o.forms) (h' : t ∈ o'.forms) : o = o' := by
  -- a long form is shared with no long form and equals no short form, and the other way round
  rcases OptionSpec.mem_forms.1 h with hlong | hshort
  · rcases OptionSpec.mem_forms.1 h' with hlong' | hshort'
    · exact List.inj_on_of_nodup_map g.long_nodup ho ho' (hlong.symm.trans hlong')
    · exact absurd (hlong ▸ hshort') (o.long_ne_short o')
  · rcases OptionSpec.mem_forms.1 h' with hlong' | hshort'
    · exact absurd (hlong' ▸ hshort) (o'.long_ne_short o)
    · exact eq_of_nodup_filterMap g.short_nodup ho ho' hshort hshort'

theorem findOption?_eq_some_iff (g : Grammar) (t : String) (o : OptionSpec) :
    g.findOption? t = some o ↔ o ∈ g.options ∧ t ∈ o.forms := by
  constructor
  · intro h
    have hmem := List.mem_of_find?_eq_some h
    have hform := List.find?_some h
    exact ⟨hmem, by simpa using hform⟩
  · rintro ⟨ho, ht⟩
    cases hfound : g.findOption? t with
    | none =>
        -- the option itself would have been found
        have hnone := List.find?_eq_none.1 hfound o ho
        simp [ht] at hnone
    | some o' =>
        -- the option that was found has the same form
        have hmem := List.mem_of_find?_eq_some hfound
        have hform : t ∈ o'.forms := by simpa using List.find?_some hfound
        rw [g.eq_of_mem_forms hmem ho hform ht]

theorem findOption?_eq_none_iff (g : Grammar) (t : String) :
    g.findOption? t = none ↔ ∀ o ∈ g.options, t ∉ o.forms := by
  simp [findOption?]

end Grammar

end TabCompletion
