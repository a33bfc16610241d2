import TabCompletion.Proofs.Request
import TabCompletion.Proofs.Splitter
import TabCompletion.Proofs.Words

/-!
# The word under the cursor

A letter that is typed at the end of a line goes to a word. If the splitter stands in a gap there,
the letter starts a new word, and otherwise it is added to the last one. The cursor should stand on
that word before the letter is typed (`Request.ExtendedBy`). It does, unless the line ends in a
blank that belongs to a word: one behind a backslash, or one that separates no words
(`Shell.Words.endsInKeptBlank_concat`). Behind such a blank the cursor stands on a new word, which
the letter does not start (`Request.extendedBy_push_iff`).
-/

namespace TabCompletion

namespace Shell.Words

/-! ## The end of a line -/

namespace Reading

variable {r : Reading} {words : List (List Char)}

/-- A line that can be split ends in a gap or in a word outside quotes. -/
theorem finish_nil (h : r.finish [] = some words) :
    r.mode = .gap ∧ words = r.complete ∨ r.mode = .bare ∧ words = r.complete ++ [r.word] := by
  obtain ⟨complete, mode, word⟩ := r
  cases mode with
  | gap => simpa [finish, splitFrom, eq_comm] using h
  | bare => simpa [finish, splitFrom, eq_comm] using h
  | _ => simp [finish, splitFrom] at h

/-- A character that is neither a mark nor a separator starts a word behind a gap, and is added
to a word. -/
theorem finish_singleton {x : Char} (hmark : isMark x = false) (hsep : isSeparator x = false) :
    (r.mode = .gap → r.finish [x] = some (r.complete ++ [[x]])) ∧
      (r.mode = .bare → r.finish [x] = some (r.complete ++ [r.word ++ [x]])) := by
  have hbare := advance_bare hmark
  have hgap : advance (.gap, r.word) x = (.bare, [x]) := hbare []
  constructor
  · intro hmode
    rw [finish, hmode, splitFrom_cons (s := (.gap, r.word)) (.inl hsep), hgap]
    rfl
  · intro hmode
    rw [finish, hmode, splitFrom_cons (s := (.bare, r.word)) (.inl hsep), hbare]
    rfl

/-- Only a separator brings the splitter into a gap. -/
theorem isSeparator_of_gap {text : List Char} {c : Char}
    (h : (ofText (text ++ [c])).mode = .gap) : isSeparator c = true := by
  cases hc : isSeparator c with
  | true => rfl
  | false =>
      rw [ofText_concat, next, if_neg (by simp [hc]), if_neg (by simp [hc])] at h
      exact absurd h (advance_ne_gap _ c)

end Reading

/-- The splitter stands in a word at the end of the text, and the last character is a blank. -/
def EndsInKeptBlank (text : List Char) : Prop :=
  (Reading.ofText text).mode = .bare ∧ (text.getLast?.map Text.isBlank).getD false = true

instance (text : List Char) : Decidable (EndsInKeptBlank text) :=
  inferInstanceAs (Decidable (_ ∧ _))

theorem isMark_of_isBlank {c : Char} (h : Text.isBlank c = true) : isMark c = false := by
  rw [Bool.eq_false_iff]
  intro hmark
  simp only [isMark, Bool.or_eq_true, decide_eq_true_eq] at hmark
  rcases hmark with (rfl | rfl) | rfl <;> cases h

/-- A blank is kept at the end of a word if it stands behind a backslash, or if it is no separator;
in both cases outside quotes. -/
theorem endsInKeptBlank_concat (text : List Char) (c : Char) :
    EndsInKeptBlank (text ++ [c]) ↔ Text.isBlank c = true ∧
      ((Reading.ofText text).mode = .bareEscape ∨ isSeparator c = false ∧
        ((Reading.ofText text).mode = .gap ∨ (Reading.ofText text).mode = .bare)) := by
  unfold EndsInKeptBlank
  rw [Reading.ofText_concat, List.getLast?_concat]
  simp only [Option.map_some, Option.getD_some, and_comm (b := Text.isBlank c = true)]
  refine and_congr_right fun hblank => ?_
  have hmark := isMark_of_isBlank hblank
  simp only [isMark, Bool.or_eq_false_iff, decide_eq_false_iff_not] at hmark
  obtain ⟨⟨hback, hsingle⟩, hdouble⟩ := hmark
  generalize Reading.ofText text = r
  obtain ⟨complete, mode, word⟩ := r
  cases mode with
  | gap | bare =>
    cases hc : isSeparator c <;> simp [Reading.next, advance, hc, hback, hsingle, hdouble]
  | single | double => simp [Reading.next, advance, hback, hsingle, hdouble]
  | bareEscape => simp [Reading.next, advance]
  | doubleEscape => simp [Reading.next, advance, hback, hdouble]

end Shell.Words

namespace Request

open Shell.Words

/-! ## Requests with the cursor on the last word -/

section

variable (front : List String) (last : String)

/-- The request of words with the cursor on the last one. -/
theorem tokens_ofWords_concat :
    (ofWords (front ++ [last]) front.length).tokens = front.map (⟨·, false⟩) ++ [⟨last, true⟩] := by
  have hpad : padTo front.length (front ++ [last]) = front ++ [last] := by simp [padTo]
  show mark front.length (padTo front.length (front ++ [last])) = _
  rw [hpad]
  apply List.ext_getElem?
  intro i
  rw [mark, List.getElem?_mapIdx]
  by_cases hi : i < front.length
  · simp [List.getElem?_append_left, hi, Nat.ne_of_lt hi]
  · by_cases hlast : i = front.length
    · subst hlast
      simp
    · have hout : (front ++ [last]).length ≤ i := by
        rw [List.length_append, List.length_singleton]
        omega
      rw [List.getElem?_eq_none hout, List.getElem?_eq_none (by simpa using hout)]
      rfl

theorem current_ofWords_concat : (ofWords (front ++ [last]) front.length).current = last := by
  rw [current_ofWords]
  simp [wordAt]

end

/-- The request `r'` has the words of `r`, with one more character at the end of the word under the
cursor. -/
structure ExtendedBy (r r' : Request) (x : Char) : Prop where
  length_tokens : r'.tokens.length = r.tokens.length
  cursor : r'.cursor = r.cursor
  before : r'.tokens.take r.cursor = r.tokens.take r.cursor
  current : r'.current = r.current.push x

theorem extendedBy_concat (front : List String) (last : String) (x : Char) :
    (ofWords (front ++ [last]) front.length).ExtendedBy
      (ofWords (front ++ [last.push x]) front.length) x where
  length_tokens := by simp [tokens_ofWords_concat]
  cursor := rfl
  before := by simp [tokens_ofWords_concat, cursor_ofWords]
  current := by rw [current_ofWords_concat, current_ofWords_concat]

/-! ## The words of a line -/

variable {text : List Char} {words : List (List Char)} {x : Char}

/-- A word comes in behind the words of a line if there are none, or if the line ends in a blank. -/
theorem lineWords_of_split (h : split text = some words) :
    lineWords text =
      if words = [] ∨ (text.getLast?.map Text.isBlank).getD false = true then
        words.map String.ofList ++ [""]
      else words.map String.ofList := by
  rw [lineWords, splitOpen, h, Option.getD_some]
  simp

/-- At the end of a line the splitter stands in a gap or in a word, and of the word the last
character may be a blank. A new word comes in unless it stands in a word without such a blank. -/
theorem lineWords_cases (h : split text = some words) :
    let r := Reading.ofText text
    r.mode = .gap ∧ words = r.complete ∧ lineWords text = words.map String.ofList ++ [""] ∨
      r.mode = .bare ∧ words = r.complete ++ [r.word] ∧
        (EndsInKeptBlank text ∧ lineWords text = words.map String.ofList ++ [""] ∨
          ¬ EndsInKeptBlank text ∧ lineWords text = words.map String.ofList) := by
  intro r
  have hfinish : r.finish [] = some words := by rw [← split_append, List.append_nil, h]
  rw [lineWords_of_split h]
  rcases Reading.finish_nil hfinish with ⟨hmode, hwords⟩ | ⟨hmode, hwords⟩
  · -- the line is empty, or its last character is a separator
    refine .inl ⟨hmode, hwords, ?_⟩
    rw [if_pos]
    rcases List.eq_nil_or_concat text with rfl | ⟨front, c, hconcat⟩
    · exact .inl hwords
    · rw [List.concat_eq_append] at hconcat
      subst hconcat
      right
      have hblank := isBlank_of_isSeparator (Reading.isSeparator_of_gap hmode)
      simp [hblank]
  · refine .inr ⟨hmode, hwords, ?_⟩
    have hne : words ≠ [] := by simp [hwords]
    by_cases hlast : (text.getLast?.map Text.isBlank).getD false = true
    · exact .inl ⟨⟨hmode, hlast⟩, if_pos (.inr hlast)⟩
    · exact .inr ⟨fun hkept => hlast hkept.2, if_neg (by simp [hne, hlast])⟩

/-- A letter starts a word behind a gap, and is added to a word. -/
theorem lineWords_concat (text : List Char) (hmark : isMark x = false)
    (hblank : Text.isBlank x = false) :
    let r := Reading.ofText text
    (r.mode = .gap →
        lineWords (text ++ [x]) = r.complete.map String.ofList ++ ["".push x]) ∧
      (r.mode = .bare →
        lineWords (text ++ [x]) =
          r.complete.map String.ofList ++ [(String.ofList r.word).push x]) := by
  intro r
  have hsep : isSeparator x = false := by
    cases hx : isSeparator x with
    | false => rfl
    | true => rw [isBlank_of_isSeparator hx] at hblank; cases hblank
  obtain ⟨hstart, hgrow⟩ := Reading.finish_singleton (r := r) hmark hsep
  constructor
  · intro hmode
    rw [lineWords_of_split ((split_append text [x]).trans (hstart hmode)),
      if_neg (by simp [hblank])]
    simp
  · intro hmode
    rw [lineWords_of_split ((split_append text [x]).trans (hgrow hmode)),
      if_neg (by simp [hblank])]
    simp

theorem ofLine_of_lineWords {line : String} {front : List String} {last : String}
    (h : lineWords line.toList = front ++ [last]) :
    ofLine line none = ofWords (front ++ [last]) front.length := by
  rw [ofLine_eq_ofWords (show lineWords (headOfLine line none) = _ from h)]
  simp

/-- On a line that can be split the cursor stands on a new word exactly if the splitter stands in
a gap or the line ends in a blank that belongs to a word. A letter that is typed there then goes to
the word under the cursor, and nothing else changes, exactly if it does not end in such a blank. -/
theorem extendedBy_push_iff {line : String} (hline : split line.toList = some words)
    (hx : x.isAlpha = true) :
    ((ofLine line none).ExtendedBy (ofLine (line.push x) none) x ↔
        ¬ EndsInKeptBlank line.toList) ∧
      (ofLine line none = ofWords (words.map String.ofList ++ [""]) words.length ↔
        (Reading.ofText line.toList).mode = .gap ∨ EndsInKeptBlank line.toList) := by
  have hplain : isPlain x = true := by simp [isPlain, Char.isAlphanum, hx]
  obtain ⟨hstart, hgrow⟩ := lineWords_concat line.toList (isMark_of_isPlain hplain)
    (not_isBlank_of_isPlain hplain)
  rw [← String.toList_push] at hstart hgrow
  rcases lineWords_cases hline with ⟨hmode, hwords, hnow⟩ | ⟨hmode, hwords, hcases⟩
  · -- the cursor stands on a new word, which the letter starts
    have hkept : ¬ EndsInKeptBlank line.toList := by
      rintro ⟨hbare, -⟩
      rw [hmode] at hbare
      cases hbare
    have hlater := hstart hmode
    rw [← hwords] at hlater
    have hnew := ofLine_of_lineWords hnow
    have hgrown := extendedBy_concat (words.map String.ofList) "" x
    rw [← hnew, ← ofLine_of_lineWords hlater] at hgrown
    rw [List.length_map] at hnew
    exact ⟨iff_of_true hgrown hkept, iff_of_true hnew (.inl hmode)⟩
  · have hgap : (Reading.ofText line.toList).mode ≠ .gap := by
      rw [hmode]
      decide
    have hlater := ofLine_of_lineWords (hgrow hmode)
    rcases hcases with ⟨hkept, hnow⟩ | ⟨hkept, hnow⟩
    · -- the cursor stands on a new word, which the letter does not start
      have hnew := ofLine_of_lineWords hnow
      have hno : ¬ (ofLine line none).ExtendedBy (ofLine (line.push x) none) x := by
        intro hgrown
        have hcursor := hgrown.cursor
        rw [hnew, hlater, hwords] at hcursor
        simp [cursor_ofWords] at hcursor
      rw [List.length_map] at hnew
      exact ⟨iff_of_false hno (not_not_intro hkept), iff_of_true hnew (.inr hkept)⟩
    · -- it stands on the last word, to which the letter is added
      rw [hwords, List.map_append] at hnow
      have hnow' := ofLine_of_lineWords hnow
      have hgrown := extendedBy_concat ((Reading.ofText line.toList).complete.map String.ofList)
        (String.ofList (Reading.ofText line.toList).word) x
      rw [← hnow', ← hlater] at hgrown
      have hother : ofLine line none ≠ ofWords (words.map String.ofList ++ [""]) words.length := by
        intro hnew
        have hcursor := congrArg Request.cursor hnew
        rw [hnow', hwords] at hcursor
        simp [cursor_ofWords] at hcursor
      exact ⟨iff_of_true hgrown hkept, iff_of_false hother (not_or.2 ⟨hgap, hkept⟩)⟩

/-- A space in quotes that are closed behind it is no such blank: the letter goes to the word under
the cursor. -/
theorem extendedBy_push_quotedSpace :
    split "peerd -d 'my '".toList = some ["peerd".toList, "-d".toList, "my ".toList] ∧
      'x'.isAlpha = true ∧ ¬ EndsInKeptBlank "peerd -d 'my '".toList ∧
      (ofLine "peerd -d 'my '" none).ExtendedBy (ofLine ("peerd -d 'my '".push 'x') none) 'x' := by
  have hline : split "peerd -d 'my '".toList =
      some ["peerd".toList, "-d".toList, "my ".toList] := by decide
  have hkept : ¬ EndsInKeptBlank "peerd -d 'my '".toList := by decide
  have hletter : 'x'.isAlpha = true := by decide
  exact ⟨hline, hletter, hkept, (extendedBy_push_iff hline hletter).1.2 hkept⟩

/-- Behind a space with a backslash, or behind a no-break space, the letter goes to the word before
the one under the cursor. -/
theorem not_extendedBy_keptBlank :
    split "peerd -d my\\ ".toList = some ["peerd".toList, "-d".toList, "my ".toList] ∧
      ¬ (ofLine "peerd -d my\\ " none).ExtendedBy (ofLine ("peerd -d my\\ ".push 'x') none) 'x' ∧
      split "peerd -d my\u00A0".toList =
        some ["peerd".toList, "-d".toList, "my\u00A0".toList] ∧
      ¬ (ofLine "peerd -d my\u00A0" none).ExtendedBy
        (ofLine ("peerd -d my\u00A0".push 'x') none) 'x' := by
  refine ⟨by decide, fun hgrown => ?_, by decide, fun hgrown => ?_⟩
  · exact absurd hgrown.cursor (by decide)
  · exact absurd hgrown.cursor (by decide)

end Request

end TabCompletion
