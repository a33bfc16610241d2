import Mathlib.Tactic.SplitIfs
import TabCompletion.Shell.Words

/-!
# Following the splitter

The splitter is followed one character at a time. Inside a word a step changes the mode and the
word that is being read (`advance`); a separator outside quotes ends the word. A `Reading` holds
this and the words that are complete. What a reading makes of the rest of a line is what the
splitter makes of the whole line (`split_append`), so the words of a line are settled by the
reading at its end.
-/

namespace TabCompletion.Shell.Words

/-! ## Inside a word -/

/-- The character means more than itself to the splitter. -/
def isMark (c : Char) : Bool := c = '\\' || c = '\x27' || c = '\x22'

theorem isMark_of_isPlain {c : Char} (h : isPlain c = true) : isMark c = false := by
  rw [Bool.eq_false_iff]
  intro hmark
  simp only [isMark, Bool.or_eq_true, decide_eq_true_eq] at hmark
  rcases hmark with (rfl | rfl) | rfl <;> cases h

/-- Where the splitter stands behind a character that is no separator, and what it has read of
the word. -/
def advance (s : Mode × List Char) (c : Char) : Mode × List Char :=
  match s.1 with
  | .gap | .bare =>
    let word := if s.1 = .gap then [] else s.2
    if c = '\\' then (.bareEscape, word)
    else if c = '\x27' then (.single, word)
    else if c = '\x22' then (.double, word)
    else (.bare, word ++ [c])
  | .single => if c = '\x27' then (.bare, s.2) else (.single, s.2 ++ [c])
  | .double =>
    if c = '\x22' then (.bare, s.2)
    else if c = '\\' then (.doubleEscape, s.2)
    else (.double, s.2 ++ [c])
  | .bareEscape => (.bare, s.2 ++ [c])
  | .doubleEscape =>
    if c = '\x22' || c = '\\' then (.double, s.2 ++ [c]) else (.double, s.2 ++ ['\\', c])

/-- In quotes and behind a backslash a separator is a character like any other. -/
theorem splitFrom_cons {c : Char} {s : Mode × List Char}
    (hc : isSeparator c = false ∨ s.1 ≠ .gap ∧ s.1 ≠ .bare) (rest : List Char) :
    splitFrom s.1 s.2 (c :: rest) = splitFrom (advance s c).1 (advance s c).2 rest := by
  obtain ⟨mode, word⟩ := s
  cases mode with
  | gap =>
      have hsep : ¬ isSeparator c = true := by simpa using hc
      simp only [splitFrom, if_neg hsep, advance, if_true]
      split_ifs <;> rfl
  | bare =>
      have hsep : ¬ isSeparator c = true := by simpa using hc
      simp only [splitFrom, if_neg hsep, advance, reduceCtorEq, if_false]
      split_ifs <;> rfl
  | single =>
      simp only [splitFrom, advance]
      split_ifs <;> rfl
  | double =>
      simp only [splitFrom, advance]
      split_ifs <;> rfl
  | bareEscape => rfl
  | doubleEscape =>
      simp only [splitFrom, advance]
      split_ifs <;> rfl

theorem advance_ne_gap (s : Mode × List Char) (c : Char) : (advance s c).1 ≠ .gap := by
  obtain ⟨mode, word⟩ := s
  cases mode with
  | gap | bare => simp only [advance]; split_ifs <;> simp
  | single => simp only [advance]; split_ifs <;> simp
  | double => simp only [advance]; split_ifs <;> simp
  | bareEscape => simp [advance]
  | doubleEscape => simp only [advance]; split_ifs <;> simp

/-- A character that is no mark is read. -/
theorem advance_bare {c : Char} (hc : isMark c = false) (word : List Char) :
    advance (.bare, word) c = (.bare, word ++ [c]) := by
  simp [isMark] at hc
  simp [advance, hc]

/-! ## From the start of a line -/

/-- How far the splitter has read a line: the words that are complete, where it stands, and what
it has of the word there. -/
structure Reading where
  complete : List (List Char)
  mode : Mode
  word : List Char

namespace Reading

/-- At the start of a line. -/
def start : Reading := ⟨[], .gap, []⟩

/-- Behind one more character. -/
def next (r : Reading) (c : Char) : Reading :=
  if isSeparator c && r.mode = .gap then r
  else if isSeparator c && r.mode = .bare then ⟨r.complete ++ [r.word], .gap, []⟩
  else ⟨r.complete, (advance (r.mode, r.word) c).1, (advance (r.mode, r.word) c).2⟩

/-- Behind a text. -/
def ofText (text : List Char) : Reading := text.foldl next start

/-- The words of the line, if this is the rest of it. -/
def finish (r : Reading) (rest : List Char) : Option (List (List Char)) :=
  (splitFrom r.mode r.word rest).map (r.complete ++ ·)

theorem finish_start (line : List Char) : start.finish line = split line := by
  rw [finish, split]
  exact Option.map_id'

theorem finish_cons (r : Reading) (c : Char) (rest : List Char) :
    r.finish (c :: rest) = (r.next c).finish rest := by
  obtain ⟨complete, mode, word⟩ := r
  unfold next
  by_cases hgap : isSeparator c = true ∧ mode = .gap
  · -- a gap goes on
    obtain ⟨hc, rfl⟩ := hgap
    simp [finish, splitFrom, hc]
  · by_cases hbare : isSeparator c = true ∧ mode = .bare
    · -- a word is complete
      obtain ⟨hc, rfl⟩ := hbare
      simp [finish, splitFrom, hc, Option.map_map, Function.comp_def]
    · have hin : isSeparator c = false ∨ mode ≠ .gap ∧ mode ≠ .bare := by
        cases hc : isSeparator c with
        | false => exact .inl rfl
        | true => exact .inr ⟨fun h => hgap ⟨hc, h⟩, fun h => hbare ⟨hc, h⟩⟩
      have hstep := splitFrom_cons (s := (mode, word)) hin rest
      rw [if_neg (by simpa using hgap), if_neg (by simpa using hbare)]
      exact congrArg (Option.map (complete ++ ·)) hstep

theorem finish_append (r : Reading) (text rest : List Char) :
    r.finish (text ++ rest) = (text.foldl next r).finish rest := by
  induction text generalizing r with
  | nil => rfl
  | cons c text ih => rw [List.cons_append, finish_cons, ih, List.foldl_cons]

theorem ofText_concat (text : List Char) (c : Char) :
    ofText (text ++ [c]) = (ofText text).next c := by
  simp [ofText]

end Reading

/-- The words of a line are those that the reading behind its front makes of the rest. -/
theorem split_append (text rest : List Char) :
    split (text ++ rest) = (Reading.ofText text).finish rest := by
  rw [← Reading.finish_start, Reading.finish_append]
  rfl

end TabCompletion.Shell.Words
