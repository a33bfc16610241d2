import TabCompletion.Proofs.Request

/-!
# Quoted words on a line

A line that quotes words (`Quotes`) holds each of them in its quoted form, with characters that
separate words between two of them. The splitter finds exactly these words (`Quotes.split`): a
quoted word takes it from a gap to the end of that word, whatever the word holds
(`splitFrom_quote`). So the request of such a line is the request of its words, with a new
empty word under the cursor if the line ends in a gap (`Request.ofLine_of_quotes`).
-/

namespace TabCompletion

namespace Shell.Words

/-- A run of characters that separate words. -/
def IsGap (cs : List Char) : Prop := ∀ c ∈ cs, isSeparator c = true

instance (cs : List Char) : Decidable (IsGap cs) :=
  List.decidableBAll (fun c => isSeparator c = true) cs

/-- The text holds the words in their quoted forms, with a gap between two of them. -/
inductive Quotes : List String → List Char → Prop
  | last (word : String) : Quotes [word] (quote word.toList)
  | cons (word : String) {gap : List Char} {words : List String} {text : List Char}
      (hgap : IsGap gap) (hne : gap ≠ []) (htext : Quotes words text) :
      Quotes (word :: words) (quote word.toList ++ (gap ++ text))

/-! ## Characters -/

theorem isBlank_of_isSeparator {c : Char} (h : isSeparator c = true) : Text.isBlank c = true := by
  simp only [isSeparator, Bool.or_eq_true, decide_eq_true_eq] at h
  rcases h with ((rfl | rfl) | rfl) | rfl <;> decide

/-- A plain character stands between the blank and the DEL of the ASCII table. -/
theorem toNat_of_isPlain {c : Char} (h : isPlain c = true) : 32 < c.toNat ∧ c.toNat < 127 := by
  simp only [isPlain, Bool.or_eq_true, decide_eq_true_eq] at h
  rcases h with (((((((((h | rfl) | rfl) | rfl) | rfl) | rfl) | rfl) | rfl) | rfl) | rfl) | rfl
  · -- a letter or a digit
    have hcases : (c.isUpper || c.isLower || c.isDigit) = true := h
    rw [Bool.or_eq_true, Bool.or_eq_true] at hcases
    rcases hcases with (hupper | hlower) | hdigit
    · have hval : 'A'.val ≤ c.val ∧ c.val ≤ 'Z'.val := of_decide_eq_true hupper
      have hnat : 65 ≤ c.toNat ∧ c.toNat ≤ 90 := hval
      omega
    · have hval : (decide ('a'.val ≤ c.val) && decide (c.val ≤ 'z'.val)) = true := hlower
      rw [Bool.and_eq_true, decide_eq_true_iff, decide_eq_true_iff] at hval
      have hnat : 97 ≤ c.toNat ∧ c.toNat ≤ 122 := hval
      omega
    · have hnat : 48 ≤ c.toNat ∧ c.toNat ≤ 57 := Char.isDigit_iff_toNat.1 hdigit
      omega
  all_goals decide

theorem not_isBlank_of_isPlain {c : Char} (h : isPlain c = true) : Text.isBlank c = false := by
  obtain ⟨hlow, hhigh⟩ := toNat_of_isPlain h
  rw [Bool.eq_false_iff]
  intro hblank
  simp only [Text.isBlank, Text.isBlankCode, Bool.or_eq_true, Bool.and_eq_true,
    decide_eq_true_eq, beq_iff_eq] at hblank
  omega

theorem not_isSeparator_of_isPlain {c : Char} (h : isPlain c = true) : isSeparator c = false := by
  rw [Bool.eq_false_iff]
  intro hsep
  have hblank := isBlank_of_isSeparator hsep
  rw [not_isBlank_of_isPlain h] at hblank
  cases hblank

/-! ## The splitter on gaps and quoted words -/

section

variable (word rest : List Char)

theorem splitFrom_gap {gap : List Char} (hgap : IsGap gap) :
    splitFrom .gap word (gap ++ rest) = splitFrom .gap word rest := by
  induction gap with
  | nil => rfl
  | cons c gap ih =>
      obtain ⟨hc, hgap⟩ := List.forall_mem_cons.1 hgap
      rw [List.cons_append, splitFrom, if_pos hc]
      exact ih hgap

/-- A gap ends the word in front of it. -/
theorem splitFrom_bare_gap {gap : List Char} (hgap : IsGap gap) (hne : gap ≠ []) :
    splitFrom .bare word (gap ++ rest) = (splitFrom .gap [] rest).map (word :: ·) := by
  cases gap with
  | nil => exact absurd rfl hne
  | cons c gap =>
      obtain ⟨hc, hgap⟩ := List.forall_mem_cons.1 hgap
      rw [List.cons_append, splitFrom, if_pos hc, splitFrom_gap [] rest hgap]

theorem splitFrom_bare_cons {c : Char} (hc : isPlain c = true) :
    splitFrom .bare word (c :: rest) = splitFrom .bare (word ++ [c]) rest := by
  have hsep := not_isSeparator_of_isPlain hc
  have hback : c ≠ '\\' := by rintro rfl; cases hc
  have hsingle : c ≠ '\x27' := by rintro rfl; cases hc
  have hdouble : c ≠ '\x22' := by rintro rfl; cases hc
  rw [splitFrom, if_neg (Bool.eq_false_iff.1 hsep), if_neg hback, if_neg hsingle, if_neg hdouble]

theorem splitFrom_bare {cs : List Char} (hcs : cs.all isPlain = true) :
    splitFrom .bare word (cs ++ rest) = splitFrom .bare (word ++ cs) rest := by
  induction cs generalizing word with
  | nil => rw [List.nil_append, List.append_nil]
  | cons c cs ih =>
      rw [List.all_cons, Bool.and_eq_true] at hcs
      rw [List.cons_append, splitFrom_bare_cons word _ hcs.1, ih _ hcs.2, List.append_assoc]
      rfl

/-- Inside single quotes a character stands for itself; a single quote leaves them, and comes
back by way of double quotes. -/
theorem splitFrom_quoteChar (c : Char) :
    splitFrom .single word (quoteChar c ++ rest) = splitFrom .single (word ++ [c]) rest := by
  unfold quoteChar
  by_cases hc : c = '\x27'
  · rw [if_pos hc, hc]
    rfl
  · rw [if_neg hc, List.singleton_append, splitFrom, if_neg hc]

theorem splitFrom_flatMap_quoteChar (cs : List Char) :
    splitFrom .single word (cs.flatMap quoteChar ++ rest) =
      splitFrom .single (word ++ cs) rest := by
  induction cs generalizing word with
  | nil => rw [List.flatMap_nil, List.nil_append, List.append_nil]
  | cons c cs ih =>
      rw [List.flatMap_cons, List.append_assoc, splitFrom_quoteChar, ih, List.append_assoc]
      rfl

/-- The quoted form of a word brings the splitter from a gap to the end of the word. -/
theorem splitFrom_quote (cs : List Char) :
    splitFrom .gap word (quote cs ++ rest) = splitFrom .bare cs rest := by
  unfold quote
  split
  · next h =>
      rw [List.isEmpty_iff.1 h]
      rfl
  · split
    · next hne hplain =>
        -- the first character opens the word, the others are added to it
        cases cs with
        | nil => exact absurd rfl hne
        | cons c cs =>
            rw [List.all_cons, Bool.and_eq_true] at hplain
            have hstart : splitFrom .gap word (c :: (cs ++ rest)) =
                splitFrom .bare [] (c :: (cs ++ rest)) := by
              have hsep := Bool.eq_false_iff.1 (not_isSeparator_of_isPlain hplain.1)
              rw [splitFrom, splitFrom, if_neg hsep, if_neg hsep]
              rfl
            rw [List.cons_append, hstart, splitFrom_bare_cons _ _ hplain.1,
              splitFrom_bare _ _ hplain.2]
            rfl
    · rw [List.append_assoc, List.cons_append]
      show splitFrom .single [] (cs.flatMap quoteChar ++ ('\x27' :: rest)) = _
      rw [splitFrom_flatMap_quoteChar]
      rfl

end

/-! ## Lines -/

/-- The splitter finds the quoted words, whatever gap stands in front of them or behind. -/
theorem Quotes.split {words : List String} {text front back : List Char} (h : Quotes words text)
    (hfront : IsGap front) (hback : IsGap back) :
    Words.split (front ++ text ++ back) = some (words.map String.toList) := by
  rw [Words.split, List.append_assoc, splitFrom_gap [] _ hfront]
  induction h with
  | last word =>
      rw [splitFrom_quote]
      by_cases hne : back = []
      · rw [hne]
        rfl
      · rw [← List.append_nil back, splitFrom_bare_gap _ _ hback hne]
        rfl
  | cons word hgap hne htext ih =>
      rw [List.append_assoc, splitFrom_quote, List.append_assoc, splitFrom_bare_gap _ _ hgap hne,
        ih]
      rfl

/-- A quoted form does not end in a blank. -/
theorem getLast?_quote (cs : List Char) :
    ∃ c, (quote cs).getLast? = some c ∧ Text.isBlank c = false := by
  unfold quote
  split
  · exact ⟨'\x27', rfl, by decide⟩
  · split
    · next hne hplain =>
        have hne' : cs ≠ [] := fun e => hne (List.isEmpty_iff.2 e)
        have hmem := List.getLast_mem hne'
        exact ⟨cs.getLast hne', List.getLast?_eq_some_getLast hne',
          not_isBlank_of_isPlain (List.all_eq_true.1 hplain _ hmem)⟩
    · exact ⟨'\x27', List.getLast?_concat, by decide⟩

theorem Quotes.getLast? {words : List String} {text : List Char} (h : Quotes words text) :
    ∃ c, text.getLast? = some c ∧ Text.isBlank c = false := by
  induction h with
  | last word => exact getLast?_quote word.toList
  | cons word hgap hne htext ih =>
      obtain ⟨c, hc, hblank⟩ := ih
      exact ⟨c, by rw [List.getLast?_append, List.getLast?_append, hc]; rfl, hblank⟩

end Shell.Words

namespace Request

open Shell.Words

variable {words : List String} {text front back : List Char}

theorem splitOpen_of_quotes (h : Quotes words text) (hfront : IsGap front) (hback : IsGap back) :
    (splitOpen (front ++ text ++ back)).map String.ofList = words := by
  rw [splitOpen, h.split hfront hback, Option.getD_some, List.map_map]
  simp

theorem not_isEmpty_of_quotes (h : Quotes words text) : words.isEmpty = false := by
  cases h <;> rfl

/-- A line that ends in a quoted word has the cursor on it. -/
theorem lineWords_of_quotes (h : Quotes words text) (hfront : IsGap front) :
    lineWords (front ++ text) = words := by
  obtain ⟨c, hc, hblank⟩ := h.getLast?
  have hlast : (front ++ text).getLast? = some c := by
    rw [List.getLast?_append, hc]
    rfl
  have hsplit := @splitOpen_of_quotes _ _ _ [] h hfront nofun
  rw [List.append_nil] at hsplit
  rw [lineWords, hsplit, hlast]
  exact if_neg (by simp [not_isEmpty_of_quotes h, hblank])

/-- A line that ends in a gap has the cursor on a new word. -/
theorem lineWords_of_quotes_gap (h : Quotes words text) (hfront : IsGap front)
    (hback : IsGap back) (hne : back ≠ []) :
    lineWords (front ++ text ++ back) = words ++ [""] := by
  have hlast : (front ++ text ++ back).getLast? = some (back.getLast hne) := by
    rw [List.getLast?_append, List.getLast?_eq_some_getLast hne]
    rfl
  have hblank := isBlank_of_isSeparator (hback _ (List.getLast_mem hne))
  rw [lineWords, splitOpen_of_quotes h hfront hback, hlast]
  exact if_pos (by simp [hblank])

theorem ofLine_eq_ofWords {line : String} {point : Option Int}
    (h : lineWords (headOfLine line point) = words) :
    ofLine line point = ofWords words ((words.length : Int) - 1) := by
  rw [ofLine, h]

/-- What stands behind the cursor does not count. -/
theorem headOfLine_append (line rest : String) :
    headOfLine (line ++ rest) (some line.length) = headOfLine line none := by
  rw [headOfLine, headOfLine, String.toList_append, Int.toNat_natCast,
    List.take_left' String.length_toList]

/-- The request of a line that quotes words is the request of the words, with the cursor on the
last one; if the line ends in a gap, the cursor stands on a new empty word behind them. What
follows the cursor on a line never counts. -/
theorem ofLine_of_quotes (hfront : IsGap front) (h : Quotes words text) :
    ofLine (String.ofList (front ++ text)) none = ofWords words ((words.length : Int) - 1) ∧
      (∀ back, IsGap back → back ≠ [] →
        ofLine (String.ofList (front ++ text ++ back)) none =
          ofWords (words ++ [""]) words.length) ∧
      ∀ line rest : String, ofLine (line ++ rest) (some line.length) = ofLine line none := by
  refine ⟨?_, fun back hback hne => ?_, fun line rest => ?_⟩
  · refine ofLine_eq_ofWords ?_
    rw [headOfLine, String.toList_ofList, lineWords_of_quotes h hfront]
  · have hwords : lineWords (headOfLine (String.ofList (front ++ text ++ back)) none) =
        words ++ [""] := by
      rw [headOfLine, String.toList_ofList, lineWords_of_quotes_gap h hfront hback hne]
    rw [ofLine_eq_ofWords hwords, List.length_append]
    simp
  · rw [ofLine, ofLine, headOfLine_append]

/-- An empty word, a word with a blank, a quote and a backslash in it, and a word that is not
ASCII. -/
def sampleWords : List String := ["", "it's \\", "é"]

/-- A text that quotes these words. -/
def sampleText : String := "''\t 'it'\"'\"'s \\'\r\n'é'"

theorem quotes_sampleText : Quotes sampleWords sampleText.toList := by
  have htext : sampleText.toList = quote "".toList ++
      (['\t', ' '] ++ (quote "it's \\".toList ++ (['\r', '\n'] ++ quote "é".toList))) := by
    decide
  rw [htext]
  exact .cons _ (by decide) (by decide) (.cons _ (by decide) (by decide) (.last _))

theorem ofLine_sampleText :
    IsGap ['\n'] ∧ Quotes sampleWords sampleText.toList ∧
      ofLine (String.ofList (['\n'] ++ sampleText.toList)) none = ofWords sampleWords (3 - 1) ∧
      ofLine (String.ofList (['\n'] ++ sampleText.toList ++ [' ', '\t'])) none =
        ofWords (sampleWords ++ [""]) 3 ∧
      ofLine ("peerd -o" ++ " 'tcp") (some "peerd -o".length) = ofLine "peerd -o" none := by
  have hline := @ofLine_of_quotes _ _ ['\n'] (by decide) quotes_sampleText
  exact ⟨by decide, quotes_sampleText, hline.1, hline.2.1 [' ', '\t'] (by decide) (by decide),
    hline.2.2 _ _⟩

end Request

end TabCompletion
