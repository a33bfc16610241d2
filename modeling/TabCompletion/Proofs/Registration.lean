import TabCompletion.Proofs.GrammarDocument
import TabCompletion.Proofs.Path
import TabCompletion.Proofs.Splitter
import TabCompletion.Proofs.Words
import TabCompletion.Shell.Glue

/-!
# What a script registers

The last line of a script registers the function that completes a command. The command stands on
it as it is, without quotes, so a character that the splitter takes for more than itself may make
another word of it. `Shell.words_lastLine_iff` says when the command is a word of the line: if it
holds no quote and no backslash; or if it leaves a quote open at the end of the line, for then the
line is cut at its blanks. The command stands in the middle of the line for fish, where that is of
no help.

The splitter is followed through the command one character at a time (`advance`). It never reads
more characters than it passes, and it reads fewer if it passes a quote or a backslash
(`length_foldl_advance_lt`).
-/

namespace TabCompletion

namespace Text

/-! ## Lines -/

/-- The last line of a text whose lines all end in a line feed. -/
def lastLine (s : String) : String := (splitLines s).dropLast.getLast?.getD ""

theorem lastLine_append (before : String) {line : String} (hline : '\n' ∉ line.toList) :
    lastLine (before ++ "\n" ++ line ++ "\n") = line := by
  have htext : (before ++ "\n" ++ line ++ "\n").toList =
      before.toList ++ '\n' :: (line.toList ++ '\n' :: []) := by
    simp
  have hpieces : splitAt '\n' (line.toList ++ '\n' :: []) = [line.toList, []] := by
    rw [splitAt_append hline]
    rfl
  rw [lastLine, splitLines, htext, splitAt_append_cons, hpieces]
  simp

/-! ## Cutting at blanks -/

theorem blankSplitFrom_append {cs : List Char} (hcs : ∀ c ∈ cs, isBlank c = false)
    (word rest : List Char) :
    blankSplitFrom word (cs ++ rest) = blankSplitFrom (word ++ cs) rest := by
  induction cs generalizing word with
  | nil => simp
  | cons c cs ih =>
      obtain ⟨hc, hcs⟩ := List.forall_mem_cons.1 hcs
      rw [List.cons_append, blankSplitFrom, if_neg (by simp [hc]), ih hcs]
      simp

/-- A space ends the word in front of it. -/
theorem blankSplit_cons {word : List Char} (hne : word ≠ [])
    (hword : ∀ c ∈ word, isBlank c = false) (rest : List Char) :
    blankSplit (word ++ ' ' :: rest) = word :: blankSplit rest := by
  have hblank : isBlank ' ' = true := by decide
  rw [blankSplit, blankSplitFrom_append hword, List.nil_append, blankSplitFrom, if_pos hblank,
    if_neg (by simpa using hne)]
  rfl

theorem blankSplit_singleton {word : List Char} (hne : word ≠ [])
    (hword : ∀ c ∈ word, isBlank c = false) : blankSplit word = [word] := by
  have h := blankSplitFrom_append hword [] []
  rw [List.append_nil, List.nil_append] at h
  rw [blankSplit, h, blankSplitFrom, if_neg (by simpa using hne)]

end Text

namespace Shell.Words

/-! ## The splitter inside a word -/

/-- No character of the text means more than itself. -/
def IsLiteral (s : String) : Prop := ∀ c ∈ s.toList, isMark c = false

instance (s : String) : Decidable (IsLiteral s) :=
  List.decidableBAll (fun c => isMark c = false) s.toList

theorem splitFrom_append {cs : List Char} (hcs : ∀ c ∈ cs, isSeparator c = false)
    (s : Mode × List Char) (rest : List Char) :
    splitFrom s.1 s.2 (cs ++ rest) =
      splitFrom (cs.foldl advance s).1 (cs.foldl advance s).2 rest := by
  induction cs generalizing s with
  | nil => rfl
  | cons c cs ih =>
      obtain ⟨hc, hcs⟩ := List.forall_mem_cons.1 hcs
      rw [List.cons_append, splitFrom_cons (.inl hc), ih hcs]
      rfl

theorem foldl_advance_ne_gap {cs : List Char} (hne : cs ≠ []) (s : Mode × List Char) :
    (cs.foldl advance s).1 ≠ .gap := by
  -- the last step decides
  obtain ⟨front, c, rfl⟩ : ∃ front c, cs = front ++ [c] :=
    ⟨cs.dropLast, cs.getLast hne, (List.dropLast_append_getLast hne).symm⟩
  rw [List.foldl_append]
  exact advance_ne_gap _ c

/-- How many characters are certain to be passed unread: the closing quote. -/
def Mode.closing : Mode → Nat
  | .single | .double => 1
  | _ => 0

/-- The splitter reads at most the characters that it passes, without the quote that it still has
to find. -/
theorem length_foldl_advance (cs : List Char) (s : Mode × List Char)
    (hend : (cs.foldl advance s).1 = .bare) :
    (cs.foldl advance s).2.length + s.1.closing ≤ s.2.length + cs.length := by
  induction cs generalizing s with
  | nil =>
      have hbare : s.1 = .bare := hend
      simp [hbare, Mode.closing]
  | cons c cs ih =>
      have hrest := ih (advance s c) hend
      -- the step reads one character at most, or gives back the one it kept unread
      have hstep : (advance s c).2.length + s.1.closing ≤
          s.2.length + (advance s c).1.closing + 1 := by
        obtain ⟨mode, word⟩ := s
        cases mode with
        | gap | bare => simp only [advance]; split_ifs <;> simp [Mode.closing] <;> omega
        | single => simp only [advance]; split_ifs <;> simp [Mode.closing]
        | double => simp only [advance]; split_ifs <;> simp [Mode.closing]
        | bareEscape => simp [advance, Mode.closing]
        | doubleEscape => simp only [advance]; split_ifs <;> simp [Mode.closing]
      simp only [List.foldl_cons, List.length_cons]
      omega

/-- Behind a mark the word is shorter than what the splitter has passed. -/
theorem length_foldl_advance_lt {cs : List Char} (hmark : ∃ c ∈ cs, isMark c = true)
    (word : List Char) (hend : (cs.foldl advance (.bare, word)).1 = .bare) :
    (cs.foldl advance (.bare, word)).2.length < word.length + cs.length := by
  induction cs generalizing word with
  | nil =>
      obtain ⟨c, hc, -⟩ := hmark
      cases hc
  | cons c cs ih =>
      by_cases hc : isMark c = true
      · -- the mark itself is not read
        have hstep : (advance (.bare, word) c).2 = word := by
          simp only [isMark, Bool.or_eq_true, decide_eq_true_eq] at hc
          rcases hc with (rfl | rfl) | rfl <;> rfl
        have hrest := length_foldl_advance cs (advance (.bare, word) c) hend
        rw [hstep] at hrest
        simp only [List.foldl_cons, List.length_cons]
        omega
      · have hmark' : ∃ c ∈ cs, isMark c = true := by
          obtain ⟨d, hd, hmark⟩ := hmark
          rcases List.mem_cons.1 hd with rfl | hd
          · exact absurd hmark hc
          · exact ⟨d, hd, hmark⟩
        rw [List.foldl_cons, advance_bare (Bool.eq_false_iff.2 hc)] at hend ⊢
        have hrest := ih hmark' _ hend
        rw [List.length_append, List.length_singleton] at hrest
        rw [List.length_cons]
        omega

theorem foldl_advance_of_literal {cs : List Char} (hcs : ∀ c ∈ cs, isMark c = false)
    (word : List Char) : cs.foldl advance (.bare, word) = (.bare, word ++ cs) := by
  induction cs generalizing word with
  | nil => simp
  | cons c cs ih =>
      obtain ⟨hc, hcs⟩ := List.forall_mem_cons.1 hcs
      rw [List.foldl_cons, advance_bare hc, ih hcs]
      simp

/-- The whole word is read exactly if no character of it is a mark. -/
theorem foldl_advance_eq_bare_iff (cs : List Char) :
    cs.foldl advance (.bare, []) = (.bare, cs) ↔ ∀ c ∈ cs, isMark c = false := by
  constructor
  · intro hend c hc
    rw [Bool.eq_false_iff]
    intro hmark
    have hlt := length_foldl_advance_lt ⟨c, hc, hmark⟩ [] (congrArg Prod.fst hend)
    rw [hend] at hlt
    simp at hlt
  · intro hliteral
    exact foldl_advance_of_literal hliteral []

/-- A word without separators brings the splitter from a gap to where the word leaves it. -/
theorem splitFrom_gap_append {cs : List Char} (hne : cs ≠ [])
    (hcs : ∀ c ∈ cs, isSeparator c = false) (rest : List Char) :
    splitFrom .gap [] (cs ++ rest) =
      splitFrom (cs.foldl advance (.bare, [])).1 (cs.foldl advance (.bare, [])).2 rest := by
  obtain ⟨c, cs, rfl⟩ := List.exists_cons_of_ne_nil hne
  -- at a gap a word starts as it does at its first character
  exact splitFrom_append hcs (.gap, []) rest

/-! ## Lines of plain words -/

theorem splitOpen_cons {word : List Char} (hne : word ≠ []) (hplain : word.all isPlain = true)
    (rest : List Char) : splitOpen (word ++ ' ' :: rest) = word :: splitOpen rest := by
  have hquote : quote word = word := by
    rw [quote, if_neg (by simpa using hne), if_pos hplain]
  have hsplit : split (word ++ ' ' :: rest) = (split rest).map (word :: ·) := by
    have hspace : IsGap [' '] := by decide
    rw [split, ← hquote, splitFrom_quote, hquote]
    exact splitFrom_bare_gap word rest hspace (by decide)
  have hblank : Text.blankSplit (word ++ ' ' :: rest) = word :: Text.blankSplit rest := by
    apply Text.blankSplit_cons hne
    intro c hc
    exact not_isBlank_of_isPlain (List.all_eq_true.1 hplain c hc)
  rw [splitOpen, splitOpen, hsplit, hblank]
  cases split rest <;> rfl

theorem ofLine_eq_iff {line : String} {words : List String} :
    ofLine line = words ↔ splitOpen line.toList = words.map String.toList := by
  constructor
  · rintro rfl
    simp [ofLine, Function.comp_def]
  · intro h
    simp [ofLine, h, Function.comp_def]

/-! ## A word at the end of a line, and a word in front of others -/

section

variable {cs : List Char} (hne : cs ≠ []) (hcs : ∀ c ∈ cs, Text.isBlank c = false)

include hcs in
theorem not_isSeparator_of_not_isBlank : ∀ c ∈ cs, isSeparator c = false := by
  intro c hc
  rw [Bool.eq_false_iff]
  intro hsep
  have hblank := isBlank_of_isSeparator hsep
  rw [hcs c hc] at hblank
  cases hblank

include hne hcs in
/-- At the end of a line a word is itself if no character of it is a mark, or if it leaves the
line open. -/
theorem splitOpen_eq_singleton_iff :
    splitOpen cs = [cs] ↔ (∀ c ∈ cs, isMark c = false) ∨ split cs = none := by
  rw [← foldl_advance_eq_bare_iff]
  have hsplit := splitFrom_gap_append hne (not_isSeparator_of_not_isBlank hcs) []
  rw [List.append_nil] at hsplit
  have hgap := foldl_advance_ne_gap hne (.bare, [])
  unfold splitOpen split
  rw [hsplit, Text.blankSplit_singleton hne hcs]
  generalize cs.foldl advance (.bare, []) = s at hgap ⊢
  obtain ⟨mode, word⟩ := s
  cases mode with
  | gap => exact absurd rfl hgap
  | bare => simp [splitFrom]
  | single => simp [splitFrom]
  | double => simp [splitFrom]
  | bareEscape => simp [splitFrom]
  | doubleEscape => simp [splitFrom]

theorem splitFrom_single_append {arg : List Char} (harg : ∀ c ∈ arg, isMark c = false)
    (word rest : List Char) :
    splitFrom .single word (arg ++ rest) = splitFrom .single (word ++ arg) rest := by
  induction arg generalizing word with
  | nil => simp
  | cons c arg ih =>
      obtain ⟨hc, harg⟩ := List.forall_mem_cons.1 harg
      have hne : c ≠ '\x27' := by rintro rfl; cases hc
      rw [List.cons_append, splitFrom, if_neg hne, ih harg]
      simp

/-- Nothing ends double quotes but another one. -/
theorem splitFrom_double_eq_none {text : List Char} (htext : ∀ c ∈ text, c ≠ '\x22' ∧ c ≠ '\\')
    (word : List Char) : splitFrom .double word text = none := by
  induction text generalizing word with
  | nil => rfl
  | cons c text ih =>
      obtain ⟨⟨hquote, hback⟩, htext⟩ := List.forall_mem_cons.1 htext
      rw [splitFrom, if_neg hquote, if_neg hback, ih htext]

/-- What follows the command on a line for fish: two flags and a word in single quotes. -/
def flagsAnd (arg : List Char) : List Char :=
  [' ', '-', 'f', ' ', '-', 'a', ' ', '\x27'] ++ (arg ++ ['\x27'])

section

variable {arg : List Char} (harg : ∀ c ∈ arg, isMark c = false ∧ Text.isBlank c = false)

include harg

theorem splitFrom_bare_flagsAnd (word : List Char) :
    splitFrom .bare word (flagsAnd arg) = some [word, ['-', 'f'], ['-', 'a'], arg] := by
  have hquoted := splitFrom_single_append (fun c hc => (harg c hc).1) [] ['\x27']
  simp [flagsAnd, splitFrom, isSeparator, hquoted]

/-- The escaped blank becomes part of the word in front of it. -/
theorem splitFrom_bareEscape_flagsAnd (word : List Char) :
    splitFrom .bareEscape word (flagsAnd arg) =
      some [word ++ [' ', '-', 'f'], ['-', 'a'], arg] := by
  have hquoted := splitFrom_single_append (fun c hc => (harg c hc).1) [] ['\x27']
  simp [flagsAnd, splitFrom, isSeparator, hquoted]

/-- The quote in front of the last word closes the one that is open; the quote behind it is never
closed. -/
theorem splitFrom_single_flagsAnd (word : List Char) :
    splitFrom .single word (flagsAnd arg) = none := by
  have hsep := not_isSeparator_of_not_isBlank (fun c hc => (harg c hc).2)
  have hclosed := splitFrom_append hsep (.bare, word ++ [' ', '-', 'f', ' ', '-', 'a', ' ']) ['\x27']
  rw [foldl_advance_of_literal (fun c hc => (harg c hc).1)] at hclosed
  have htext : flagsAnd arg = [' ', '-', 'f', ' ', '-', 'a', ' '] ++ '\x27' :: (arg ++ ['\x27']) := rfl
  rw [htext, splitFrom_single_append (by simp [isMark]), splitFrom, if_pos rfl]
  exact hclosed

theorem ne_of_mem_flagsAnd : ∀ c ∈ flagsAnd arg, c ≠ '\x22' ∧ c ≠ '\\' := by
  intro c hc
  rw [flagsAnd, List.mem_append, List.mem_append] at hc
  rcases hc with hc | hc | hc
  · simp only [List.mem_cons, List.not_mem_nil, or_false] at hc
    rcases hc with rfl | rfl | rfl | rfl | rfl | rfl | rfl | rfl <;> decide
  · have hmark := (harg c hc).1
    constructor <;> rintro rfl <;> cases hmark
  · cases List.mem_singleton.1 hc
    decide

theorem splitFrom_double_flagsAnd (word : List Char) :
    splitFrom .double word (flagsAnd arg) = none :=
  splitFrom_double_eq_none (ne_of_mem_flagsAnd harg) word

/-- The blank is read, with the backslash in front of it. -/
theorem splitFrom_doubleEscape_flagsAnd (word : List Char) :
    splitFrom .doubleEscape word (flagsAnd arg) = none := by
  have htail : ∀ c ∈ (flagsAnd arg).tail, c ≠ '\x22' ∧ c ≠ '\\' := fun c hc =>
    ne_of_mem_flagsAnd harg c (List.mem_of_mem_tail hc)
  exact splitFrom_double_eq_none htail (word ++ ['\\', ' '])

theorem blankSplit_append_flagsAnd {cs : List Char} (hne : cs ≠ [])
    (hcs : ∀ c ∈ cs, Text.isBlank c = false) :
    Text.blankSplit (cs ++ flagsAnd arg) =
      [cs, ['-', 'f'], ['-', 'a'], '\x27' :: (arg ++ ['\x27'])] := by
  have hlast : ∀ c ∈ '\x27' :: (arg ++ ['\x27']), Text.isBlank c = false := by
    intro c hc
    rw [List.mem_cons, List.mem_append, List.mem_singleton] at hc
    rcases hc with rfl | hc | rfl
    · decide
    · exact (harg c hc).2
    · decide
  have htext : flagsAnd arg =
      ' ' :: (['-', 'f'] ++ ' ' :: (['-', 'a'] ++ ' ' :: ('\x27' :: (arg ++ ['\x27'])))) := rfl
  have hflag : ∀ letter, Text.isBlank letter = false →
      ∀ c ∈ ['-', letter], Text.isBlank c = false := by
    intro letter hletter c hc
    rcases List.mem_pair.1 hc with rfl | rfl
    · decide
    · exact hletter
  rw [htext, Text.blankSplit_cons hne hcs, Text.blankSplit_cons (by decide) (hflag 'f' (by decide)),
    Text.blankSplit_cons (by decide) (hflag 'a' (by decide)),
    Text.blankSplit_singleton (by simp) hlast]

/-- In front of other words, of which the last is quoted, a word is itself exactly if no character
of it is a mark. -/
theorem splitOpen_append_flagsAnd_iff {cs : List Char} (hne : cs ≠ [])
    (hcs : ∀ c ∈ cs, Text.isBlank c = false) :
    splitOpen (cs ++ flagsAnd arg) = [cs, ['-', 'f'], ['-', 'a'], arg] ↔
      ∀ c ∈ cs, isMark c = false := by
  rw [← foldl_advance_eq_bare_iff]
  have hgap := foldl_advance_ne_gap hne (.bare, [])
  have hquoted : '\x27' :: (arg ++ ['\x27']) ≠ arg := by
    intro h
    have hlength := congrArg List.length h
    simp at hlength
    omega
  unfold splitOpen split
  rw [splitFrom_gap_append hne (not_isSeparator_of_not_isBlank hcs),
    blankSplit_append_flagsAnd harg hne hcs]
  generalize cs.foldl advance (.bare, []) = s at hgap ⊢
  obtain ⟨mode, word⟩ := s
  cases mode with
  | gap => exact absurd rfl hgap
  | bare => simp [splitFrom_bare_flagsAnd harg]
  | single => simpa [splitFrom_single_flagsAnd harg] using hquoted
  | double => simpa [splitFrom_double_flagsAnd harg] using hquoted
  | bareEscape => simp [splitFrom_bareEscape_flagsAnd harg]
  | doubleEscape => simpa [splitFrom_doubleEscape_flagsAnd harg] using hquoted

end

end

end Shell.Words

namespace Shell

/-! ## The last line of a script -/

/-- The words that register the function of a command. -/
def registration (shell : Shell) (command : String) : List String :=
  match shell with
  | bash => ["complete", "-F", functionName command, "-o", "bashdefault", "-o", "default", command]
  | zsh => ["compdef", functionName command, command]
  | fish => ["complete", "-c", command, "-f", "-a", "(" ++ functionName command ++ ")"]

/-- The line that is meant to hold them. -/
def registrationLine (shell : Shell) (command : String) : String :=
  match shell with
  | bash => "complete -F " ++ functionName command ++ " -o bashdefault -o default " ++ command
  | zsh => "compdef " ++ functionName command ++ " " ++ command
  | fish => "complete -c " ++ command ++ " -f -a '(" ++ functionName command ++ ")'"

open Words

theorem isPlain_functionName (command : String) :
    (functionName command).toList.all isPlain = true := by
  have hchar : ∀ c : Char, isPlain (if isFunctionChar c then c else '_') = true := by
    intro c
    by_cases hc : isFunctionChar c = true
    · rw [if_pos hc]
      simp only [isFunctionChar, Bool.or_eq_true] at hc
      rcases hc with hc | hc <;> simp [isPlain, hc]
    · rw [if_neg hc]
      decide
  simp only [functionName, String.toList_append, String.toList_ofList, List.all_append,
    List.all_map, Bool.and_eq_true]
  exact ⟨⟨by decide, List.all_eq_true.2 fun c _ => hchar c⟩, by decide⟩

theorem functionName_ne_nil (command : String) : (functionName command).toList ≠ [] := by
  simp [functionName]

/-- The line is the last one of the script, and not the only one. -/
theorem exists_scriptLines_eq (shell : Shell) (command program : String) :
    ∃ front line, shell.scriptLines command program =
      front ++ [line, shell.registrationLine command] := by
  cases shell with
  | bash => exact ⟨[_, _, _, _], _, rfl⟩
  | zsh => exact ⟨[_, _, _, _, _, _, _, _, _, _, _], _, rfl⟩
  | fish => exact ⟨[_, _, _, _, _], _, rfl⟩

/-- Neither the command nor its function is more than one line. -/
theorem notMem_registrationLine (shell : Shell) (g : Grammar) :
    '\n' ∉ (shell.registrationLine g.command).toList := by
  have hblank : Text.isBlank '\n' = true := by decide
  have hcommand : '\n' ∉ g.command.toList := by
    intro hmem
    obtain ⟨-, hname⟩ := (isCommandName_iff g.command).1 g.command_name
    rw [hname _ hmem] at hblank
    cases hblank
  have hfunction : '\n' ∉ (functionName g.command).toList := by
    intro hmem
    have hplain := List.all_eq_true.1 (isPlain_functionName g.command) _ hmem
    rw [not_isBlank_of_isPlain hplain] at hblank
    cases hblank
  unfold registrationLine
  cases shell <;>
    simp only [String.toList_append, List.mem_append, hcommand, hfunction, or_false] <;> decide

theorem lastLine_script (shell : Shell) (program : String) (g : Grammar) :
    Text.lastLine (shell.script g.command program) = shell.registrationLine g.command := by
  obtain ⟨front, line, hlines⟩ := shell.exists_scriptLines_eq g.command program
  have hscript : shell.script g.command program =
      String.join (front.map (· ++ "\n")) ++ line ++ "\n" ++ shell.registrationLine g.command ++
        "\n" := by
    rw [script, hlines, List.map_append, String.join_append]
    simp [String.append_assoc]
  rw [hscript]
  exact Text.lastLine_append _ (shell.notMem_registrationLine g)

/-- The last word of the line for fish has round brackets, which are no marks. -/
theorem isMark_bracketed (command : String) :
    ∀ c ∈ ("(" ++ functionName command ++ ")").toList,
      isMark c = false ∧ Text.isBlank c = false := by
  intro c hc
  have htext : ("(" ++ functionName command ++ ")").toList =
      '(' :: ((functionName command).toList ++ [')']) := by simp
  rw [htext, List.mem_cons, List.mem_append, List.mem_singleton] at hc
  rcases hc with rfl | hc | rfl
  · decide
  · have hplain := List.all_eq_true.1 (isPlain_functionName command) c hc
    exact ⟨isMark_of_isPlain hplain, not_isBlank_of_isPlain hplain⟩
  · decide

/-- The last line of a script splits into the words that register the function of the command
exactly if no character of the command is a mark; or, in a script for bash or zsh, if the command
leaves a quote open. -/
theorem words_lastLine_iff (shell : Shell) (program : String) (g : Grammar) :
    ofLine (Text.lastLine (shell.script g.command program)) = shell.registration g.command ↔
      IsLiteral g.command ∨ (shell ≠ .fish ∧ split g.command.toList = none) := by
  obtain ⟨hne, hcommand⟩ := (isCommandName_iff g.command).1 g.command_name
  have hfunction := isPlain_functionName g.command
  have hfunctionNe := functionName_ne_nil g.command
  rw [lastLine_script, ofLine_eq_iff]
  cases shell with
  | bash =>
      have hline : (bash.registrationLine g.command).toList =
          "complete".toList ++ ' ' :: ("-F".toList ++ ' ' :: ((functionName g.command).toList ++
            ' ' :: ("-o".toList ++ ' ' :: ("bashdefault".toList ++ ' ' :: ("-o".toList ++
              ' ' :: ("default".toList ++ ' ' :: g.command.toList)))))) := by
        unfold registrationLine
        simp
      rw [hline, splitOpen_cons (by decide) (by decide), splitOpen_cons (by decide) (by decide),
        splitOpen_cons hfunctionNe hfunction, splitOpen_cons (by decide) (by decide),
        splitOpen_cons (by decide) (by decide), splitOpen_cons (by decide) (by decide),
        splitOpen_cons (by decide) (by decide)]
      simpa [registration, IsLiteral] using splitOpen_eq_singleton_iff hne hcommand
  | zsh =>
      have hline : (zsh.registrationLine g.command).toList =
          "compdef".toList ++ ' ' :: ((functionName g.command).toList ++
            ' ' :: g.command.toList) := by
        unfold registrationLine
        simp
      rw [hline, splitOpen_cons (by decide) (by decide), splitOpen_cons hfunctionNe hfunction]
      simpa [registration, IsLiteral] using splitOpen_eq_singleton_iff hne hcommand
  | fish =>
      have hline : (fish.registrationLine g.command).toList =
          "complete".toList ++ ' ' :: ("-c".toList ++ ' ' ::
            (g.command.toList ++ flagsAnd ("(" ++ functionName g.command ++ ")").toList)) := by
        unfold registrationLine
        simp [flagsAnd]
      rw [hline, splitOpen_cons (by decide) (by decide), splitOpen_cons (by decide) (by decide)]
      simpa [registration, IsLiteral] using
        splitOpen_append_flagsAnd_iff (isMark_bracketed g.command) hne hcommand

/-- The grammar of a command with quotes around a letter. -/
def quotedGrammar : Grammar where
  command := "a'b'"
  options := []
  command_name := by decide
  long_nodup := List.nodup_nil
  short_nodup := List.nodup_nil

/-- The scripts of that command register its function for the name without the quotes. -/
theorem words_lastLine_quotedGrammar :
    ofLine (Text.lastLine (bash.script quotedGrammar.command)) =
        ["complete", "-F", "_a_b__peercomp", "-o", "bashdefault", "-o", "default", "ab"] ∧
      ∀ shell : Shell, ofLine (Text.lastLine (shell.script quotedGrammar.command)) ≠
        shell.registration quotedGrammar.command := by
  refine ⟨by rw [lastLine_script]; decide, ?_⟩
  intro shell
  rw [lastLine_script]
  cases shell <;> decide

end Shell

end TabCompletion
