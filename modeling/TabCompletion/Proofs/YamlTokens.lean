import Mathlib.Tactic.SplitIfs
import TabCompletion.Yaml.Token.Lexer

/-!
# Faults of the lexer

Reading a YAML text stops at a broken rule or at a fault. `Ensures` says of a reading which faults
it allows and what holds of its value; a reading that is made of others ensures what they ensure
(`Ensures.bind`), so that one lemma for each function of the reader is enough.

The lexer goes through the text from its front to its end: the unread text is always an end of the
text (`Cursor.In`). It allows no other fault than that of a number that is too large, and such a
number is written out in the text (`Oversized`, `oversized_of_tokens`).
-/

namespace TabCompletion.Yaml

/-! ## What a reading ensures -/

/-- The reading gives a value of which `post` holds, stops at a broken rule, or stops at a fault
that has a `cause`. -/
def Ensures {α : Type} (cause : Fault → Prop) (post : α → Prop) : Reading α → Prop
  | .ok a => post a
  | .error (.malformed _) => True
  | .error (.fault fault) => cause fault

section

variable {α β : Type} {cause cause' : Fault → Prop} {post : α → Prop} {post' : β → Prop}

theorem ensures_refuse (problem : Problem) : Ensures cause post (refuse problem) := trivial

theorem Ensures.bind {r : Reading α} {next : α → Reading β} (hr : Ensures cause post r)
    (hnext : ∀ a, post a → Ensures cause post' (next a)) : Ensures cause post' (r >>= next) := by
  match r, hr with
  | .ok a, hr => exact hnext a hr
  | .error (.malformed _), _ => trivial
  | .error (.fault _), hr => exact hr

theorem Ensures.value {r : Reading α} {a : α} (hr : Ensures cause post r) (heq : r = .ok a) :
    post a := by
  rw [heq] at hr
  exact hr

theorem Ensures.fault {r : Reading α} {fault : Fault} (hr : Ensures cause post r)
    (heq : r = .error (.fault fault)) : cause fault := by
  rw [heq] at hr
  exact hr

theorem Ensures.mono {r : Reading α} {post'' : α → Prop} (hr : Ensures cause post r)
    (hcause : ∀ fault, cause fault → cause' fault) (hpost : ∀ a, post a → post'' a) :
    Ensures cause' post'' r := by
  match r, hr with
  | .ok a, hr => exact hpost a hr
  | .error (.malformed _), _ => trivial
  | .error (.fault fault), hr => exact hcause fault hr

theorem ensures_ite {test : Prop} [Decidable test] {r r' : Reading α} (hr : Ensures cause post r)
    (hr' : Ensures cause post r') : Ensures cause post (if test then r else r') := by
  by_cases h : test
  · rwa [if_pos h]
  · rwa [if_neg h]

/-- A rule that is checked on the way holds afterwards. -/
theorem ensures_unless {broken : Prop} [Decidable broken] {problem : Problem}
    {next : α → Reading β} {r : Reading β} (hr : ¬ broken → Ensures cause post' r) :
    Ensures cause post' (if broken then refuse problem >>= next else r) := by
  by_cases h : broken
  · rw [if_pos h]
    trivial
  · rw [if_neg h]
    exact hr h

theorem Ensures.foldlM {step : β → α → Reading β} {items : List α} {b : β}
    (hstep : ∀ b, ∀ a ∈ items, post' b → Ensures cause post' (step b a)) (hb : post' b) :
    Ensures cause post' (items.foldlM step b) := by
  induction items generalizing b with
  | nil => exact hb
  | cons a items ih =>
      rw [List.foldlM_cons]
      refine (hstep b a List.mem_cons_self hb).bind fun b hb => ?_
      exact ih (fun b a ha => hstep b a (List.mem_cons_of_mem _ ha)) hb

end

/-! ## The unread text -/

namespace Cursor

variable {text : List Char} {cur : Cursor} {test : Char → Bool}

/-- The unread text is an end of the text. -/
def In (text : List Char) (cur : Cursor) : Prop := cur.rest <:+ text

theorem rest_next (cur : Cursor) : cur.next.rest = cur.rest.tail := by
  unfold next
  split
  · next h => simp [h]
  · next h =>
      simp only [h, List.tail_cons]
      split_ifs <;> rfl

/-- The unread text starts with the next character. -/
theorem rest_eq_cons {c : Char} (h : cur.peek = some c) : cur.rest = c :: cur.next.rest := by
  obtain ⟨rest, hrest⟩ := List.head?_eq_some_iff.1 h
  rw [rest_next, hrest, List.tail_cons]

theorem rest_advance (cur : Cursor) (n : Nat) : (cur.advance n).rest = cur.rest.drop n := by
  induction n generalizing cur with
  | zero => rfl
  | succ n ih => rw [advance, ih, rest_next, List.drop_tail]

theorem In.next (h : cur.In text) : cur.next.In text := by
  unfold In
  rw [rest_next]
  exact (List.tail_suffix _).trans h

theorem In.advance (h : cur.In text) (n : Nat) : (cur.advance n).In text := by
  unfold In
  rw [rest_advance]
  exact (List.drop_suffix _ _).trans h

theorem In.takeWhile (h : cur.In text) : (cur.takeWhile test).2.In text := h.advance _

theorem In.skipWhile (h : cur.In text) : (cur.skipWhile test).In text := h.takeWhile

theorem In.skipSpaces (h : cur.In text) : cur.skipSpaces.In text := h.skipWhile

theorem In.skipComment (h : cur.In text) : cur.skipComment.In text := by
  unfold Cursor.skipComment
  split
  · exact h.skipWhile
  · exact h

theorem In.takeBreak (h : cur.In text) : cur.takeBreak.2.In text := by
  unfold Cursor.takeBreak
  split
  · exact h.advance 2
  · split_ifs
    · exact h.next
    · exact h.next
    · exact h
  · exact h

theorem In.behindBreak {line : List Char} {after : Cursor} (h : cur.In text)
    (heq : cur.takeBreak = (line, after)) : after.In text := by
  have hafter := h.takeBreak
  rwa [heq] at hafter

end Cursor

/-! ## Scalars and names -/

/-- A number that the text writes out is too large: the version in a directive has too many digits,
or an escape names no code point. -/
inductive Oversized (text : List Char) : Fault → Prop
  | version {before digits after : List Char} (htext : text = before ++ digits ++ after)
      (hdigits : digits.all Char.isDigit = true) (hlong : 4300 < digits.length) :
      Oversized text .badValue
  | escape {before digits after : List Char} {letter : Char} {n : Nat}
      (htext : text = before ++ '\\' :: letter :: (digits ++ after))
      (hwidth : escapeWidth? letter = some digits.length) (hnumber : hexNumber? digits = some n)
      (hlarge : 0x10FFFF < n) :
      Oversized text (if 0x7FFFFFFF < n then .overflow else .badValue)

/-- The reading goes on in the text, and its faults are numbers in the text. -/
def Scans {α : Type} (text : List Char) (r : Reading (α × Cursor)) : Prop :=
  Ensures (Oversized text) (fun a => a.2.In text) r

section

variable {α : Type} {text : List Char} {cur : Cursor}

theorem scans_refuse (problem : Problem) :
    Scans text (refuse problem : Reading (α × Cursor)) := trivial

theorem Scans.value {r : Reading (α × Cursor)} {a : α} (hr : Scans text r)
    (heq : r = .ok (a, cur)) : cur.In text := by
  have hcur := Ensures.value hr heq
  exact hcur

/-- A reading that stops makes whatever needs its value stop for the same reason. -/
theorem Scans.stop {β : Type} {r : Reading (α × Cursor)} {stop : Stop} (hr : Scans text r)
    (heq : r = .error stop) : Scans text (.error stop : Reading (β × Cursor)) := by
  rw [heq] at hr
  cases stop <;> exact hr

/-! ### Block scalars -/

theorem scans_blockHeader (h : cur.In text) : Scans text (blockHeader cur) := by
  unfold blockHeader
  split
  next header cur' heq =>
    have hcur : cur'.In text := by
      repeat' split at heq
      all_goals cases heq
      · exact h.advance 2
      · exact h.next
      · exact h.advance 2
      · exact h.next
      · exact h
    dsimp only
    refine ensures_unless fun _ => ensures_unless fun _ => ensures_unless fun _ => ?_
    exact hcur.skipSpaces.skipComment.takeBreak

theorem in_blockIndentation (fuel widest : Nat) (h : cur.In text) :
    (blockIndentation fuel widest cur).2.2.In text := by
  induction fuel generalizing cur widest with
  | zero => exact h
  | succ fuel ih =>
      unfold blockIndentation
      split
      · exact ih _ h.next
      · split
        · exact h
        · next heq => exact ih _ (h.behindBreak heq)

theorem in_skipIndentation (indent : Nat) (h : cur.In text) : (skipIndentation indent cur).In text :=
  h.advance _

theorem in_blockBreaks (indent fuel : Nat) (h : cur.In text) :
    (blockBreaks indent fuel cur).2.In text := by
  induction fuel generalizing cur with
  | zero => exact h
  | succ fuel ih =>
      have hspaces := in_skipIndentation indent h
      unfold blockBreaks
      dsimp only
      split
      · exact hspaces
      · next heq => exact ih (hspaces.behindBreak heq)

theorem in_blockLines (folded : Bool) (indent fuel : Nat) (done breaks : List Char)
    (h : cur.In text) : (blockLines folded indent fuel done breaks cur).2.2.2.In text := by
  induction fuel generalizing cur done breaks with
  | zero => exact h
  | succ fuel ih =>
      have hline : (cur.takeWhile fun c => !isBreak c).2.takeBreak.2.In text := h.takeWhile.takeBreak
      have hbreaks := in_blockBreaks indent
        (cur.takeWhile fun c => !isBreak c).2.takeBreak.2.fuel hline
      unfold blockLines
      dsimp only
      split_ifs
      · exact h
      · exact hbreaks
      · exact ih _ _ hbreaks
      · exact ih _ _ hbreaks
      · exact ih _ _ hbreaks

theorem scans_blockScalar (folded : Bool) (parent : Int) (h : cur.In text) :
    Scans text (blockScalar folded parent cur) := by
  refine (scans_blockHeader h.next).bind ?_
  rintro ⟨header, cur⟩ hcur
  dsimp only
  -- the indentation is fixed, or that of the first line
  split
  · exact in_blockLines _ _ _ _ _ (in_blockBreaks _ _ hcur)
  · exact in_blockLines _ _ _ _ _ (in_blockIndentation _ _ hcur)

/-! ### Plain scalars -/

theorem in_plainBreaks (fuel : Nat) (h : cur.In text) : (plainBreaks fuel cur).2.In text := by
  induction fuel generalizing cur with
  | zero => exact h
  | succ fuel ih =>
      unfold plainBreaks
      split
      · exact ih h.next
      · split
        · exact h
        · next heq =>
            have hbreak := h.behindBreak heq
            split_ifs
            · exact hbreak
            · exact ih hbreak

theorem in_plainBlanks (h : cur.In text) : (plainBlanks cur).2.2.In text := by
  have hspaces : (cur.takeWhile (· = ' ')).2.In text := h.takeWhile
  unfold plainBlanks
  dsimp only
  split
  · exact hspaces
  · next line cur' _ heq =>
      have hbreak := hspaces.behindBreak heq
      have hbreaks := in_plainBreaks cur'.fuel hbreak
      split
      · exact hbreak
      · split
        · next heq => rw [heq] at hbreaks; exact hbreaks
        · next heq => rw [heq] at hbreaks; exact hbreaks

theorem in_plainWords (inFlow : Bool) (indent : Int) (fuel : Nat) (done blanks : List Char)
    (broken : Bool) (h : cur.In text) :
    (plainWords inFlow indent fuel done blanks broken cur).2.2.In text := by
  induction fuel generalizing cur done blanks broken with
  | zero => exact h
  | succ fuel ih =>
      unfold plainWords
      split_ifs
      · exact h
      · split
        · exact h
        · have hblanks := in_plainBlanks (h.advance (plainWord inFlow cur.rest).length)
          dsimp only
          split_ifs
          · exact hblanks
          · exact ih _ _ _ hblanks

theorem in_plainScalar (inFlow : Bool) (parent : Int) (h : cur.In text) :
    (plainScalar inFlow parent cur).2.2.In text := by
  unfold plainScalar
  exact in_plainWords _ _ _ _ _ _ h

/-! ### Quoted scalars -/

theorem scans_quotedBreaks (fuel : Nat) (h : cur.In text) : Scans text (quotedBreaks fuel cur) := by
  induction fuel generalizing cur with
  | zero => exact h
  | succ fuel ih =>
      have hblanks : (cur.skipWhile fun c => c = ' ' || c = '\t').In text := h.skipWhile
      unfold quotedBreaks
      split_ifs
      · exact scans_refuse _
      · dsimp only
        split
        · exact hblanks
        · next heq =>
            have hmore := ih (hblanks.behindBreak heq)
            split
            · next heq => exact hmore.value heq
            · next heq => exact hmore.stop heq

theorem length_of_not_short {cs : List Char} {n : Nat} (h : ¬ (cs.take n).length < n) :
    n = (cs.take n).length :=
  Nat.le_antisymm (Nat.not_lt.1 h) (List.length_take_le _ _)

/-- An escape that is a fault names no code point: its number is too large. -/
theorem scans_quotedEscape {before : List Char} (htext : text = before ++ '\\' :: cur.rest) :
    Scans text (quotedEscape cur) := by
  have h : cur.In text := by
    rw [htext]
    exact ⟨before ++ ['\\'], by simp⟩
  unfold quotedEscape
  split
  · exact scans_refuse _
  · next letter hletter =>
      split
      · exact h.next
      · split
        · next width hwidth =>
            dsimp only
            split
            · exact scans_refuse _
            · next n hnumber =>
                -- the digits stand in the text, behind the backslash and the letter
                have hescape : text = before ++ '\\' :: letter ::
                    (cur.next.rest.take width ++ cur.next.rest.drop width) := by
                  rw [List.take_append_drop, htext, Cursor.rest_eq_cons hletter]
                split_ifs with hshort hlarge hbeyond
                · exact scans_refuse _
                · have hfull := hwidth.trans (congrArg some (length_of_not_short hshort))
                  have hfault := Oversized.escape hescape hfull hnumber (by omega)
                  rwa [if_pos hlarge] at hfault
                · have hfull := hwidth.trans (congrArg some (length_of_not_short hshort))
                  have hfault := Oversized.escape hescape hfull hnumber hbeyond
                  rwa [if_neg hlarge] at hfault
                · exact h.next.advance width
        · split_ifs
          · exact scans_quotedBreaks _ h.takeBreak
          · exact scans_refuse _

theorem scans_quotedBlanks (h : cur.In text) : Scans text (quotedBlanks cur) := by
  have hblanks : (cur.takeWhile fun c => c = ' ' || c = '\t').2.In text := h.takeWhile
  have hbreaks := scans_quotedBreaks
    (cur.takeWhile fun c => c = ' ' || c = '\t').2.takeBreak.2.fuel hblanks.takeBreak
  unfold quotedBlanks
  dsimp only
  split
  · exact scans_refuse _
  · split
    · split
      · next heq => exact hbreaks.stop heq
      · next heq => exact hbreaks.value heq
    · exact hblanks

theorem scans_quotedRest (double : Bool) (fuel : Nat) (done : List Nat) (h : cur.In text) :
    Scans text (quotedRest double fuel done cur) := by
  induction fuel generalizing cur done with
  | zero => exact scans_refuse _
  | succ fuel ih =>
      unfold quotedRest
      split
      · exact scans_refuse _
      · next c hc =>
          split_ifs
          · exact ih _ (h.advance 2)
          · exact h.next
          · exact h.next
          · next hback =>
              -- an escape: the text in front of it ends in the backslash
              obtain ⟨before, hbefore⟩ := h
              obtain ⟨rfl, -⟩ : c = '\\' ∧ double = true := by simpa using hback
              have htext : text = before ++ '\\' :: cur.next.rest := by
                rw [← Cursor.rest_eq_cons hc, hbefore]
              have hescape := scans_quotedEscape htext
              split
              · next heq => exact ih _ (hescape.value heq)
              · next heq => exact hescape.stop heq
          · have hblanks := scans_quotedBlanks h
            split
            · next heq => exact ih _ (hblanks.value heq)
            · next heq => exact hblanks.stop heq
          · exact ih _ h.next

theorem scans_quotedScalar (double : Bool) (h : cur.In text) :
    Scans text (quotedScalar double cur) := by
  have hrest := scans_quotedRest double cur.fuel [] h.next
  unfold quotedScalar
  split
  · next heq => exact hrest.value heq
  · next heq => exact hrest.stop heq

/-! ### Names and directives -/

theorem scans_nameHere (problem : Problem) (h : cur.In text) : Scans text (nameHere problem cur) := by
  unfold nameHere
  dsimp only
  split_ifs
  · exact scans_refuse _
  · exact h.takeWhile

theorem scans_escapedBytes (fuel : Nat) (h : cur.In text) : Scans text (escapedBytes fuel cur) := by
  induction fuel generalizing cur with
  | zero => exact h
  | succ fuel ih =>
      have hmore := ih (h.advance 3)
      unfold escapedBytes
      split_ifs
      · exact h
      · split
        · dsimp only
          split
          · split
            · next heq => exact hmore.value heq
            · next heq => exact hmore.stop heq
          · exact scans_refuse _
        · exact scans_refuse _

theorem scans_tagChars (fuel : Nat) (h : cur.In text) : Scans text (tagChars fuel cur) := by
  induction fuel generalizing cur with
  | zero => exact h
  | succ fuel ih =>
      have hescaped := scans_escapedBytes cur.fuel h
      unfold tagChars
      split
      · exact h
      · split_ifs
        · split
          · next heq => exact hescaped.stop heq
          · next heq =>
              have hmore := ih (hescaped.value heq)
              split
              · exact scans_refuse _
              · split
                · next heq => exact hmore.value heq
                · next heq => exact hmore.stop heq
        · have hmore := ih h.next
          split
          · next heq => exact hmore.value heq
          · next heq => exact hmore.stop heq
        · exact h

theorem scans_tagText (h : cur.In text) : Scans text (tagText cur) := by
  have hchars := scans_tagChars cur.fuel h
  unfold tagText
  split
  · next heq => exact hchars.stop heq
  · next heq =>
      split_ifs
      · exact scans_refuse _
      · exact hchars.value heq

theorem scans_tagHandle (h : cur.In text) : Scans text (tagHandle cur) := by
  unfold tagHandle
  split_ifs
  · exact scans_refuse _
  · exact h.next
  · dsimp only
    split_ifs
    · exact h.next.takeWhile.next
    · exact scans_refuse _

/-- A version that is a fault has too many digits. -/
theorem scans_versionNumber (h : cur.In text) : Scans text (versionNumber cur) := by
  unfold versionNumber
  dsimp only
  split_ifs with hempty hlong
  · exact scans_refuse _
  · -- the digits are the front of the unread text
    obtain ⟨before, htext⟩ := h
    have hfront := List.takeWhile_append_dropWhile (p := Char.isDigit) (l := cur.rest)
    rw [← hfront, ← List.append_assoc] at htext
    exact .version htext.symm List.all_takeWhile hlong
  · exact h.takeWhile

theorem scans_directiveBody (name : String) (h : cur.In text) :
    Scans text (directiveBody name cur) := by
  unfold directiveBody
  dsimp only
  split_ifs
  · refine (scans_versionNumber h.skipSpaces).bind ?_
    rintro ⟨major, cur⟩ hcur
    dsimp only
    refine ensures_unless fun _ => ?_
    refine (scans_versionNumber hcur.next).bind ?_
    rintro ⟨minor, cur⟩ hcur
    dsimp only
    refine ensures_unless fun _ => ?_
    exact hcur
  · refine (scans_tagHandle h.skipSpaces).bind ?_
    rintro ⟨handle, cur⟩ hcur
    dsimp only
    refine ensures_unless fun _ => ?_
    refine (scans_tagText hcur.skipSpaces).bind ?_
    rintro ⟨start, cur⟩ hcur
    dsimp only
    refine ensures_unless fun _ => ?_
    exact hcur
  · exact h.skipWhile

theorem scans_directiveHere (h : cur.In text) : Scans text (directiveHere cur) := by
  unfold directiveHere
  refine (scans_nameHere _ h.next).bind ?_
  rintro ⟨name, cur⟩ hcur
  dsimp only
  refine ensures_unless fun _ => ?_
  refine (scans_directiveBody name hcur).bind ?_
  rintro ⟨d, cur⟩ hcur
  dsimp only
  refine ensures_unless fun _ => ?_
  exact hcur.skipSpaces.skipComment.takeBreak

theorem scans_anchorHere (make : String → Token) (h : cur.In text) :
    Scans text (anchorHere make cur) := by
  unfold anchorHere
  refine (scans_nameHere _ h.next).bind ?_
  rintro ⟨name, cur⟩ hcur
  dsimp only
  refine ensures_unless fun _ => ?_
  exact hcur

theorem scans_tagHere (h : cur.In text) : Scans text (tagHere cur) := by
  -- each form of a tag is checked for the end of the word in the same way
  have hend : ∀ (t : Token) {cur : Cursor}, cur.In text → Scans text
      (if (!endsWord cur.peek) = true then do refuse Problem.tagForm; pure (t, cur)
        else pure (t, cur)) :=
    fun t cur hcur => ensures_unless fun _ => hcur
  unfold tagHere
  dsimp only
  split_ifs
  · refine (scans_tagText (h.advance 2)).bind ?_
    rintro ⟨whole, cur⟩ hcur
    exact ensures_unless fun _ => hend _ hcur.next
  · exact hend _ h.next
  · refine (scans_tagHandle h).bind ?_
    rintro ⟨handle, cur⟩ hcur
    refine (scans_tagText hcur).bind ?_
    rintro ⟨suffix, cur⟩ hcur
    exact hend _ hcur
  · refine (scans_tagText h.next).bind ?_
    rintro ⟨suffix, cur⟩ hcur
    exact hend _ hcur

end

/-! ## The lexer -/

namespace Lexer

/-- The lexer goes on in the text, and its faults are numbers in the text. -/
def Goes (text : List Char) (r : Reading Lexer) : Prop :=
  Ensures (Oversized text) (fun l => l.cur.In text) r

variable {text : List Char} {l : Lexer}

theorem goes_dropStale (h : l.cur.In text) : Goes text l.dropStale := by
  unfold dropStale
  split_ifs
  · exact ensures_refuse _
  · exact h

theorem goes_dropKey (h : l.cur.In text) : Goes text l.dropKey := by
  unfold dropKey
  split
  · split_ifs
    · exact ensures_refuse _
    · exact h
  · exact h

theorem goes_markKey (h : l.cur.In text) : Goes text l.markKey := by
  unfold markKey
  split_ifs
  · exact (goes_dropKey h).bind fun l hl => hl
  · exact h

theorem cur_unindent (column : Int) (outer : List Int) (l : Lexer) :
    (unindent column outer l).cur = l.cur := by
  induction outer generalizing l with
  | nil => rfl
  | cons previous outer ih =>
      unfold unindent
      split_ifs
      · rw [ih]
        rfl
      · rfl

theorem cur_unwind (l : Lexer) (column : Int) : (l.unwind column).cur = l.cur := by
  unfold unwind
  split_ifs
  · exact cur_unindent _ _ _
  · rfl

theorem in_unwind (h : l.cur.In text) (column : Int) : (l.unwind column).cur.In text := by
  rwa [cur_unwind]

theorem in_skipToToken (fuel : Nat) (h : l.cur.In text) : (skipToToken fuel l).cur.In text := by
  induction fuel generalizing l with
  | zero => exact h
  | succ fuel ih =>
      have hcur := h.skipSpaces.skipComment
      unfold skipToToken
      dsimp only
      split
      · exact hcur
      · next heq => exact ih (hcur.behindBreak heq)

theorem goes_documentToken (t : Token) (h : l.cur.In text) : Goes text (l.documentToken t) :=
  (goes_dropKey (in_unwind h _)).bind fun _ hl => hl.advance 3

theorem goes_openToken (t : Token) (h : l.cur.In text) : Goes text (l.openToken t) :=
  (goes_markKey h).bind fun _ hl => hl.next

theorem goes_closeToken (t : Token) (h : l.cur.In text) : Goes text (l.closeToken t) :=
  (goes_dropKey h).bind fun _ hl => hl.next

theorem goes_commaToken (h : l.cur.In text) : Goes text l.commaToken :=
  (goes_dropKey h).bind fun _ hl => hl.next

/-- A block that starts here leaves the cursor where it is. -/
theorem in_enterBlock {starts : Prop} [Decidable starts] (h : l.cur.In text) (column : Nat)
    (t : Token) : (if starts then (l.enterBlock column).push t else l).cur.In text := by
  split_ifs <;> exact h

theorem goes_entryToken (h : l.cur.In text) : Goes text l.entryToken := by
  unfold entryToken
  refine ensures_unless fun _ => ?_
  exact (goes_dropKey (in_enterBlock h _ _)).bind fun _ hl => hl.next

theorem goes_keyToken (h : l.cur.In text) : Goes text l.keyToken := by
  unfold keyToken
  refine ensures_unless fun _ => ?_
  exact (goes_dropKey (in_enterBlock h _ _)).bind fun _ hl => hl.next

theorem goes_loneColon (h : l.cur.In text) : Goes text l.loneColon := by
  unfold loneColon
  refine ensures_unless fun _ => ?_
  exact goes_dropKey (in_enterBlock h _ _)

theorem in_settleKey (k : PossibleKey) (h : l.cur.In text) : (l.settleKey k).cur.In text := by
  unfold settleKey
  dsimp only
  split_ifs <;> exact h

theorem goes_valueToken (h : l.cur.In text) : Goes text l.valueToken := by
  unfold valueToken
  split
  · exact (in_settleKey _ h).next
  · exact (goes_loneColon h).bind fun _ hl => hl.next

theorem goes_nodeToken {scan : Cursor → Reading (Token × Cursor)}
    (hscan : ∀ cur : Cursor, cur.In text → Scans text (scan cur)) (h : l.cur.In text) :
    Goes text (l.nodeToken scan) := by
  refine (goes_markKey h).bind fun l hl => ?_
  exact (hscan l.cur hl).bind fun _ ht => ht

theorem goes_blockToken (folded : Bool) (h : l.cur.In text) : Goes text (l.blockToken folded) := by
  refine (goes_dropKey h).bind fun l hl => ?_
  exact (scans_blockScalar folded l.indent hl).bind fun _ ht => ht

theorem goes_plainToken (h : l.cur.In text) : Goes text l.plainToken := by
  refine (goes_markKey h).bind fun l hl => ?_
  exact in_plainScalar _ _ hl

theorem goes_directiveToken (h : l.cur.In text) : Goes text l.directiveToken := by
  refine (goes_dropKey (in_unwind h _)).bind fun l hl => ?_
  exact (scans_directiveHere hl).bind fun _ ht => ht

theorem goes_tokenAt (c : Char) (h : l.cur.In text) : Goes text (l.tokenAt c) := by
  unfold tokenAt
  refine ensures_ite (goes_directiveToken h) ?_
  refine ensures_ite (goes_documentToken _ h) (ensures_ite (goes_documentToken _ h) ?_)
  refine ensures_ite (goes_openToken _ h) (ensures_ite (goes_openToken _ h) ?_)
  refine ensures_ite (goes_closeToken _ h) (ensures_ite (goes_closeToken _ h) ?_)
  refine ensures_ite (goes_commaToken h) (ensures_ite (goes_entryToken h) ?_)
  refine ensures_ite (goes_keyToken h) (ensures_ite (goes_valueToken h) ?_)
  -- tokens that start a node
  refine ensures_ite (goes_nodeToken (fun _ => scans_anchorHere _) h) ?_
  refine ensures_ite (goes_nodeToken (fun _ => scans_anchorHere _) h) ?_
  refine ensures_ite (goes_nodeToken (fun _ => scans_tagHere) h) ?_
  refine ensures_ite (goes_blockToken _ h) (ensures_ite (goes_blockToken _ h) ?_)
  refine ensures_ite (goes_nodeToken (fun _ => scans_quotedScalar _) h) ?_
  refine ensures_ite (goes_nodeToken (fun _ => scans_quotedScalar _) h) ?_
  exact ensures_ite (goes_plainToken h) (ensures_refuse _)

theorem goes_endToken (h : l.cur.In text) : Goes text l.endToken :=
  (goes_dropKey (in_unwind h _)).bind fun _ hl => hl

theorem goes_step (h : l.cur.In text) :
    Ensures (Oversized text) (fun a => a.1.cur.In text) l.step := by
  -- a byte order mark is passed over
  have hstart : (if l.cur.index = 0 && l.cur.peek = some '\uFEFF' then l.cur.next
      else l.cur).In text := by
    split_ifs
    · exact h.next
    · exact h
  unfold step
  dsimp only
  refine (goes_dropStale (in_skipToToken _ hstart)).bind fun l hl => ?_
  have hunwind := in_unwind hl l.cur.column
  split
  · exact (goes_endToken hunwind).bind fun _ hl => hl
  · exact (goes_tokenAt _ hunwind).bind fun _ hl => hl

/-- The lexer stops at a fault only if a number in the text is too large. -/
theorem oversized_of_run {fuel : Nat} {fault : Fault} (h : l.cur.In text)
    (hrun : (run fuel l).2 = .fault fault) : Oversized text fault := by
  induction fuel generalizing l with
  | zero => cases hrun
  | succ fuel ih =>
      have hstale := goes_dropStale h
      unfold run at hrun
      -- the fault is that of a key, that of a token, or the one at which the rest ends
      split at hrun
      · next heq =>
          cases hrun
          exact hstale.fault heq
      · next heq =>
          have hstep := goes_step (hstale.value heq)
          split at hrun
          · next heq =>
              cases hrun
              exact hstep.fault heq
          · cases hrun
          · next heq => exact ih (hstep.value heq) hrun

end Lexer

theorem oversized_of_tokens {text : List Char} {fault : Fault}
    (h : (tokens text).2 = .fault fault) : Oversized text fault :=
  Lexer.oversized_of_run (l := { cur := { rest := text } }) (List.suffix_refl text) h

end TabCompletion.Yaml
