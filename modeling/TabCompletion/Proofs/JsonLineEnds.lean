import TabCompletion.Proofs.LineEnds

/-!
# Line ends in JSON

Between the parts of a JSON text a line end is a space, however it is spelled. So a text that is
read gives the same document when its line ends are unified (`readChars_of_sameLines`). A reading
step on the one text is followed by the same step on the other (`Follows`). The text with unified
line ends is shorter, so its reader has less fuel; but it has enough for what is before it, which
goes into the induction (`Follow`).
-/

namespace TabCompletion

namespace Json

/-! ## Reading steps -/

namespace Cursor

variable {cur cur' : Cursor} {c : Char} {n : Nat}

/-- What the cursors have before them is the same, up to line ends. -/
def Alike (cur cur' : Cursor) : Prop := Text.SameLines cur.rest cur'.rest

theorem length_advance (cur : Cursor) (n : Nat) :
    (cur.advance n).rest.length = cur.rest.length - n := List.length_drop

theorem rest_skip (cur : Cursor) : cur.skip.rest = cur.rest.dropWhile isSpace := by
  have hdrop := @List.drop_left _ (cur.rest.takeWhile isSpace) (cur.rest.dropWhile isSpace)
  rwa [List.takeWhile_append_dropWhile] at hdrop

theorem length_advance_le (cur : Cursor) (n : Nat) :
    (cur.advance n).rest.length ≤ cur.rest.length := by
  rw [length_advance]
  exact Nat.sub_le _ _

theorem length_skip_le (cur : Cursor) : cur.skip.rest.length ≤ cur.rest.length :=
  length_advance_le cur _

/-- Less is left behind the next character and the spaces after it. -/
theorem length_behind_lt (h : cur.peek = some c) :
    (cur.advance 1).skip.rest.length < cur.rest.length := by
  obtain ⟨rest, hrest⟩ := List.head?_eq_some_iff.1 h
  have hskip := length_skip_le (cur.advance 1)
  rw [length_advance] at hskip
  rw [hrest, List.length_cons] at hskip ⊢
  omega

namespace Alike

theorem peek_iff (h : cur.Alike cur') (hc : c ≠ '\r' ∧ c ≠ '\n') :
    cur'.peek = some c ↔ cur.peek = some c := h.head?_eq_some_iff hc

theorem skip (h : cur.Alike cur') : cur.skip.Alike cur'.skip := by
  rw [Alike, rest_skip, rest_skip]
  exact h.dropWhile rfl rfl

theorem advance (h : cur.Alike cur') (hn : '\r' ∉ cur.rest.take n) :
    (cur.advance n).Alike (cur'.advance n) := h.drop hn

/-- Behind a character that is no carriage return. -/
theorem behind (h : cur.Alike cur') (hpeek : cur.peek = some c) (hc : c ≠ '\r') :
    (cur.advance 1).Alike (cur'.advance 1) := by
  obtain ⟨rest, hrest⟩ := List.head?_eq_some_iff.1 hpeek
  apply h.advance
  rw [hrest]
  simpa using hc.symm

end Alike

end Cursor

section Steps

variable {α β : Type} {cur cur' : Cursor} {n : Nat}

/-- If the one reading gives a value, so does the other, and they go on alike, the other with no
more than `n` characters. -/
def Follows (n : Nat) (r r' : Step α) : Prop :=
  ∀ a next, r = .ok (a, next) →
    ∃ next', r' = .ok (a, next') ∧ next.Alike next' ∧ next'.rest.length ≤ n

namespace Follows

variable {r r' : Step α} {s s' : Step β} {f g : α × Cursor → Step β}

theorem error (problem : Problem × Nat) (r' : Step α) : Follows n (.error problem) r' :=
  fun _ _ h => nomatch h

theorem ok (a : α) (h : cur.Alike cur') (hlength : cur'.rest.length ≤ n) :
    Follows n (.ok (a, cur)) (.ok (a, cur')) := by
  rintro _ _ ⟨⟩
  exact ⟨cur', rfl, h, hlength⟩

theorem mono {m : Nat} (h : Follows m r r') (hmn : m ≤ n) : Follows n r r' := by
  intro a next hread
  obtain ⟨next', hread', hnext, hlength⟩ := h a next hread
  exact ⟨next', hread', hnext, hlength.trans hmn⟩

theorem bind {m : Nat} (h : Follows m r r')
    (hf : ∀ a next next', next.Alike next' → next'.rest.length ≤ m →
      Follows n (f (a, next)) (g (a, next'))) : Follows n (r.bind f) (r'.bind g) := by
  cases r with
  | error problem => exact error problem _
  | ok read =>
      obtain ⟨next', rfl, hnext, hlength⟩ := h read.1 read.2 rfl
      exact hf read.1 read.2 next' hnext hlength

theorem map (f : α → β) (h : Follows n r r') :
    Follows n (r.map (Prod.map f id)) (r'.map (Prod.map f id)) := by
  cases r with
  | error problem => exact error problem _
  | ok read =>
      obtain ⟨next', rfl, hnext, hlength⟩ := h read.1 read.2 rfl
      exact .ok (f read.1) hnext hlength

/-- Both readings take the same branch. -/
theorem ite {p q : Prop} [Decidable p] [Decidable q] {s s' : Step α} (hpq : q ↔ p)
    (hpos : p → Follows n r r') (hneg : ¬ p → Follows n s s') :
    Follows n (if p then r else s) (if q then r' else s') := by
  by_cases hp : p
  · rw [if_pos hp, if_pos (hpq.2 hp)]
    exact hpos hp
  · rw [if_neg hp, if_neg (hp ∘ hpq.1)]
    exact hneg hp

end Follows

/-- A text, whatever line ends come behind it. -/
theorem follows_readText (h : cur.Alike cur') (hpeek : cur.peek = some '\x22') :
    Follows cur'.rest.length (readText cur) (readText cur') := by
  intro d next hread
  unfold readText at hread
  split at hread
  · cases hread
  · next codes next hcodes =>
      cases hread
      obtain ⟨next', hcodes', hnext, hlength⟩ := readCodes_of_sameLines
        (h.behind hpeek (by decide)) hcodes cur'.pos (cur'.pos + 1)
      refine ⟨next', ?_, hnext, hlength.trans (Cursor.length_advance_le cur' 1)⟩
      rw [Cursor.advance] at hcodes'
      rw [readText, hcodes']

theorem follows_advance (h : cur.Alike cur') (hn : '\r' ∉ cur.rest.take n) (d : Document) :
    Follows cur'.rest.length (.ok (d, cur.advance n)) (.ok (d, cur'.advance n)) :=
  .ok d (h.advance hn) (Cursor.length_advance_le cur' n)

theorem follows_readWord (h : cur.Alike cur') :
    Follows cur'.rest.length (readWord cur) (readWord cur') := by
  unfold readWord
  rw [readKeyword_of_sameLines h, readNumeral_of_sameLines h]
  cases hkeyword : readKeyword cur.rest with
  | some found => exact follows_advance h (skips_readKeyword hkeyword).plain found.1
  | none =>
      cases hnumeral : readNumeral cur.rest with
      | none => exact .error _ _
      | some found =>
          obtain ⟨numeral, n⟩ := found
          obtain ⟨rest, hrest⟩ := skips_readNumeral hnumeral
          dsimp only
          cases numeral.value with
          | error problem => exact .error _ _
          | ok d => exact follows_advance h hrest.plain d

/-! ## Values -/

theorem readValue_succ (fuel : Nat) (cur : Cursor) :
    readValue (fuel + 1) cur =
      let inner := (cur.advance 1).skip
      if cur.peek = some '\x22' then readText cur
      else if cur.peek = some '[' then
        if inner.peek = some ']' then .ok (.list [], inner.advance 1)
        else (readItems fuel inner).map (Prod.map .list id)
      else if cur.peek = some '\x7b' then
        if inner.peek = some '\x7d' then .ok (.map [], inner.advance 1)
        else (readEntries fuel inner).map (Prod.map (.map ∘ Document.ofEntries) id)
      else readWord cur := by
  rw [readValue]
  split
  · next hpeek => rw [if_pos hpeek]
  · next hpeek =>
      have hquote : cur.peek ≠ some '\x22' := by rw [hpeek]; decide
      simp only [if_neg hquote, if_pos hpeek]
      cases readItems fuel (cur.advance 1).skip <;> rfl
  · next hpeek =>
      have hquote : cur.peek ≠ some '\x22' := by rw [hpeek]; decide
      have hlist : cur.peek ≠ some '[' := by rw [hpeek]; decide
      simp only [if_neg hquote, if_neg hlist, if_pos hpeek]
      cases readEntries fuel (cur.advance 1).skip <;> rfl
  · next hquote hlist hmap => rw [if_neg hquote, if_neg hlist, if_neg hmap]

theorem readItems_succ (fuel : Nat) (cur : Cursor) :
    readItems (fuel + 1) cur =
      (readValue fuel cur).bind fun (d, next) =>
        if next.skip.peek = some ']' then .ok ([d], next.skip.advance 1)
        else if next.skip.peek = some ',' then
          (readItems fuel (next.skip.advance 1).skip).map (Prod.map (d :: ·) id)
        else .error (.comma, next.skip.pos) := by
  rw [readItems]
  cases readValue fuel cur with
  | error problem => rfl
  | ok read =>
      dsimp only [Except.bind]
      cases readItems fuel (read.2.skip.advance 1).skip <;> rfl

theorem readEntries_succ (fuel : Nat) (cur : Cursor) :
    readEntries (fuel + 1) cur =
      if cur.peek = some '\x22' then
        (readText cur).bind fun (key, next) =>
          if next.skip.peek = some ':' then
            (readValue fuel (next.skip.advance 1).skip).bind fun (d, last) =>
              if last.skip.peek = some '\x7d' then .ok ([(key, d)], last.skip.advance 1)
              else if last.skip.peek = some ',' then
                (readEntries fuel (last.skip.advance 1).skip).map (Prod.map ((key, d) :: ·) id)
              else .error (.comma, last.skip.pos)
          else .error (.colon, next.skip.pos)
      else .error (.propertyName, cur.pos) := by
  rw [readEntries]
  by_cases hquote : cur.peek = some '\x22'
  · rw [if_neg (by simp [hquote]), if_pos hquote]
    cases readText cur with
    | error problem => rfl
    | ok read =>
        dsimp only [Except.bind]
        by_cases hcolon : read.2.skip.peek = some ':'
        · rw [if_neg (by simp [hcolon]), if_pos hcolon]
          cases readValue fuel (read.2.skip.advance 1).skip with
          | error problem => rfl
          | ok value =>
              dsimp only
              cases readEntries fuel (value.2.skip.advance 1).skip <;> rfl
        · rw [if_pos (by simpa using hcolon), if_neg hcolon]
  · rw [if_pos (by simpa using hquote), if_neg hquote]

/-- What a reader of the one text reads, so does a reader of the other with enough fuel for what
is before it. -/
structure Follow (fuel : Nat) : Prop where
  value : ∀ {cur cur' : Cursor} {n : Nat}, cur.Alike cur' → 2 * cur'.rest.length + 1 ≤ n →
    Follows cur'.rest.length (readValue fuel cur) (readValue n cur')
  items : ∀ {cur cur' : Cursor} {n : Nat}, cur.Alike cur' → 2 * cur'.rest.length + 2 ≤ n →
    Follows cur'.rest.length (readItems fuel cur) (readItems n cur')
  entries : ∀ {cur cur' : Cursor} {n : Nat}, cur.Alike cur' → 2 * cur'.rest.length + 2 ≤ n →
    Follows cur'.rest.length (readEntries fuel cur) (readEntries n cur')

variable {fuel : Nat}

/-- The end of what is in brackets, behind the spaces. -/
theorem follows_closing {α : Type} {c : Char} (a : α) (h : cur.Alike cur')
    (hpeek : cur.peek = some c) (hc : c ≠ '\r') (hlength : cur'.rest.length ≤ n) :
    Follows n (.ok (a, cur.advance 1)) (.ok (a, cur'.advance 1)) :=
  .ok a (h.behind hpeek hc) ((Cursor.length_advance_le cur' 1).trans hlength)

theorem Follow.value_succ (ih : Follow fuel) (h : cur.Alike cur')
    (hn : 2 * cur'.rest.length + 1 ≤ n) :
    Follows cur'.rest.length (readValue (fuel + 1) cur) (readValue n cur') := by
  obtain ⟨m, rfl⟩ := Nat.exists_eq_add_one.2 (show 0 < n by omega)
  rw [readValue_succ, readValue_succ]
  refine .ite (h.peek_iff (by decide)) (follows_readText h) fun _ => ?_
  refine .ite (h.peek_iff (by decide)) (fun hpeek => ?_) fun _ => ?_
  · -- a list
    have hinner := (h.behind hpeek (by decide)).skip
    have hlt := Cursor.length_behind_lt ((h.peek_iff (by decide)).2 hpeek)
    refine .ite (hinner.peek_iff (by decide)) (fun hclose => ?_) fun _ => ?_
    · exact follows_closing _ hinner hclose (by decide) (by omega)
    · exact ((ih.items hinner (by omega)).mono (by omega)).map _
  refine .ite (h.peek_iff (by decide)) (fun hpeek => ?_) fun _ => follows_readWord h
  · -- a mapping
    have hinner := (h.behind hpeek (by decide)).skip
    have hlt := Cursor.length_behind_lt ((h.peek_iff (by decide)).2 hpeek)
    refine .ite (hinner.peek_iff (by decide)) (fun hclose => ?_) fun _ => ?_
    · exact follows_closing _ hinner hclose (by decide) (by omega)
    · exact ((ih.entries hinner (by omega)).mono (by omega)).map _

theorem Follow.items_succ (ih : Follow fuel) (h : cur.Alike cur')
    (hn : 2 * cur'.rest.length + 2 ≤ n) :
    Follows cur'.rest.length (readItems (fuel + 1) cur) (readItems n cur') := by
  obtain ⟨m, rfl⟩ := Nat.exists_eq_add_one.2 (show 0 < n by omega)
  rw [readItems_succ, readItems_succ]
  -- one unit of fuel goes to the item, and what the item takes pays for the items behind it
  refine (ih.value h (by omega)).bind fun d next next' hnext hlength => ?_
  have hskip := Cursor.length_skip_le next'
  refine .ite (hnext.skip.peek_iff (by decide)) (fun hclose => ?_) fun _ => ?_
  · -- the last item
    exact follows_closing _ hnext.skip hclose (by decide) (hskip.trans hlength)
  refine .ite (hnext.skip.peek_iff (by decide)) (fun hcomma => ?_) fun _ => .error _ _
  have hlt := Cursor.length_behind_lt ((hnext.skip.peek_iff (by decide)).2 hcomma)
  have hbehind := (hnext.skip.behind hcomma (by decide)).skip
  exact ((ih.items hbehind (by omega)).mono (by omega)).map _

theorem Follow.entries_succ (ih : Follow fuel) (h : cur.Alike cur')
    (hn : 2 * cur'.rest.length + 2 ≤ n) :
    Follows cur'.rest.length (readEntries (fuel + 1) cur) (readEntries n cur') := by
  obtain ⟨m, rfl⟩ := Nat.exists_eq_add_one.2 (show 0 < n by omega)
  rw [readEntries_succ, readEntries_succ]
  refine .ite (h.peek_iff (by decide)) (fun hpeek => ?_) fun _ => .error _ _
  -- the key, up to the colon
  refine (follows_readText h hpeek).bind fun key next next' hnext hlength => ?_
  have hskip := Cursor.length_skip_le next'
  refine .ite (hnext.skip.peek_iff (by decide)) (fun hcolon => ?_) fun _ => .error _ _
  have hlt := Cursor.length_behind_lt ((hnext.skip.peek_iff (by decide)).2 hcolon)
  have hbehind := (hnext.skip.behind hcolon (by decide)).skip
  -- its value
  refine (ih.value hbehind (by omega)).bind fun d last last' hlast hlength' => ?_
  have hskip' := Cursor.length_skip_le last'
  refine .ite (hlast.skip.peek_iff (by decide)) (fun hclose => ?_) fun _ => ?_
  · -- the last entry
    exact follows_closing _ hlast.skip hclose (by decide) (by omega)
  refine .ite (hlast.skip.peek_iff (by decide)) (fun hcomma => ?_) fun _ => .error _ _
  have hlt' := Cursor.length_behind_lt ((hlast.skip.peek_iff (by decide)).2 hcomma)
  have hbehind' := (hlast.skip.behind hcomma (by decide)).skip
  exact ((ih.entries hbehind' (by omega)).mono (by omega)).map _

theorem follow (fuel : Nat) : Follow fuel := by
  induction fuel with
  | zero =>
      -- without fuel nothing is read
      constructor <;> intro cur cur' n _ _
      · rw [readValue]
        exact .error _ _
      · rw [readItems]
        exact .error _ _
      · rw [readEntries]
        exact .error _ _
  | succ fuel ih => exact ⟨ih.value_succ, ih.items_succ, ih.entries_succ⟩

end Steps

/-- A text that is read gives the same document whatever its line ends are. -/
theorem readChars_of_sameLines {cs us : List Char} (h : Text.SameLines cs us) {d : Document}
    (hread : readChars cs = .ok d) : readChars us = .ok d := by
  unfold readChars at hread ⊢
  split at hread
  · cases hread
  · next hmark =>
      rw [if_neg (mt (h.head?_eq_some_iff (by decide)).1 hmark)]
      have hstart : Cursor.Alike ⟨cs, 0⟩ ⟨us, 0⟩ := h
      have hlength : (Cursor.skip ⟨us, 0⟩).rest.length ≤ us.length := Cursor.length_skip_le _
      split at hread
      · cases hread
      · next d' next hvalue =>
          obtain ⟨next', hvalue', hnext, -⟩ := (follow _).value (n := 2 * us.length + 2)
            hstart.skip (by omega) d' next hvalue
          rw [hvalue']
          dsimp only at hread ⊢
          rw [hnext.skip.isEmpty_eq]
          split at hread
          · next hend =>
              cases hread
              rw [if_pos hend]
          · cases hread

end Json

end TabCompletion
