import TabCompletion.Command.Plan
import TabCompletion.Proofs.Request

/-!
# The tokens of a request

A request is made of words and a cursor, or of a line and an offset. `Request.Holds` says what it
then holds: the words with the empty ones that put the cursor on a word, and a mark at the cursor
and nowhere else. Both ways to make a request lead to one that holds its words, the first exactly if
the words fit on the machine (`Request.holds_of_words_and_line`): a cursor may be too far behind
them. A request with its only mark at the cursor is the request of its own texts
(`Request.ofWords_texts`), so that nothing is lost when a line is handed on as words.
-/

namespace TabCompletion

namespace Request

/-- The texts of the words. -/
def texts (r : Request) : List String := r.tokens.map Token.text

/-- The word at the index is the one under the cursor by its mark. -/
def IsMarked (r : Request) (i : Nat) : Prop := (r.tokens[i]?).map Token.isCurrent = some true

/-- The request holds the words, and its cursor and its only mark are at the index. Its tokens are
accepted as those of a request, and its texts make the same request again. -/
structure Holds (r : Request) (words : List String) (index : Int) : Prop where
  texts_eq : r.texts = words
  cursor_eq : (r.cursor : Int) = index
  isMarked_iff : ∀ i : Nat, r.IsMarked i ↔ (i : Int) = index
  accepted : ofTokens r.tokens index = .ok r
  again : ofWords r.texts r.cursor = r

/-! ## Marks -/

theorem map_text_mark (index : Nat) (words : List String) :
    (mark index words).map Token.text = words := by
  apply List.ext_getElem?
  intro i
  rw [List.getElem?_map, text_getElem?_mark]

theorem isCurrent_getElem?_mark (index i : Nat) (words : List String) :
    ((mark index words)[i]?).map Token.isCurrent = some true ↔ i < words.length ∧ i = index := by
  rw [mark, List.getElem?_mapIdx, Option.map_map]
  cases hi : words[i]? with
  | none =>
      have hout := List.getElem?_eq_none_iff.1 hi
      simp [Nat.not_lt.2 hout]
  | some word =>
      have hin := (List.getElem?_eq_some_iff.1 hi).1
      simp [hin]

/-- Tokens are marked at an index and nowhere else if they come from their texts by marking. -/
theorem eq_mark {tokens : List Token} {index : Nat}
    (h : ∀ i : Nat, (tokens[i]?).map Token.isCurrent = some true ↔ i = index) :
    tokens = mark index (tokens.map Token.text) := by
  apply List.ext_getElem?
  intro i
  rw [mark, List.getElem?_mapIdx, List.getElem?_map, Option.map_map]
  have hmark := h i
  cases hi : tokens[i]? with
  | none => rfl
  | some token =>
      obtain ⟨text, isCurrent⟩ := token
      rw [hi, Option.map_some, Option.some.injEq] at hmark
      simp only [Option.map_some, Function.comp_apply, Option.some.injEq, Token.mk.injEq, true_and]
      rw [Bool.eq_iff_iff, decide_eq_true_eq]
      exact hmark

/-! ## Requests and their tokens -/

theorem eq_of_tokens_of_cursor {r r' : Request} (htokens : r.tokens = r'.tokens)
    (hcursor : r.cursor = r'.cursor) : r = r' := by
  cases r
  cases r'
  dsimp only at htokens hcursor
  subst htokens hcursor
  rfl

/-- Tokens and a cursor are accepted exactly if they are those of a request. -/
theorem ofTokens_eq_ok_iff {tokens : List Token} {cursor : Int} {r : Request} :
    ofTokens tokens cursor = .ok r ↔ r.tokens = tokens ∧ (r.cursor : Int) = cursor := by
  unfold ofTokens
  constructor
  · intro h
    split at h
    · next hrange =>
        split at h
        · obtain rfl := Except.ok.inj h
          exact ⟨rfl, Int.toNat_of_nonneg hrange.1⟩
        · cases h
    · cases h
  · rintro ⟨rfl, rfl⟩
    have hrange : (0 : Int) ≤ r.cursor ∧ (r.cursor : Int).toNat < r.tokens.length :=
      ⟨Int.natCast_nonneg _, r.cursor_lt⟩
    rw [dif_pos hrange]
    exact dif_pos r.marked

theorem texts_ofWords (words : List String) (cursor : Int) :
    (ofWords words cursor).texts = padTo cursor.toNat words :=
  map_text_mark cursor.toNat (padTo cursor.toNat words)

theorem isMarked_ofWords (words : List String) (cursor : Int) (i : Nat) :
    (ofWords words cursor).IsMarked i ↔ i = cursor.toNat := by
  refine (isCurrent_getElem?_mark cursor.toNat i (padTo cursor.toNat words)).trans ?_
  refine and_iff_right_of_imp ?_
  rintro rfl
  exact lt_length_padTo _ _

theorem padTo_of_lt {index : Nat} {words : List String} (h : index < words.length) :
    padTo index words = words := by
  rw [padTo, Nat.sub_eq_zero_of_le h, List.replicate_zero, List.append_nil]

/-- A request with its only mark at the cursor is the request of its own texts. -/
theorem ofWords_texts {r : Request} (h : ∀ i, r.IsMarked i ↔ i = r.cursor) :
    ofWords r.texts r.cursor = r := by
  have hlength : r.cursor < r.texts.length := by
    rw [texts, List.length_map]
    exact r.cursor_lt
  refine eq_of_tokens_of_cursor ?_ rfl
  show mark r.cursor (padTo r.cursor r.texts) = r.tokens
  rw [padTo_of_lt hlength]
  exact (eq_mark h).symm

/-- The request of words holds them, with as many empty ones as the cursor needs. -/
theorem holds_ofWords (words : List String) (cursor : Int) :
    (ofWords words cursor).Holds (padTo cursor.toNat words) (max cursor 0) := by
  have hcursor : ((ofWords words cursor).cursor : Int) = max cursor 0 := by
    rw [cursor_ofWords]
    omega
  exact
    { texts_eq := texts_ofWords words cursor
      cursor_eq := hcursor
      isMarked_iff := by
        intro i
        rw [isMarked_ofWords]
        omega
      accepted := ofTokens_eq_ok_iff.2 ⟨rfl, hcursor⟩
      again := ofWords_texts (isMarked_ofWords words cursor) }

/-! ## Words and lines -/

theorem readWords_map_text (words : List String) : readWords (words.map .text) = .ok words := by
  induction words with
  | nil => rfl
  | cons word words ih =>
      unfold readWords at ih ⊢
      rw [List.map_cons, List.mapM_cons, ih, Validation.readText_text]
      rfl

/-- Words that are texts make a request exactly if they fit; otherwise the number of empty words is
no word of the machine, or there is no room for them. -/
theorem ofValues_map_text (room : Room) (words : List String) (cursor : Int) :
    ofValues room (words.map .text) cursor =
      if Fits room words cursor then .ok (ofWords words cursor)
      else .error (Room.shortage (cursor.toNat + 1 - words.length)) := by
  have hlength : (words.map Document.text).length = words.length := List.length_map _
  unfold ofValues
  rw [hlength]
  by_cases hfits : Fits room words cursor
  · rw [if_pos hfits, refusal?_eq_none_iff.2 hfits, readWords_map_text]
  · rw [if_neg hfits, refusal?_of_not_fits hfits]

/-- The empty words behind the words, counted from the cursor. -/
theorem padTo_eq (words : List String) (cursor : Int) :
    padTo cursor.toNat words =
      words ++ List.replicate (max 0 (max cursor 0 + 1 - words.length)).toNat "" := by
  have hcount : cursor.toNat + 1 - words.length =
      (max 0 (max cursor 0 + 1 - words.length)).toNat := by omega
  rw [padTo, hcount]

/-- There is always a word for the cursor of a line. -/
theorem lineWords_ne_nil (head : List Char) : lineWords head ≠ [] := by
  intro h
  unfold lineWords at h
  dsimp only at h
  split at h
  · cases List.append_eq_nil_iff.1 h |>.2
  · next hcases => simp [h] at hcases

/-- The request of a line holds the words of the line, with the cursor on the last one. -/
theorem holds_ofLine (line : String) (point : Option Int) :
    (ofLine line point).Holds (lineWords (headOfLine line point))
      ((lineWords (headOfLine line point)).length - 1) := by
  have hpos := List.length_pos_iff.2 (lineWords_ne_nil (headOfLine line point))
  have hholds := holds_ofWords (lineWords (headOfLine line point))
    ((lineWords (headOfLine line point)).length - 1)
  have hpad : padTo ((lineWords (headOfLine line point)).length - 1 : Int).toNat
      (lineWords (headOfLine line point)) = lineWords (headOfLine line point) :=
    padTo_of_lt (by omega)
  rw [hpad, Int.max_eq_left (by omega)] at hholds
  exact hholds

/-- Words and a cursor make a request exactly if they fit on the machine; it holds the words, behind
them as many empty ones as the cursor needs, and a mark at the cursor alone. So does every line with
any offset, where the cursor is on the last word; and the words that a line is handed on as make the
request of the line again. -/
theorem holds_of_words_and_line (room : Room) (words : List String) (cursor : Int) (line : String)
    (point : Option Int) :
    (ofValues room (words.map .text) cursor =
        (if Fits room words cursor then .ok (ofWords words cursor)
        else .error (Room.shortage (cursor.toNat + 1 - words.length))) ∧
      (ofWords words cursor).Holds
        (words ++ List.replicate (max 0 (max cursor 0 + 1 - words.length)).toNat "")
        (max cursor 0)) ∧
      (ofLine line point).Holds (lineWords (headOfLine line point))
          ((ofLine line point).tokens.length - 1) ∧
        ∀ query : CompletionQuery,
          let asked := { query with line := some line, point := point }.request
          ofWords asked.1 asked.2 = ofLine line point := by
  refine ⟨⟨ofValues_map_text room words cursor, ?_⟩, ?_⟩
  · rw [← padTo_eq]
    exact holds_ofWords words cursor
  · have hholds := holds_ofLine line point
    have hlength : (ofLine line point).tokens.length =
        (lineWords (headOfLine line point)).length := by
      rw [← hholds.texts_eq, texts, List.length_map]
    refine ⟨?_, fun query => hholds.again⟩
    rw [hlength]
    exact hholds

/-- One word and a cursor that no list of words reaches. -/
theorem not_ofValues_farCursor :
    (¬ ∃ r, ofValues .usual [.text "peerd"] Room.wordEnd = .ok r) ∧
      ofValues .usual [.text "peerd"] Room.wordEnd = .error .overflow ∧
      ofValues .usual [.text "peerd"] 0x4000000000000000 = .error .noRoom := by
  have hfar : ofValues .usual [.text "peerd"] Room.wordEnd = .error .overflow :=
    ofValues_map_text .usual ["peerd"] Room.wordEnd
  have hnear : ofValues .usual [.text "peerd"] 0x4000000000000000 = .error .noRoom :=
    ofValues_map_text .usual ["peerd"] 0x4000000000000000
  refine ⟨?_, hfar, hnear⟩
  rintro ⟨r, hr⟩
  rw [hfar] at hr
  cases hr

end Request

end TabCompletion
