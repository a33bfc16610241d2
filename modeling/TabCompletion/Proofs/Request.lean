import TabCompletion.Request.Basic

/-!
# The words of a request

`Request.ofWords` pads the words so that the cursor stands on one. What a request says of the
word under the cursor, the word before it and the first word are then the words themselves, a
word that is not there being empty (`wordAt`). The request can be made on a machine exactly if
the words with those behind them fit there (`Request.Fits`).
-/

namespace TabCompletion

/-- The word at an index; a word that is not there is empty. -/
def wordAt (words : List String) (index : Nat) : String := words.getD index ""

namespace Request

theorem getElem?_padTo (words : List String) {index i : Nat} (hi : i ≤ index) :
    (padTo index words)[i]? = some (wordAt words i) := by
  unfold padTo wordAt
  by_cases hw : i < words.length
  · -- one of the words themselves
    rw [List.getElem?_append_left hw]
    simp [hw]
  · -- one of the empty words behind them
    rw [List.getElem?_append_right (by omega), List.getElem?_replicate, if_pos (by omega)]
    simp [hw]

theorem text_getElem?_mark (index i : Nat) (words : List String) :
    ((mark index words)[i]?).map Token.text = words[i]? := by
  rw [mark, List.getElem?_mapIdx, Option.map_map]
  exact Option.map_id'

theorem tokens_ofWords (words : List String) (cursor : Int) (i : Nat) (hi : i ≤ cursor.toNat) :
    ((ofWords words cursor).tokens[i]?).map Token.text = some (wordAt words i) := by
  show ((mark cursor.toNat (padTo cursor.toNat words))[i]?).map Token.text = _
  rw [text_getElem?_mark, getElem?_padTo words hi]

theorem cursor_ofWords (words : List String) (cursor : Int) :
    (ofWords words cursor).cursor = cursor.toNat := rfl

theorem command_ofWords (words : List String) (cursor : Int) :
    (ofWords words cursor).command = wordAt words 0 := by
  have h := tokens_ofWords words cursor 0 (Nat.zero_le _)
  rw [command, List.head?_eq_getElem?, h]
  rfl

theorem current_ofWords (words : List String) (cursor : Int) :
    (ofWords words cursor).current = wordAt words cursor.toNat := by
  have h := tokens_ofWords words cursor cursor.toNat (Nat.le_refl _)
  have hlt := (ofWords words cursor).cursor_lt
  rw [List.getElem?_eq_getElem (by exact hlt), Option.map_some, Option.some.injEq] at h
  exact h

theorem previous_ofWords (words : List String) (cursor : Int) {i : Nat}
    (hi : cursor.toNat = i + 1) : (ofWords words cursor).previous = wordAt words i := by
  have h := tokens_ofWords words cursor i (by omega)
  unfold previous
  rw [cursor_ofWords, hi]
  show (((ofWords words cursor).tokens[i]?).map Token.text).getD "" = _
  rw [h]
  rfl

/-- The words, and the empty ones behind them that the cursor needs, fit on the machine. -/
def Fits (room : Room) (words : List String) (cursor : Int) : Prop :=
  max words.length (cursor.toNat + 1) ≤ room.items

instance (room : Room) (words : List String) (cursor : Int) :
    Decidable (Fits room words cursor) :=
  inferInstanceAs (Decidable (_ ≤ _))

theorem refusal?_eq_none_iff {room : Room} {words : List String} {cursor : Int} :
    refusal? room words.length cursor = none ↔ Fits room words cursor := by
  rw [refusal?, Room.refusal?_eq_none_iff, Fits]
  omega

theorem refusal?_of_not_fits {room : Room} {words : List String} {cursor : Int}
    (h : ¬ Fits room words cursor) :
    refusal? room words.length cursor =
      some (Room.shortage (cursor.toNat + 1 - words.length)) := by
  have hroom : room.items < words.length + (cursor.toNat + 1 - words.length) := by
    rw [Fits] at h
    omega
  rw [refusal?, Room.refusal?, if_pos (.inr hroom)]

end Request

end TabCompletion
