import TabCompletion.Text.Blank

/-!
# Texts as code points

The texts of a document are known by their code points. Among these may be surrogates, which are
code points but no characters: `Text.codes` gives the code points of a text of characters, and
`Text.inCharacters` the text of code points with the replacement character for every one that is
none. So a text of characters is had back from its code points (`inCharacters_codes`), while two
lists of code points may be one text in characters. `Text.text?` is the text of characters for the
code points that are those of one, the only ones with a UTF-8 form.
-/

namespace TabCompletion.Text

/-- A code point as a character; one that is no character is replaced. -/
def characterOf (code : Nat) : Char :=
  if code.isValidChar then Char.ofNat code else Char.ofNat 0xFFFD

/-- The code points of a text. -/
def codes (s : String) : List Nat := s.toList.map Char.toNat

/-- The text of code points, in characters. -/
def inCharacters (codes : List Nat) : String := String.ofList (codes.map characterOf)

/-- The text of characters that has these code points, if there is one. -/
def text? (codes : List Nat) : Option String :=
  if codes.all fun n => (Nat.isValidChar n) then some (inCharacters codes) else none

@[simp] theorem toList_inCharacters (codes : List Nat) :
    (inCharacters codes).toList = codes.map characterOf :=
  String.toList_ofList

theorem characterOf_toNat (c : Char) : characterOf c.toNat = c := by
  have hvalid : c.toNat.isValidChar := c.valid
  rw [characterOf, if_pos hvalid, Char.ofNat_toNat]

@[simp] theorem inCharacters_codes (s : String) : inCharacters (codes s) = s := by
  rw [inCharacters, codes, List.map_map]
  simp [Function.comp_def, characterOf_toNat]

@[simp] theorem inCharacters_comp_codes : inCharacters ∘ codes = id :=
  funext inCharacters_codes

theorem codes_injective : Function.Injective codes := by
  intro s t h
  rw [← inCharacters_codes s, h, inCharacters_codes]

theorem toNat_ofNat {code : Nat} (h : code.isValidChar) : (Char.ofNat code).toNat = code := by
  rw [Char.ofNat, dif_pos h]
  rfl

theorem text?_eq_some_iff {codes : List Nat} {s : String} :
    text? codes = some s ↔ codes = Text.codes s := by
  constructor
  · intro h
    unfold text? at h
    split at h
    · next hall =>
        cases h
        -- each code point is that of its character
        rw [Text.codes, toList_inCharacters, List.map_map]
        refine (List.map_id codes).symm.trans (List.map_congr_left fun code hcode => ?_)
        have hvalid := of_decide_eq_true (List.all_eq_true.1 hall code hcode)
        rw [Function.comp, characterOf, if_pos hvalid, toNat_ofNat hvalid, id]
    · cases h
  · rintro rfl
    have hall : (Text.codes s).all fun n => (Nat.isValidChar n) := by
      refine List.all_eq_true.2 fun n hn => ?_
      obtain ⟨c, -, rfl⟩ := List.mem_map.1 hn
      exact decide_eq_true c.valid
    rw [text?, if_pos hall, inCharacters_codes]

@[simp] theorem text?_codes (s : String) : text? (codes s) = some s := text?_eq_some_iff.2 rfl

/-- A code point is read as a character other than the replacement character only if it is that
character's. -/
theorem characterOf_eq_iff {code : Nat} {c : Char} (hc : c ≠ Char.ofNat 0xFFFD) :
    characterOf code = c ↔ code = c.toNat := by
  constructor
  · intro h
    unfold characterOf at h
    split at h
    · next hvalid => rw [← h, toNat_ofNat hvalid]
    · exact absurd h.symm hc
  · rintro rfl
    exact characterOf_toNat c

/-- Neither a surrogate nor the replacement character separates words. -/
theorem isBlank_characterOf (code : Nat) : isBlank (characterOf code) = isBlankCode code := by
  unfold characterOf
  split
  · next hvalid => rw [isBlank, toNat_ofNat hvalid]
  · next hvalid =>
      have hcode : isBlankCode code = false := by
        rw [Bool.eq_false_iff]
        intro hblank
        simp only [isBlankCode, Bool.or_eq_true, Bool.and_eq_true, decide_eq_true_eq,
          beq_iff_eq] at hblank
        exact hvalid (.inl (by omega))
      rw [hcode]
      decide

end TabCompletion.Text
