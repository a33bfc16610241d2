import TabCompletion.Json.Reader
import TabCompletion.Json.Writer
import TabCompletion.Text.Codes

/-!
# Writing and reading the texts of JSON

The code points of a text survive their escapes, singly (`readCodes_codeForm`) and together
(`readCodes_codes`), so a text that is written is read back, whatever follows it
(`readText_textForm`). It is written in printable ASCII (`isWritten_textForm`).
-/

namespace TabCompletion.Json

/-! ## Steps of the reader -/

section Steps

variable {a b c d e f g k x : Char} {n : Nat} {rest xs : List Char}

theorem escapeOf_of_ne (hc : (c != 'u') = true) (pos : Nat) (rest : List Char) :
    escapeOf pos c rest =
      match shortEscape? c with
      | some n => .ok (n, 1)
      | none => .error (.escape, pos) := by
  unfold escapeOf
  cases shortEscape? c <;> exact if_pos hc

theorem escapeOf_unpaired (hunit : unitOf? a b c d = some n) (hhigh : isHighUnit n = false)
    (pos : Nat) : escapeOf pos 'u' (a :: b :: c :: d :: x :: xs) = .ok (n, 5) := by
  unfold escapeOf
  simp [hunit, hhigh]

/-- Two units next to each other. -/
theorem escapeOf_paired (hunit : unitOf? a b c d = some n) (hhigh : isHighUnit n = true)
    (pos : Nat) :
    escapeOf pos 'u' (a :: b :: c :: d :: '\\' :: 'u' :: e :: f :: g :: k :: x :: xs) =
      match unitOf? e f g k with
      | none => .error (.unicodeEscape, pos + 7)
      | some m =>
        if isLowUnit m then .ok (0x10000 + (n - 0xD800) * 1024 + (m - 0xDC00), 11)
        else .ok (n, 5) := by
  unfold escapeOf
  rw [if_neg (by decide)]
  dsimp only
  rw [hunit]
  dsimp only
  rw [if_pos hhigh]
  rfl

theorem readCodes_quote (start pos : Nat) (done : List Nat) (rest : List Char) :
    readCodes start pos done ('\x22' :: rest) = .ok (done.reverse, ⟨rest, pos + 1⟩) := by
  rw [readCodes.eq_def]
  simp only [if_pos]

theorem readCodes_slash {start pos taken : Nat} {done : List Nat}
    (hescape : escapeOf pos c rest = .ok (n, taken)) :
    readCodes start pos done ('\\' :: c :: rest) =
      readCodes start (pos + 1 + taken) (n :: done) (rest.drop (taken - 1)) := by
  rw [readCodes.eq_def]
  simp [hescape]

theorem readCodes_char {start pos : Nat} {done : List Nat} (hquote : c ≠ '\x22')
    (hslash : c ≠ '\\') (hcontrol : ¬ c.toNat ≤ 0x1F) :
    readCodes start pos done (c :: rest) = readCodes start (pos + 1) (c.toNat :: done) rest := by
  rw [readCodes.eq_def]
  simp only [if_neg hquote, if_neg hslash, if_neg hcontrol]

end Steps

/-! ## Escapes -/

theorem hexValue?_digitChar {n : Nat} (h : n < 16) : hexValue? (Nat.digitChar n) = some n := by
  have hall : ∀ i : Fin 16, hexValue? (Nat.digitChar i) = some i.1 := by decide
  exact hall ⟨n, h⟩

/-- The four digits of a unit name it. -/
theorem unitOf?_hexDigits {n : Nat} (h : n < 0x10000) :
    ∃ a b c d, Text.hexDigits 4 n = [a, b, c, d] ∧ unitOf? a b c d = some n := by
  have hdigit : ∀ k : Nat, hexValue? (Nat.digitChar (n / Nat.pow 16 k % 16)) =
      some (n / Nat.pow 16 k % 16) :=
    fun k => hexValue?_digitChar (Nat.mod_lt _ (by decide))
  refine ⟨_, _, _, _, rfl, ?_⟩
  simp only [unitOf?, hdigit, Option.bind_eq_bind, Option.bind_some, Option.pure_def]
  congr 1
  simp only [Nat.pow_eq]
  omega

theorem escapeOf_unit {n : Nat} (h : n < 0x10000) (hhigh : isHighUnit n = false) (pos : Nat)
    {rest : List Char} (hrest : rest ≠ []) :
    escapeOf pos 'u' (Text.hexDigits 4 n ++ rest) = .ok (n, 5) := by
  obtain ⟨a, b, c, d, hdigits, hunit⟩ := unitOf?_hexDigits h
  obtain ⟨x, xs, rfl⟩ := List.exists_cons_of_ne_nil hrest
  rw [hdigits]
  exact escapeOf_unpaired hunit hhigh pos

/-- Two escapes name a character beyond the basic plane. -/
theorem escapeOf_pair {m n : Nat} (hm : isHighUnit m = true) (hn : isLowUnit n = true) (pos : Nat)
    {rest : List Char} (hrest : rest ≠ []) :
    escapeOf pos 'u' (Text.hexDigits 4 m ++ (unitEscape n ++ rest)) =
      .ok (0x10000 + (m - 0xD800) * 1024 + (n - 0xDC00), 11) := by
  have hm' : m < 0x10000 := by
    simp only [isHighUnit, Bool.and_eq_true, decide_eq_true_eq] at hm
    omega
  have hn' : n < 0x10000 := by
    simp only [isLowUnit, Bool.and_eq_true, decide_eq_true_eq] at hn
    omega
  obtain ⟨a, b, c, d, hdigits, hunit⟩ := unitOf?_hexDigits hm'
  obtain ⟨e, f, g, h, hdigits', hunit'⟩ := unitOf?_hexDigits hn'
  obtain ⟨x, xs, rfl⟩ := List.exists_cons_of_ne_nil hrest
  rw [unitEscape, hdigits, hdigits']
  refine (escapeOf_paired hunit hm pos).trans ?_
  rw [hunit']
  exact if_pos hn

theorem length_hexDigits (width n : Nat) : (Text.hexDigits width n).length = width := by
  simp [Text.hexDigits]

/-- An escape is read as the code point that it names. -/
theorem readCodes_escape {start pos n taken : Nat} {done : List Nat} {e : Char}
    (escape : List Char) {rest : List Char}
    (hescape : ∀ pos, escapeOf pos e (escape ++ rest) = .ok (n, taken))
    (htaken : taken = escape.length + 1) :
    readCodes start pos done ('\\' :: e :: escape ++ rest) =
      readCodes start (pos + 1 + taken) (n :: done) rest := by
  subst htaken
  refine (readCodes_slash (hescape pos)).trans ?_
  rw [Nat.add_sub_cancel, List.drop_left]

/-- A character that needs no escape is read as it is. -/
theorem readCodes_plain {start pos n : Nat} {done : List Nat} (hn : 32 ≤ n ∧ n < 127)
    (hquote : n ≠ 0x22) (hslash : n ≠ 0x5C) (rest : List Char) :
    readCodes start pos done (Char.ofNat n :: rest) = readCodes start (pos + 1) (n :: done) rest := by
  have hval : (Char.ofNat n).toNat = n := Text.toNat_ofNat (.inl (by omega))
  have hne : ∀ c : Char, n ≠ c.toNat → Char.ofNat n ≠ c := by
    intro c hc h
    exact hc (h ▸ hval.symm)
  have hcontrol : ¬ (Char.ofNat n).toNat ≤ 0x1F := by omega
  rw [readCodes_char (hne '\x22' hquote) (hne '\\' hslash) hcontrol, hval]

/-- The letters that name a character after a backslash. -/
def escapeLetters : List Char := ['\x22', '\\', 'b', 't', 'n', 'f', 'r']

/-- How a code point is written: by a letter after a backslash, as it is, by its unit, or by two
units. -/
inductive CodeForm (n : Nat) : List Char → Prop
  | letter {e : Char} (he : e ∈ escapeLetters) (hn : shortEscape? e = some n) :
      CodeForm n ['\\', e]
  | plain (hn : 32 ≤ n ∧ n < 127) (hquote : n ≠ 0x22) (hslash : n ≠ 0x5C) :
      CodeForm n [Char.ofNat n]
  | unit (hn : n < 0x10000) : CodeForm n (unitEscape n)
  | pair (hn : 0x10000 ≤ n) :
      CodeForm n (unitEscape (0xD800 + (n - 0x10000) / 1024) ++
        unitEscape (0xDC00 + (n - 0x10000) % 1024))

theorem codeForm_spec (n : Nat) : CodeForm n (codeForm n) := by
  -- the branches come in the order of `codeForm`: the first seven each name a letter
  unfold codeForm
  split
  · next h => exact .letter (by decide) (h ▸ rfl)
  rename_i hquote
  split
  · next h => exact .letter (by decide) (h ▸ rfl)
  rename_i hslash
  split
  · next h => exact .letter (by decide) (h ▸ rfl)
  split
  · next h => exact .letter (by decide) (h ▸ rfl)
  split
  · next h => exact .letter (by decide) (h ▸ rfl)
  split
  · next h => exact .letter (by decide) (h ▸ rfl)
  split
  · next h => exact .letter (by decide) (h ▸ rfl)
  split
  · next h =>
      rw [Bool.and_eq_true, decide_eq_true_eq, decide_eq_true_eq] at h
      exact .plain h hquote hslash
  split
  · next h => exact .unit h
  · next h => exact .pair (Nat.le_of_not_lt h)

theorem escapeOf_letter {e : Char} (he : e ∈ escapeLetters) {n : Nat}
    (hn : shortEscape? e = some n) (pos : Nat) (rest : List Char) :
    escapeOf pos e rest = .ok (n, 1) := by
  have hne : (e != 'u') = true := by
    have hall : ∀ e ∈ escapeLetters, (e != 'u') = true := List.all_eq_true.1 (by decide)
    exact hall e he
  unfold escapeOf
  rw [if_pos hne, hn]

/-- The form of a code point is read as that code point, if something follows it. -/
theorem readCodes_codeForm (start pos : Nat) (done : List Nat) {n : Nat} (hn : n.isValidChar)
    {rest : List Char} (hrest : rest ≠ []) :
    ∃ pos', readCodes start pos done (codeForm n ++ rest) =
      readCodes start pos' (n :: done) rest := by
  have hvalid : n < 0xD800 ∨ 0xDFFF < n ∧ n < 0x110000 := hn
  have hform := codeForm_spec n
  generalize codeForm n = form at hform ⊢
  cases hform with
  | letter he hletter =>
      exact ⟨_, readCodes_escape [] (fun pos => escapeOf_letter he hletter pos rest) rfl⟩
  | plain hplain hquote hslash => exact ⟨_, readCodes_plain hplain hquote hslash rest⟩
  | unit hunit =>
      -- no code point of a character is half of a pair
      have hhigh : isHighUnit n = false := by
        simp only [isHighUnit, Bool.and_eq_false_iff, decide_eq_false_iff_not]
        omega
      exact ⟨_, readCodes_escape (Text.hexDigits 4 n)
        (fun pos => escapeOf_unit hunit hhigh pos hrest) (by rw [length_hexDigits])⟩
  | pair hpair =>
      have hhigh : isHighUnit (0xD800 + (n - 0x10000) / 1024) = true := by
        simp only [isHighUnit, Bool.and_eq_true, decide_eq_true_eq]
        omega
      have hlow : isLowUnit (0xDC00 + (n - 0x10000) % 1024) = true := by
        simp only [isLowUnit, Bool.and_eq_true, decide_eq_true_eq]
        omega
      have hescape := fun pos => escapeOf_pair hhigh hlow pos hrest
      -- the two units hold the upper and the lower bits of the code point
      have hback : 0x10000 + (0xD800 + (n - 0x10000) / 1024 - 0xD800) * 1024 +
          (0xDC00 + (n - 0x10000) % 1024 - 0xDC00) = n := by omega
      rw [hback] at hescape
      simp only [← List.append_assoc] at hescape
      exact ⟨_, readCodes_escape _ hescape (by simp [unitEscape, length_hexDigits])⟩

/-- The code points of a text are read back up to its closing quote. -/
theorem readCodes_codes (start pos : Nat) (done : List Nat) {codes : List Nat}
    (hcodes : ∀ n ∈ codes, n.isValidChar) (rest : List Char) :
    ∃ pos', readCodes start pos done (codes.flatMap codeForm ++ '\x22' :: rest) =
      .ok (done.reverse ++ codes, ⟨rest, pos'⟩) := by
  induction codes generalizing pos done with
  | nil =>
      refine ⟨pos + 1, ?_⟩
      rw [List.flatMap_nil, List.nil_append, readCodes_quote, List.append_nil]
  | cons n codes ih =>
      -- the closing quote is still to come, so an escape is never the last that is read
      have hn := hcodes n List.mem_cons_self
      have hrest : codes.flatMap codeForm ++ '\x22' :: rest ≠ [] := by simp
      obtain ⟨p, hp⟩ := readCodes_codeForm start pos done hn hrest
      obtain ⟨q, hq⟩ := ih p (n :: done) fun m hm => hcodes m (List.mem_cons_of_mem _ hm)
      refine ⟨q, ?_⟩
      rw [List.flatMap_cons, List.append_assoc, hp, hq]
      simp

theorem ofCodes_toList (s : String) : Document.ofCodes (s.toList.map Char.toNat) = .text s := by
  have hall : (s.toList.map Char.toNat).all fun n => n.isValidChar := by
    simp only [List.all_map, List.all_eq_true, Function.comp_apply, decide_eq_true_eq]
    exact fun c _ => c.valid
  rw [Document.ofCodes, if_pos hall, List.map_map]
  have hid : Char.ofNat ∘ Char.toNat = id := funext Char.ofNat_toNat
  rw [hid, List.map_id, String.ofList_toList]

/-- A text is read back, whatever follows it. -/
theorem readText_textForm (s : String) (rest : List Char) (pos : Nat) :
    ∃ pos', readText ⟨textForm s ++ rest, pos⟩ = .ok (.text s, ⟨rest, pos'⟩) := by
  have hcodes : ∀ n ∈ s.toList.map Char.toNat, n.isValidChar := by
    intro n hn
    obtain ⟨c, -, rfl⟩ := List.mem_map.1 hn
    exact c.valid
  obtain ⟨p, hp⟩ := readCodes_codes pos (pos + 1) [] hcodes rest
  refine ⟨p, ?_⟩
  have hdrop : (textForm s ++ rest).drop 1 =
      (s.toList.map Char.toNat).flatMap codeForm ++ '\x22' :: rest := by
    simp [textForm, codesForm]
  simp only [readText, hdrop, hp, List.reverse_nil, List.nil_append, ofCodes_toList]

/-! ## What is written -/

/-- The character is one of those that are written: a line feed, or one of printable ASCII. -/
def IsWritten (c : Char) : Prop := c = '\n' ∨ (32 ≤ c.toNat ∧ c.toNat < 127)

instance (c : Char) : Decidable (IsWritten c) := inferInstanceAs (Decidable (_ ∨ _))

theorem isWritten_of_all {chars : List Char} (h : chars.all (fun c => decide (IsWritten c)) = true) :
    ∀ c ∈ chars, IsWritten c :=
  fun c hc => of_decide_eq_true (List.all_eq_true.1 h c hc)

theorem isWritten_digitChar {n : Nat} (h : n < 16) : IsWritten (Nat.digitChar n) := by
  have hall : ∀ i : Fin 16, IsWritten (Nat.digitChar i) := by decide
  exact hall ⟨n, h⟩

theorem isWritten_unitEscape (n : Nat) : ∀ c ∈ unitEscape n, IsWritten c := by
  have hdigits : ∀ c ∈ Text.hexDigits 4 n, IsWritten c := by
    intro c hc
    obtain ⟨i, -, rfl⟩ := List.mem_map.1 hc
    exact isWritten_digitChar (Nat.mod_lt _ (by decide))
  rw [unitEscape, List.forall_mem_append]
  exact ⟨isWritten_of_all (by decide), hdigits⟩

theorem isWritten_codeForm (n : Nat) : ∀ c ∈ codeForm n, IsWritten c := by
  have hform := codeForm_spec n
  generalize codeForm n = form at hform ⊢
  cases hform with
  | @letter e he =>
      have hall : ∀ e ∈ escapeLetters, IsWritten e := isWritten_of_all (by decide)
      exact List.forall_mem_cons.2 ⟨by decide, List.forall_mem_singleton.2 (hall e he)⟩
  | plain hplain =>
      rw [List.forall_mem_singleton, IsWritten, Text.toNat_ofNat (.inl (by omega))]
      exact .inr hplain
  | unit => exact isWritten_unitEscape n
  | pair => exact List.forall_mem_append.2 ⟨isWritten_unitEscape _, isWritten_unitEscape _⟩

theorem isWritten_textForm (s : String) : ∀ c ∈ textForm s, IsWritten c := by
  rw [textForm, codesForm, List.forall_mem_append, List.forall_mem_cons]
  refine ⟨⟨by decide, ?_⟩, isWritten_of_all (by decide)⟩
  intro c hc
  obtain ⟨n, -, hn⟩ := List.mem_flatMap.1 hc
  exact isWritten_codeForm n c hn

end TabCompletion.Json
