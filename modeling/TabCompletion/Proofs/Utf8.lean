import TabCompletion.Text.Utf8

/-!
# Writing and reading UTF-8

What `encode` writes, `decode` reads back (`decode_encode`), and so does `decodeLenient`, which
finds nothing to replace in it (`decodeLenient_encode`). The front of the form of a character is
that character, whatever follows it (`front_encodeChar`).
-/

namespace TabCompletion.Text.Utf8

theorem toNat_ofNat {n : Nat} (h : n < 256) : (UInt8.ofNat n).toNat = n :=
  UInt8.toNat_ofNat_of_lt' h

theorem toNat_tail (n : Nat) : (tail n).toNat = 0x80 + n % 64 :=
  toNat_ofNat (show 0x80 + n % 64 < 256 by omega)

theorem isTail_tail (n : Nat) : isTail (tail n) = true := by
  have h := toNat_tail n
  simp only [isTail, UInt8.le_iff_toNat_le, h, Bool.and_eq_true, decide_eq_true_eq]
  exact ⟨Nat.le_add_right _ _, show 0x80 + n % 64 ≤ 0xBF by omega⟩

theorem low6_tail (n : Nat) : low6 (tail n) = n % 64 := by
  have h := toNat_tail n
  unfold low6
  omega

section front

variable {b : UInt8} {m l k : Nat} {rest : List UInt8}

theorem front_one (h : b.toNat < 0x80) : front b rest = .char (Char.ofNat b.toNat) 0 := by
  unfold front
  rw [if_pos (UInt8.lt_iff_toNat_lt.2 h)]

theorem front_two (hlow : 0xC2 ≤ b.toNat) (hhigh : b.toNat < 0xE0) :
    front b (tail m :: rest) = .char (Char.ofNat (b.toNat % 32 * 64 + m % 64)) 1 := by
  have h80 : ¬ b.toNat < 128 := by omega
  have hC2 : ¬ b.toNat < 194 := by omega
  have hF4 : ¬ 244 < b.toNat := by omega
  simp [front, UInt8.lt_iff_toNat_lt, h80, hC2, hF4, hhigh, isTail_tail, low6_tail]

theorem front_three (hlow : 0xE0 ≤ b.toNat) (hhigh : b.toNat < 0xF0)
    (h : secondOfThree b (tail m) = true) :
    front b (tail m :: tail l :: rest) =
      .char (Char.ofNat (b.toNat % 16 * 4096 + m % 64 * 64 + l % 64)) 2 := by
  have h80 : ¬ b.toNat < 128 := by omega
  have hC2 : ¬ b.toNat < 194 := by omega
  have hF4 : ¬ 244 < b.toNat := by omega
  have hE0 : ¬ b.toNat < 224 := by omega
  simp [front, UInt8.lt_iff_toNat_lt, h80, hC2, hF4, hE0, hhigh, h, isTail_tail, low6_tail]

theorem front_four (hlow : 0xF0 ≤ b.toNat) (hhigh : b.toNat ≤ 0xF4)
    (h : secondOfFour b (tail m) = true) :
    front b (tail m :: tail l :: tail k :: rest) =
      .char (Char.ofNat (b.toNat % 8 * 262144 + m % 64 * 4096 + l % 64 * 64 + k % 64)) 3 := by
  have h80 : ¬ b.toNat < 128 := by omega
  have hC2 : ¬ b.toNat < 194 := by omega
  have hF4 : ¬ 244 < b.toNat := by omega
  have hE0 : ¬ b.toNat < 224 := by omega
  have hF0 : ¬ b.toNat < 240 := by omega
  simp [front, UInt8.lt_iff_toNat_lt, h80, hC2, hF4, hE0, hF0, h, isTail_tail, low6_tail]

/-- The second byte rules out the forms that are too long, and those of surrogates. -/
theorem secondOfThree_tail (hlow : b.toNat = 0xE0 → 32 ≤ m % 64)
    (hhigh : b.toNat = 0xED → m % 64 < 32) : secondOfThree b (tail m) = true := by
  have htail := toNat_tail m
  unfold secondOfThree
  split
  · next h =>
      have hm := hlow (congrArg UInt8.toNat h)
      simp only [UInt8.le_iff_toNat_le, htail, Bool.and_eq_true, decide_eq_true_eq]
      exact ⟨show 0xA0 ≤ 0x80 + m % 64 by omega, show 0x80 + m % 64 ≤ 0xBF by omega⟩
  · split
    · next h =>
        have hm := hhigh (congrArg UInt8.toNat h)
        simp only [UInt8.le_iff_toNat_le, htail, Bool.and_eq_true, decide_eq_true_eq]
        exact ⟨Nat.le_add_right _ _, show 0x80 + m % 64 ≤ 0x9F by omega⟩
    · exact isTail_tail m

/-- The second byte rules out the forms that are too long, and those beyond the last
character. -/
theorem secondOfFour_tail (hlow : b.toNat = 0xF0 → 16 ≤ m % 64)
    (hhigh : b.toNat = 0xF4 → m % 64 < 16) : secondOfFour b (tail m) = true := by
  have htail := toNat_tail m
  unfold secondOfFour
  split
  · next h =>
      have hm := hlow (congrArg UInt8.toNat h)
      simp only [UInt8.le_iff_toNat_le, htail, Bool.and_eq_true, decide_eq_true_eq]
      exact ⟨show 0x90 ≤ 0x80 + m % 64 by omega, show 0x80 + m % 64 ≤ 0xBF by omega⟩
  · split
    · next h =>
        have hm := hhigh (congrArg UInt8.toNat h)
        simp only [UInt8.le_iff_toNat_le, htail, Bool.and_eq_true, decide_eq_true_eq]
        exact ⟨Nat.le_add_right _ _, show 0x80 + m % 64 ≤ 0x8F by omega⟩
    · exact isTail_tail m

end front

/-- The form of a character is read as that character, whatever follows it. -/
theorem front_encodeChar (c : Char) (rest : List UInt8) :
    ∃ b more, encodeChar c = b :: more ∧ front b (more ++ rest) = .char c more.length := by
  have hvalid : c.toNat < 0xD800 ∨ 0xDFFF < c.toNat ∧ c.toNat < 0x110000 := c.valid
  have hback : Char.ofNat c.toNat = c := Char.ofNat_toNat c
  unfold encodeChar
  dsimp only
  generalize c.toNat = n at hvalid hback
  -- one case for each number of bytes; the bits of the bytes make up the code point again
  split
  · next h1 =>
      -- one byte
      have hb : (UInt8.ofNat n).toNat = n := toNat_ofNat (by omega)
      refine ⟨_, _, rfl, ?_⟩
      rw [List.nil_append, front_one (hb.symm ▸ h1), hb, hback]
      rfl
  · split
    · next h1 h2 =>
        -- two bytes
        have hb : (UInt8.ofNat (0xC0 + n / 64)).toNat = 0xC0 + n / 64 :=
          toNat_ofNat (by omega)
        have hn : (0xC0 + n / 64) % 32 * 64 + n % 64 = n := by omega
        refine ⟨_, _, rfl, ?_⟩
        rw [List.singleton_append, front_two (by omega) (by omega), hb, hn, hback]
        rfl
    · split
      · next h1 h2 h3 =>
          -- three bytes; surrogates are no characters, which keeps the second byte in range
          have hb : (UInt8.ofNat (0xE0 + n / 4096)).toNat = 0xE0 + n / 4096 :=
            toNat_ofNat (by omega)
          have hn : (0xE0 + n / 4096) % 16 * 4096 + n / 64 % 64 * 64 + n % 64 = n := by omega
          have hsecond : secondOfThree (UInt8.ofNat (0xE0 + n / 4096)) (tail (n / 64)) = true :=
            secondOfThree_tail (by omega) (by omega)
          refine ⟨_, _, rfl, ?_⟩
          rw [List.cons_append, List.singleton_append,
            front_three (by omega) (by omega) hsecond, hb, hn, hback]
          rfl
      · next h1 h2 h3 =>
          -- four bytes
          have hb : (UInt8.ofNat (0xF0 + n / 262144)).toNat = 0xF0 + n / 262144 :=
            toNat_ofNat (by omega)
          have hn : (0xF0 + n / 262144) % 8 * 262144 + n / 4096 % 64 * 4096 +
              n / 64 % 64 * 64 + n % 64 = n := by omega
          have hsecond : secondOfFour (UInt8.ofNat (0xF0 + n / 262144)) (tail (n / 4096)) = true :=
            secondOfFour_tail (by omega) (by omega)
          refine ⟨_, _, rfl, ?_⟩
          rw [List.cons_append, List.cons_append, List.singleton_append,
            front_four (by omega) (by omega) hsecond, hb, hn, hback]
          rfl

theorem decodeFrom_encode (cs : List Char) (pos : Nat) (done : List Char) :
    decodeFrom pos done (cs.flatMap encodeChar) = .ok (done.reverse ++ cs) := by
  induction cs generalizing pos done with
  | nil => simp [decodeFrom]
  | cons c cs ih =>
      obtain ⟨b, more, hform, hfront⟩ := front_encodeChar c (cs.flatMap encodeChar)
      rw [List.flatMap_cons, hform, List.cons_append, decodeFrom, hfront]
      simp only [List.drop_left, ih, List.reverse_cons, List.append_assoc, List.singleton_append]

/-- What is written is read back. -/
theorem decode_encode (s : String) : decode (encode s) = .ok s.toList :=
  decodeFrom_encode s.toList 0 []

theorem decodeLenientFrom_encode (cs done : List Char) :
    decodeLenientFrom done (cs.flatMap encodeChar) = done.reverse ++ cs := by
  induction cs generalizing done with
  | nil => simp [decodeLenientFrom]
  | cons c cs ih =>
      obtain ⟨b, more, hform, hfront⟩ := front_encodeChar c (cs.flatMap encodeChar)
      rw [List.flatMap_cons, hform, List.cons_append, decodeLenientFrom, hfront]
      simp only [List.drop_left, ih, List.reverse_cons, List.append_assoc, List.singleton_append]

/-- In what is written there is nothing to replace. -/
theorem decodeLenient_encode (s : String) : decodeLenient (encode s) = s.toList :=
  decodeLenientFrom_encode s.toList []

theorem byteCount_append (s t : String) : byteCount (s ++ t) = byteCount s + byteCount t := by
  simp [byteCount, encode]

end TabCompletion.Text.Utf8
