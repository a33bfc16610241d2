import Mathlib.Data.List.Find
import Mathlib.Data.List.TakeWhile
import TabCompletion.Proofs.JsonText
import TabCompletion.Text.Newline

/-!
# Line ends behind the words of JSON

`Text.SameLines` relates a text to its spellings with fewer carriage returns, among them the one in
which every line end is a line feed (`Text.sameLines_unifyNewlines`). No word, number or text of
JSON holds a line end: each is read the same whatever line ends come behind it
(`readKeyword_of_sameLines`, `readNumeral_of_sameLines`, `readCodes_of_sameLines`). The one step
that looks further ahead is the escape of a unit, which asks whether another one comes next; line
ends that are read as one character do not make one (`exists_paired_of_sameLines`).
-/

namespace TabCompletion

/-! ## Spellings of line ends -/

namespace Text

/-- The second text is the first one with its carriage returns read as line feeds, each together
with the line feed behind it or without. -/
inductive SameLines : List Char → List Char → Prop
  | nil : SameLines [] []
  | char {c : Char} {cs us : List Char} (hc : c ≠ '\r') (h : SameLines cs us) :
      SameLines (c :: cs) (c :: us)
  | carriage {cs us : List Char} (h : SameLines cs us) : SameLines ('\r' :: cs) ('\n' :: us)
  | pair {cs us : List Char} (h : SameLines cs us) : SameLines ('\r' :: '\n' :: cs) ('\n' :: us)

theorem sameLines_unifyNewlines (cs : List Char) : SameLines cs (unifyNewlines cs) := by
  induction cs using unifyNewlines.induct with
  | case1 => exact .nil
  | case2 rest ih => exact .pair ih
  | case3 rest hfeed ih =>
      rw [unifyNewlines]
      · exact .carriage ih
      · exact hfeed
  | case4 c rest hpair hcarriage ih =>
      rw [unifyNewlines]
      · exact .char hcarriage ih
      · exact hpair
      · exact hcarriage

namespace SameLines

variable {c : Char} {cs us : List Char} {p : Char → Bool}

theorem exists_cons (h : SameLines (c :: cs) us) (hc : c ≠ '\r') :
    ∃ us', us = c :: us' ∧ SameLines cs us' := by
  cases h with
  | char _ h => exact ⟨_, rfl, h⟩
  | carriage => exact absurd rfl hc
  | pair => exact absurd rfl hc

theorem exists_of_cons (h : SameLines cs (c :: us)) (hc : c ≠ '\n') :
    ∃ cs', cs = c :: cs' ∧ SameLines cs' us := by
  cases h with
  | char _ h => exact ⟨_, rfl, h⟩
  | carriage => exact absurd rfl hc
  | pair => exact absurd rfl hc

theorem exists_eq_cons (h : SameLines (c :: cs) us) : ∃ x xs, us = x :: xs := by
  cases h <;> exact ⟨_, _, rfl⟩

theorem exists_append {w : List Char} (h : SameLines (w ++ cs) us) (hw : '\r' ∉ w) :
    ∃ us', us = w ++ us' ∧ SameLines cs us' := by
  induction w generalizing us with
  | nil => exact ⟨us, rfl, h⟩
  | cons c w ih =>
      obtain ⟨hc, hw⟩ := List.ne_and_not_mem_of_not_mem_cons hw
      obtain ⟨us₁, rfl, h₁⟩ := h.exists_cons hc.symm
      obtain ⟨us', rfl, h'⟩ := ih h₁ hw
      exact ⟨us', rfl, h'⟩

theorem length_le (h : SameLines cs us) : us.length ≤ cs.length := by
  induction h with
  | nil => exact Nat.le_refl 0
  | char _ _ ih => exact Nat.succ_le_succ ih
  | carriage _ ih => exact Nat.succ_le_succ ih
  | pair _ ih => exact Nat.succ_le_succ (Nat.le_succ_of_le ih)

theorem isEmpty_eq (h : SameLines cs us) : us.isEmpty = cs.isEmpty := by
  cases h <;> rfl

theorem head?_eq_some_iff (h : SameLines cs us) (hc : c ≠ '\r' ∧ c ≠ '\n') :
    us.head? = some c ↔ cs.head? = some c := by
  cases h with
  | nil => rfl
  | char => rfl
  | carriage => simp [hc.1.symm, hc.2.symm]
  | pair => simp [hc.1.symm, hc.2.symm]

/-- What comes behind characters without a carriage return. -/
theorem drop (h : SameLines cs us) {n : Nat} (hn : '\r' ∉ cs.take n) :
    SameLines (cs.drop n) (us.drop n) := by
  induction n generalizing cs us with
  | zero => exact h
  | succ n ih =>
      cases h with
      | nil => exact .nil
      | char _ h => exact ih h fun hmem => hn (List.mem_cons_of_mem _ hmem)
      | carriage => exact absurd List.mem_cons_self hn
      | pair => exact absurd List.mem_cons_self hn

/-- A test that no line end passes comes to the same characters. -/
theorem takeWhile_eq (h : SameLines cs us) (hcarriage : p '\r' = false) (hfeed : p '\n' = false) :
    us.takeWhile p = cs.takeWhile p := by
  induction h with
  | nil => rfl
  | char _ _ ih => rw [List.takeWhile_cons, List.takeWhile_cons, ih]
  | carriage => simp [hcarriage, hfeed]
  | pair => simp [hcarriage, hfeed]

/-- Behind characters of a kind that line ends belong to. -/
theorem dropWhile (h : SameLines cs us) (hcarriage : p '\r' = true) (hfeed : p '\n' = true) :
    SameLines (cs.dropWhile p) (us.dropWhile p) := by
  induction h with
  | nil => exact .nil
  | @char c _ _ hc h ih =>
      cases hp : p c with
      | true => simpa [hp] using ih
      | false => simpa [hp] using h.char hc
  | carriage _ ih => simpa [hcarriage, hfeed] using ih
  | pair _ ih => simpa [hcarriage, hfeed] using ih

theorem isPrefixOf_eq (h : SameLines cs us) {word : List Char} (hcarriage : '\r' ∉ word)
    (hfeed : '\n' ∉ word) : word.isPrefixOf us = word.isPrefixOf cs := by
  induction word generalizing cs us with
  | nil => rw [List.isPrefixOf_nil_left, List.isPrefixOf_nil_left]
  | cons c word ih =>
      obtain ⟨hc, hcarriage⟩ := List.ne_and_not_mem_of_not_mem_cons hcarriage
      obtain ⟨hc', hfeed⟩ := List.ne_and_not_mem_of_not_mem_cons hfeed
      cases h with
      | nil => rfl
      | char _ h => rw [List.isPrefixOf, List.isPrefixOf, ih h hcarriage hfeed]
      | carriage => simp [List.isPrefixOf, beq_false_of_ne hc.symm, beq_false_of_ne hc'.symm]
      | pair => simp [List.isPrefixOf, beq_false_of_ne hc.symm, beq_false_of_ne hc'.symm]

end SameLines

end Text

namespace Json

/-! ## Words and numbers -/

/-- Reading goes on with `rest` behind `n` characters, none of which is a carriage return. -/
structure Skips (cs : List Char) (n : Nat) (rest : List Char) : Prop where
  rest_eq : rest = cs.drop n
  plain : '\r' ∉ cs.take n

section Parts

variable {c : Char} {cs us rest rest' last : List Char} {m n : Nat} {p : Char → Bool}

namespace Skips

theorem zero : Skips cs 0 cs := ⟨rfl, List.not_mem_nil⟩

theorem cons (hc : c ≠ '\r') (h : Skips cs n rest) : Skips (c :: cs) (n + 1) rest where
  rest_eq := h.rest_eq
  plain := List.not_mem_cons_of_ne_of_not_mem hc.symm h.plain

theorem trans (h : Skips cs m rest) (h' : Skips rest n last) : Skips cs (m + n) last where
  rest_eq := by rw [h'.rest_eq, h.rest_eq, List.drop_drop]
  plain := by
    rw [List.take_add, List.mem_append, ← h.rest_eq]
    exact not_or.2 ⟨h.plain, h'.plain⟩

theorem takeWhile (cs : List Char) (hp : p '\r' = false) :
    Skips cs (cs.takeWhile p).length (cs.drop (cs.takeWhile p).length) where
  rest_eq := rfl
  plain := by
    rw [← List.prefix_iff_eq_take.1 (List.takeWhile_prefix p)]
    intro hmem
    rw [List.mem_takeWhile_imp hmem] at hp
    cases hp

theorem sameLines (h : Skips cs n rest) (h' : Skips us n rest') (hlines : Text.SameLines cs us) :
    Text.SameLines rest rest' := by
  rw [h.rest_eq, h'.rest_eq]
  exact hlines.drop h.plain

end Skips

theorem readKeyword_of_sameLines (h : Text.SameLines cs us) : readKeyword us = readKeyword cs := by
  have hall : ∀ entry ∈ keywords, '\r' ∉ entry.1.toList ∧ '\n' ∉ entry.1.toList := by decide
  have hfind : keywords.find? (fun entry => entry.1.toList.isPrefixOf us) =
      keywords.find? fun entry => entry.1.toList.isPrefixOf cs := by
    refine List.find?_congr fun entry hmem => ?_
    exact h.isPrefixOf_eq (hall entry hmem).1 (hall entry hmem).2
  exact congrArg (Option.map fun entry => (entry.2, entry.1.length)) hfind

theorem skips_readKeyword {d : Document} (h : readKeyword cs = some (d, n)) :
    Skips cs n (cs.drop n) := by
  obtain ⟨⟨word, d'⟩, hfind, heq⟩ := Option.map_eq_some_iff.1 h
  have hword : word.toList.isPrefixOf cs = true := by simpa using List.find?_some hfind
  have hall : ∀ entry ∈ keywords, '\r' ∉ entry.1.toList := by decide
  have hplain : '\r' ∉ word.toList := hall _ (List.mem_of_find?_eq_some hfind)
  obtain ⟨rest, rfl⟩ := List.isPrefixOf_iff_prefix.1 hword
  obtain ⟨rfl, rfl⟩ := Prod.mk.inj heq
  refine ⟨rfl, ?_⟩
  rwa [← String.length_toList, List.take_left]

/-- The sign of a number, and what follows it. -/
def signOf (cs : List Char) : Bool × List Char :=
  match cs with
  | '-' :: r => (true, r)
  | r => (false, r)

/-- The digits of a number before its point. -/
def wholeOf (cs : List Char) : List Char :=
  match cs with
  | '0' :: _ => ['0']
  | r => r.takeWhile Char.isDigit

/-- The digits of a number behind its point, what follows them, and how many characters of the
number are read by then. -/
def fractionOf (taken : Nat) (cs : List Char) : Option (List Char) × List Char × Nat :=
  match cs with
  | '.' :: r =>
    let ds := r.takeWhile Char.isDigit
    if ds.isEmpty then (none, cs, taken) else (some ds, r.drop ds.length, taken + 1 + ds.length)
  | _ => (none, cs, taken)

/-- The sign of an exponent, what follows it, and how many characters are read with its letter. -/
def exponentSign (cs : List Char) : Bool × List Char × Nat :=
  match cs with
  | '-' :: r => (true, r, 2)
  | '+' :: r => (false, r, 2)
  | r => (false, r, 1)

/-- The exponent whose letter stands before the text. -/
def exponentOf (cs : List Char) : Option (Int × Nat) :=
  let (negative, digits, taken) := exponentSign cs
  let ds := digits.takeWhile Char.isDigit
  if ds.isEmpty then none
  else
    let n : Nat := natOfDigits ds
    some (if negative then -(n : Int) else (n : Int), taken + ds.length)

theorem readExponent_eq (cs : List Char) :
    readExponent cs =
      match cs with
      | 'e' :: rest | 'E' :: rest => exponentOf rest
      | _ => none := rfl

theorem readNumeral_eq (cs : List Char) :
    readNumeral cs =
      let (negative, rest) := signOf cs
      let whole := wholeOf rest
      if whole.isEmpty then none
      else
        let (fraction, rest, taken) :=
          fractionOf ((if negative then 1 else 0) + whole.length) (rest.drop whole.length)
        match readExponent rest with
        | some (e, n) => some (⟨negative, whole, fraction, some e⟩, taken + n)
        | none => some (⟨negative, whole, fraction, none⟩, taken) := rfl

/-! ### No part of a number holds a carriage return -/

theorem skips_signOf (cs : List Char) :
    Skips cs (if (signOf cs).1 then 1 else 0) (signOf cs).2 := by
  unfold signOf
  split
  · exact .cons (by decide) .zero
  · exact .zero

theorem skips_wholeOf (cs : List Char) :
    Skips cs (wholeOf cs).length (cs.drop (wholeOf cs).length) := by
  unfold wholeOf
  split
  · exact .cons (by decide) .zero
  · exact .takeWhile _ rfl

theorem skips_fractionOf (taken : Nat) (cs : List Char) :
    ∃ m, (fractionOf taken cs).2.2 = taken + m ∧ Skips cs m (fractionOf taken cs).2.1 := by
  unfold fractionOf
  split
  · next r =>
      dsimp only
      split
      · exact ⟨0, rfl, .zero⟩
      · refine ⟨(r.takeWhile Char.isDigit).length + 1, ?_, .cons (by decide) (.takeWhile r rfl)⟩
        show taken + 1 + _ = _
        omega
  · exact ⟨0, rfl, .zero⟩

theorem skips_exponentSign (hc : c ≠ '\r') (cs : List Char) :
    Skips (c :: cs) (exponentSign cs).2.2 (exponentSign cs).2.1 := by
  unfold exponentSign
  split
  · exact .cons hc (.cons (by decide) .zero)
  · exact .cons hc (.cons (by decide) .zero)
  · exact .cons hc .zero

theorem skips_exponentOf (hc : c ≠ '\r') {e : Int} (h : exponentOf cs = some (e, n)) :
    ∃ rest, Skips (c :: cs) n rest := by
  unfold exponentOf at h
  dsimp only at h
  split at h
  · cases h
  · obtain ⟨-, rfl⟩ := Prod.mk.inj (Option.some.inj h)
    exact ⟨_, (skips_exponentSign hc cs).trans (.takeWhile _ rfl)⟩

theorem skips_readExponent {e : Int} (h : readExponent cs = some (e, n)) :
    ∃ rest, Skips cs n rest := by
  rw [readExponent_eq] at h
  split at h
  · exact skips_exponentOf (by decide) h
  · exact skips_exponentOf (by decide) h
  · cases h

theorem skips_readNumeral {numeral : Numeral} (h : readNumeral cs = some (numeral, n)) :
    ∃ rest, Skips cs n rest := by
  rw [readNumeral_eq] at h
  dsimp only at h
  split at h
  · cases h
  · have hwhole := (skips_signOf cs).trans (skips_wholeOf (signOf cs).2)
    obtain ⟨m, hm, hfraction⟩ := skips_fractionOf
      ((if (signOf cs).1 then 1 else 0) + (wholeOf (signOf cs).2).length)
      ((signOf cs).2.drop (wholeOf (signOf cs).2).length)
    rw [hm] at h
    split at h
    · next e k hexponent =>
        obtain ⟨-, rfl⟩ := Prod.mk.inj (Option.some.inj h)
        obtain ⟨rest, hrest⟩ := skips_readExponent hexponent
        exact ⟨rest, (hwhole.trans hfraction).trans hrest⟩
    · obtain ⟨-, rfl⟩ := Prod.mk.inj (Option.some.inj h)
      exact ⟨_, hwhole.trans hfraction⟩

/-! ### A number is the same whatever line ends come behind it -/

theorem signOf_fst_of_sameLines (h : Text.SameLines cs us) : (signOf us).1 = (signOf cs).1 := by
  cases h with
  | @char c _ _ _ _ =>
      by_cases hsign : c = '-'
      · subst hsign
        rfl
      · simp [signOf, hsign]
  | _ => rfl

theorem wholeOf_of_sameLines (h : Text.SameLines cs us) : wholeOf us = wholeOf cs := by
  have hdigits := h.takeWhile_eq (p := Char.isDigit) rfl rfl
  cases h with
  | @char c _ _ _ _ =>
      by_cases hzero : c = '0'
      · subst hzero
        rfl
      · simpa [wholeOf, hzero] using hdigits
  | _ => rfl

theorem fractionOf_point (taken : Nat) (cs : List Char) :
    fractionOf taken ('.' :: cs) =
      let ds := cs.takeWhile Char.isDigit
      if ds.isEmpty then (none, '.' :: cs, taken)
      else (some ds, cs.drop ds.length, taken + 1 + ds.length) := rfl

theorem fractionOf_of_sameLines (taken : Nat) (h : Text.SameLines cs us) :
    ∃ rest, fractionOf taken us = ((fractionOf taken cs).1, rest, (fractionOf taken cs).2.2) ∧
      Text.SameLines (fractionOf taken cs).2.1 rest := by
  cases h with
  | nil => exact ⟨_, rfl, .nil⟩
  | @char c cs us hc h =>
      by_cases hpoint : c = '.'
      · subst hpoint
        have hdigits := h.takeWhile_eq (p := Char.isDigit) rfl rfl
        rw [fractionOf_point, fractionOf_point]
        dsimp only
        rw [hdigits]
        split
        · exact ⟨_, rfl, h.char hc⟩
        · exact ⟨_, rfl, h.drop (Skips.takeWhile cs rfl).plain⟩
      · simp [fractionOf, hpoint, h.char hc]
  | carriage h => exact ⟨_, rfl, h.carriage⟩
  | pair h => exact ⟨_, rfl, h.pair⟩

theorem exponentSign_of_sameLines (h : Text.SameLines cs us) :
    ∃ rest, exponentSign us = ((exponentSign cs).1, rest, (exponentSign cs).2.2) ∧
      Text.SameLines (exponentSign cs).2.1 rest := by
  cases h with
  | nil => exact ⟨_, rfl, .nil⟩
  | @char c cs us hc h =>
      by_cases hminus : c = '-'
      · subst hminus
        exact ⟨_, rfl, h⟩
      · by_cases hplus : c = '+'
        · subst hplus
          exact ⟨_, rfl, h⟩
        · simp [exponentSign, hminus, hplus, h.char hc]
  | carriage h => exact ⟨_, rfl, h.carriage⟩
  | pair h => exact ⟨_, rfl, h.pair⟩

theorem readExponent_of_sameLines (h : Text.SameLines cs us) :
    readExponent us = readExponent cs := by
  have hexponent : ∀ {cs us}, Text.SameLines cs us → exponentOf us = exponentOf cs := by
    intro cs us h
    obtain ⟨rest, hsign, hrest⟩ := exponentSign_of_sameLines h
    unfold exponentOf
    rw [hsign]
    dsimp only
    rw [hrest.takeWhile_eq rfl rfl]
  rw [readExponent_eq, readExponent_eq]
  cases h with
  | @char c _ _ _ h =>
      by_cases hlower : c = 'e'
      · subst hlower
        exact hexponent h
      · by_cases hupper : c = 'E'
        · subst hupper
          exact hexponent h
        · simp [hlower, hupper]
  | _ => rfl

theorem readNumeral_of_sameLines (h : Text.SameLines cs us) : readNumeral us = readNumeral cs := by
  -- part by part: up to the end of each, the texts are the same
  have hsign := signOf_fst_of_sameLines h
  have hrest : Text.SameLines (signOf cs).2 (signOf us).2 :=
    (skips_signOf cs).sameLines (hsign ▸ skips_signOf us) h
  have hwhole := wholeOf_of_sameLines hrest
  rw [readNumeral_eq, readNumeral_eq]
  dsimp only
  rw [hsign, hwhole]
  obtain ⟨rest, hfraction, hlast⟩ := fractionOf_of_sameLines
    ((if (signOf cs).1 then 1 else 0) + (wholeOf (signOf cs).2).length)
    (hrest.drop (skips_wholeOf (signOf cs).2).plain)
  rw [hfraction]
  dsimp only
  rw [readExponent_of_sameLines hlast]

/-! ## Texts -/

/-- The digits of a unit are no carriage returns. -/
theorem not_mem_of_unitOf? {a b c d : Char} (h : unitOf? a b c d = some n) :
    '\r' ∉ [a, b, c, d] := by
  have hcarriage : hexValue? '\r' = none := by decide
  simp only [unitOf?, Option.bind_eq_bind, Option.bind_eq_some_iff] at h
  obtain ⟨_, ha, _, hb, _, hc, _, hd, -⟩ := h
  simp only [List.mem_cons, List.not_mem_nil, or_false]
  rintro (rfl | rfl | rfl | rfl)
  · cases hcarriage.symm.trans ha
  · cases hcarriage.symm.trans hb
  · cases hcarriage.symm.trans hc
  · cases hcarriage.symm.trans hd

section Units

variable {a b c d e f g k x : Char} {xs : List Char}

theorem exists_unit_of_escapeOf {pos : Nat} {r : Nat × Nat} (h : escapeOf pos 'u' cs = .ok r) :
    ∃ a b c d x xs n, cs = a :: b :: c :: d :: x :: xs ∧ unitOf? a b c d = some n := by
  unfold escapeOf at h
  rw [if_neg (by decide)] at h
  split at h
  · next a b c d x xs =>
      split at h
      · cases h
      · next n hunit => exact ⟨a, b, c, d, x, xs, n, rfl, hunit⟩
  · cases h

/-- What follows the first unit of a pair is no escape of a unit. -/
theorem escapeOf_alone (hunit : unitOf? a b c d = some n)
    (halone : ∀ e f g k y ys, x :: xs ≠ '\\' :: 'u' :: e :: f :: g :: k :: y :: ys) (pos : Nat) :
    escapeOf pos 'u' (a :: b :: c :: d :: x :: xs) = .ok (n, 5) := by
  unfold escapeOf
  rw [if_neg (by decide)]
  dsimp only
  rw [hunit]
  dsimp only
  split
  · split
    · next heq _ => exact absurd heq (halone _ _ _ _ _ _)
    · rfl
  · rfl

end Units

/-- Line ends that are read as one character do not make the escape of a unit. -/
theorem exists_paired_of_sameLines {e f g k z : Char} {zs : List Char}
    (h : Text.SameLines cs ('\\' :: 'u' :: e :: f :: g :: k :: z :: zs)) :
    ∃ e' f' g' k' z' zs', cs = '\\' :: 'u' :: e' :: f' :: g' :: k' :: z' :: zs' := by
  obtain ⟨cs₁, rfl, h₁⟩ := h.exists_of_cons (by decide)
  obtain ⟨cs₂, rfl, h₂⟩ := h₁.exists_of_cons (by decide)
  have hlength := h₂.length_le
  match cs₂, hlength with
  | e' :: f' :: g' :: k' :: z' :: zs', _ => exact ⟨e', f', g', k', z', zs', rfl⟩

/-- The escape of a unit that is the first of a pair. -/
theorem escapeOf_high_of_sameLines {a b d x y : Char} {xs ys : List Char}
    (h : Text.SameLines (x :: xs) (y :: ys)) (hunit : unitOf? a b c d = some m)
    (hhigh : isHighUnit m = true) {pos taken : Nat} (pos' : Nat)
    (hescape : escapeOf pos 'u' (a :: b :: c :: d :: x :: xs) = .ok (n, taken)) :
    escapeOf pos' 'u' (a :: b :: c :: d :: y :: ys) = .ok (n, taken) ∧
      '\r' ∉ (a :: b :: c :: d :: x :: xs).take (taken - 1) := by
  have hplain := not_mem_of_unitOf? hunit
  by_cases hpaired : ∃ e f g k z zs, x :: xs = '\\' :: 'u' :: e :: f :: g :: k :: z :: zs
  · obtain ⟨e, f, g, k, z, zs, heq⟩ := hpaired
    rw [heq] at h hescape ⊢
    rw [escapeOf_paired hunit hhigh] at hescape
    split at hescape
    · cases hescape
    · next l hunit' =>
        have hplain' := not_mem_of_unitOf? hunit'
        have hboth : '\r' ∉ ['\\', 'u'] ++ [e, f, g, k] := by
          rw [List.mem_append, not_or]
          exact ⟨by decide, hplain'⟩
        obtain ⟨vs, hvs, hlast⟩ := h.exists_append hboth
        obtain ⟨v, vs, rfl⟩ := hlast.exists_eq_cons
        rw [hvs]
        constructor
        · exact (escapeOf_paired hunit hhigh pos').trans (by rw [hunit', ← hescape])
        · -- behind both units, or behind the first
          split at hescape
          · obtain ⟨-, rfl⟩ := Prod.mk.inj (Except.ok.inj hescape)
            show '\r' ∉ [a, b, c, d] ++ (['\\', 'u'] ++ [e, f, g, k])
            rw [List.mem_append, not_or]
            exact ⟨hplain, hboth⟩
          · obtain ⟨-, rfl⟩ := Prod.mk.inj (Except.ok.inj hescape)
            exact hplain
  · -- the text that is like this one has no second unit either
    have halone : ∀ e f g k z zs, y :: ys ≠ '\\' :: 'u' :: e :: f :: g :: k :: z :: zs := by
      intro e f g k z zs heq
      exact hpaired (exists_paired_of_sameLines (heq ▸ h))
    have halone' : ∀ e f g k z zs, x :: xs ≠ '\\' :: 'u' :: e :: f :: g :: k :: z :: zs :=
      fun e f g k z zs heq => hpaired ⟨e, f, g, k, z, zs, heq⟩
    rw [escapeOf_alone hunit halone'] at hescape
    obtain ⟨rfl, rfl⟩ := Prod.mk.inj (Except.ok.inj hescape)
    exact ⟨escapeOf_alone hunit halone pos', hplain⟩

/-- No escape starts with a carriage return. -/
theorem ne_of_escapeOf {pos taken : Nat} (hescape : escapeOf pos c cs = .ok (n, taken)) :
    c ≠ '\r' := by
  rintro rfl
  rw [escapeOf_of_ne (by decide)] at hescape
  cases hescape

/-- An escape that has a meaning has the same one whatever line ends come behind it. -/
theorem escapeOf_of_sameLines (h : Text.SameLines cs us) {pos taken : Nat} (pos' : Nat)
    (hescape : escapeOf pos c cs = .ok (n, taken)) :
    escapeOf pos' c us = .ok (n, taken) ∧ '\r' ∉ cs.take (taken - 1) := by
  by_cases hletter : (c != 'u') = true
  · -- a letter names the character
    rw [escapeOf_of_ne hletter] at hescape ⊢
    split at hescape
    · obtain ⟨rfl, rfl⟩ := Prod.mk.inj (Except.ok.inj hescape)
      exact ⟨rfl, List.not_mem_nil⟩
    · cases hescape
  · obtain rfl : c = 'u' := by simpa using hletter
    obtain ⟨a, b, c, d, x, xs, m, rfl, hunit⟩ := exists_unit_of_escapeOf hescape
    have hplain := not_mem_of_unitOf? hunit
    obtain ⟨us, rfl, htail⟩ := h.exists_append (w := [a, b, c, d]) hplain
    obtain ⟨y, ys, rfl⟩ := htail.exists_eq_cons
    cases hhigh : isHighUnit m with
    | true => exact escapeOf_high_of_sameLines htail hunit hhigh pos' hescape
    | false =>
        rw [escapeOf_unpaired hunit hhigh] at hescape
        obtain ⟨rfl, rfl⟩ := Prod.mk.inj (Except.ok.inj hescape)
        exact ⟨escapeOf_unpaired hunit hhigh pos', hplain⟩

/-- A text has no raw line ends in it, so it is the same whatever line ends come behind it. -/
theorem readCodes_of_sameLines {start pos : Nat} {done codes : List Nat} {next : Cursor}
    (h : Text.SameLines cs us) (hread : readCodes start pos done cs = .ok (codes, next))
    (start' pos' : Nat) :
    ∃ next', readCodes start' pos' done us = .ok (codes, next') ∧
      Text.SameLines next.rest next'.rest ∧ next'.rest.length ≤ us.length := by
  fun_induction readCodes start pos done cs generalizing us start' pos' with
  | case1 => cases hread
  | case2 pos done rest =>
      -- the closing quote
      obtain ⟨us', rfl, hrest⟩ := h.exists_cons (by decide)
      cases hread
      exact ⟨_, readCodes_quote start' pos' done us', hrest, Nat.le_succ _⟩
  | case3 => cases hread
  | case4 => cases hread
  | case5 pos done e after n taken hescape _ ih =>
      -- an escape, which holds no carriage return
      obtain ⟨us₁, rfl, h₁⟩ := h.exists_cons (by decide)
      obtain ⟨us₂, rfl, h₂⟩ := h₁.exists_cons (ne_of_escapeOf hescape)
      obtain ⟨hescape', hplain⟩ := escapeOf_of_sameLines h₂ pos' hescape
      obtain ⟨next', hread', hnext, hlength⟩ := ih (h₂.drop hplain) hread start' (pos' + 1 + taken)
      refine ⟨next', (readCodes_slash hescape').trans hread', hnext, hlength.trans ?_⟩
      simp only [List.length_drop, List.length_cons]
      omega
  | case6 => cases hread
  | case7 pos done c rest hquote hslash hcontrol ih =>
      -- a carriage return is a control character
      have hc : c ≠ '\r' := by
        rintro rfl
        exact hcontrol (by decide)
      obtain ⟨us', rfl, hrest⟩ := h.exists_cons hc
      obtain ⟨next', hread', hnext, hlength⟩ := ih hrest hread start' (pos' + 1)
      exact ⟨next', (readCodes_char hquote hslash hcontrol).trans hread', hnext,
        Nat.le_succ_of_le hlength⟩

end Parts

end Json

end TabCompletion
