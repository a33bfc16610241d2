import Mathlib.Data.List.TakeWhile
import TabCompletion.Report.Markup

/-!
# Parts of a text with markup

A text with markup falls into plain parts and tags. `Markup.FirstTag` finds its first tag, and what
`Markup.pieces` makes of the text is put together from that and from the parts of what follows it
(`pieces_of_firstTag`). This gives an induction over the tags of a text (`tagInduction`). Two
things follow from it. The brackets and backslashes that are seen of a text tell how many tags it
has and how many brackets are escaped (`tally_pieces`), so that none of them can be there unnoticed.
And a text in which nothing is read as markup (`IsLiteral`) is seen as it is, also inside a style
(`visible_styled`, `visible_headed`).
-/

namespace TabCompletion.Markup

/-! ## Tags -/

/-- The text may stand between the brackets of a tag. -/
def IsInside (inside : List Char) : Prop :=
  inside.head?.any startsTag = true ∧ '[' ∉ inside ∧ ']' ∉ inside

instance (inside : List Char) : Decidable (IsInside inside) := inferInstanceAs (Decidable (_ ∧ _))

variable {cs inside rest : List Char}

theorem drop_length_takeWhile (p : Char → Bool) (cs : List Char) :
    cs.drop (cs.takeWhile p).length = cs.dropWhile p := by
  have hdrop := @List.drop_left _ (cs.takeWhile p) (cs.dropWhile p)
  rwa [List.takeWhile_append_dropWhile] at hdrop

theorem tagInside?_eq_some_iff :
    tagInside? cs = some (inside, rest) ↔ IsInside inside ∧ cs = inside ++ ']' :: rest := by
  constructor
  · intro h
    cases cs with
    | nil => cases h
    | cons c cs =>
        simp only [tagInside?, drop_length_takeWhile] at h
        split at h
        · next rest' hrest =>
            split at h
            · next hstarts =>
                cases h
                have hkept : ∀ x ∈ cs.takeWhile fun x => x != '[' && x != ']',
                    x ≠ '[' ∧ x ≠ ']' := by
                  intro x hx
                  simpa using List.mem_takeWhile_imp hx
                -- the first character is not looked at for brackets, but no tag starts with one
                have hfirst : c ≠ '[' ∧ c ≠ ']' := by
                  constructor <;> rintro rfl <;> exact absurd hstarts (by decide)
                refine ⟨⟨hstarts, ?_, ?_⟩, ?_⟩
                · rw [List.mem_cons, not_or]
                  exact ⟨Ne.symm hfirst.1, fun hmem => (hkept _ hmem).1 rfl⟩
                · rw [List.mem_cons, not_or]
                  exact ⟨Ne.symm hfirst.2, fun hmem => (hkept _ hmem).2 rfl⟩
                · rw [List.cons_append, ← hrest, List.takeWhile_append_dropWhile]
            · cases h
        · cases h
  · rintro ⟨⟨hstarts, hopening, hclosing⟩, rfl⟩
    cases inside with
    | nil => cases hstarts
    | cons c inside =>
        rw [List.mem_cons, not_or] at hopening hclosing
        have hkept : ∀ x ∈ inside, (x != '[' && x != ']') = true := by
          intro x hx
          rw [Bool.and_eq_true, bne_iff_ne, bne_iff_ne]
          exact ⟨ne_of_mem_of_not_mem hx hopening.2, ne_of_mem_of_not_mem hx hclosing.2⟩
        have htake : (inside ++ ']' :: rest).takeWhile (fun x => x != '[' && x != ']') =
            inside := by
          rw [List.takeWhile_append_of_pos hkept]
          simp
        have hstarts' : startsTag c = true := hstarts
        simp only [tagInside?, List.cons_append, htake, List.drop_left, hstarts', if_true]

/-- A tag starts the text. -/
def startsWithTag : List Char → Bool
  | '[' :: cs => (tagInside? cs).isSome
  | _ => false

theorem startsWithTag_iff :
    startsWithTag cs = true ↔
      ∃ inside rest, IsInside inside ∧ cs = '[' :: (inside ++ ']' :: rest) := by
  unfold startsWithTag
  split
  · rw [Option.isSome_iff_exists]
    simp only [Prod.exists, tagInside?_eq_some_iff, List.cons.injEq, true_and]
  · next hcs =>
      refine iff_of_false Bool.false_ne_true ?_
      rintro ⟨inside, rest, -, rfl⟩
      exact hcs _ rfl

theorem tagInside?_eq_none_iff : tagInside? cs = none ↔ startsWithTag ('[' :: cs) = false := by
  rw [startsWithTag, Option.isSome_eq_false_iff, Option.isNone_iff_eq_none]

/-- What follows with a bracket of its own does not make a tag of what is before it. -/
theorem startsWithTag_append {c : Char} (cs after : List Char) :
    startsWithTag (c :: cs ++ '[' :: after) = startsWithTag (c :: cs) := by
  rw [Bool.eq_iff_iff, startsWithTag_iff, startsWithTag_iff]
  constructor
  · rintro ⟨inside, rest, hinside, heq⟩
    rw [List.cons_append, List.cons.injEq] at heq
    obtain ⟨rfl, heq⟩ := heq
    rcases List.append_eq_append_iff.1 heq with ⟨a, hinside', hafter⟩ | ⟨a, hcs, hafter⟩
    · -- the bracket would be inside the tag
      cases a with
      | nil => cases hafter
      | cons x a =>
          obtain ⟨rfl, -⟩ := List.cons.inj hafter
          refine absurd ?_ hinside.2.1
          rw [hinside']
          simp
    · cases a with
      | nil => cases hafter
      | cons x a =>
          obtain ⟨rfl, -⟩ := List.cons.inj hafter
          exact ⟨inside, a, hinside, by rw [hcs]⟩
  · rintro ⟨inside, rest, hinside, heq⟩
    refine ⟨inside, rest ++ '[' :: after, hinside, ?_⟩
    rw [heq, List.cons_append, List.append_assoc, List.cons_append]

/-! ## Places in a text -/

/-- At how many places of the text the rest of it is of one kind. -/
def places (p : List Char → Bool) : List Char → Nat
  | [] => 0
  | c :: cs => places p cs + if p (c :: cs) then 1 else 0

/-- The tags of the text, be they escaped or not. -/
def tags : List Char → Nat := places startsWithTag

/-- The brackets of the text that stand behind a backslash. -/
def escapes : List Char → Nat := places (['\\', '['].isPrefixOf ·)

variable {p : List Char → Bool} {before after : List Char}

/-- The places in two texts are those in both together, if the second one changes nothing in the
first. -/
theorem places_append (h : ∀ c cs, c :: cs <:+ before → p (c :: cs ++ after) = p (c :: cs)) :
    places p (before ++ after) = places p before + places p after := by
  induction before with
  | nil => simp [places]
  | cons c before ih =>
      have hrest : ∀ c' cs, c' :: cs <:+ before → p (c' :: cs ++ after) = p (c' :: cs) :=
        fun c' cs hcs => h c' cs (hcs.trans (List.suffix_cons c before))
      rw [List.cons_append, places, places, ih hrest, ← List.cons_append,
        h c before (List.suffix_refl _)]
      omega

theorem places_eq_zero_iff :
    places p cs = 0 ↔ ∀ c rest, c :: rest <:+ cs → p (c :: rest) = false := by
  induction cs with
  | nil => simp [places]
  | cons c cs ih =>
      rw [places, Nat.add_eq_zero_iff, ih]
      constructor
      · rintro ⟨hrest, hfirst⟩ c' rest hsuffix
        rcases List.suffix_cons_iff.1 hsuffix with heq | hsuffix
        · rw [heq]
          simpa using hfirst
        · exact hrest c' rest hsuffix
      · intro h
        refine ⟨fun c' rest hsuffix => h c' rest (hsuffix.trans (List.suffix_cons c cs)), ?_⟩
        rw [h c cs (List.suffix_refl _)]
        rfl

/-- A text has no tags if nothing in brackets can be one. -/
theorem tags_eq_zero_iff :
    tags cs = 0 ↔ ∀ inside, IsInside inside → ¬ '[' :: (inside ++ [']']) <:+: cs := by
  rw [tags, places_eq_zero_iff]
  constructor
  · intro h inside hinside hpart
    obtain ⟨t, ⟨rest, rfl⟩, hsuffix⟩ := List.infix_iff_prefix_suffix.1 hpart
    have hfalse := h _ _ hsuffix
    rw [startsWithTag_iff.2 ⟨inside, rest, hinside, by simp⟩] at hfalse
    cases hfalse
  · intro h c rest hsuffix
    rw [Bool.eq_false_iff, ne_eq, startsWithTag_iff]
    rintro ⟨inside, after, hinside, heq⟩
    refine h inside hinside (List.infix_iff_prefix_suffix.2 ⟨_, ?_, hsuffix⟩)
    rw [heq]
    exact ⟨after, by simp⟩

theorem escapes_eq_zero_iff : escapes cs = 0 ↔ ¬ ['\\', '['] <:+: cs := by
  rw [escapes, places_eq_zero_iff, List.infix_iff_prefix_suffix]
  constructor
  · rintro h ⟨t, ⟨rest, rfl⟩, hsuffix⟩
    cases h _ _ hsuffix
  · intro h c rest hsuffix
    rw [Bool.eq_false_iff]
    exact fun hbegins => h ⟨_, List.isPrefixOf_iff_prefix.1 hbegins, hsuffix⟩

theorem tags_cons (c : Char) (cs : List Char) :
    tags (c :: cs) = tags cs + if startsWithTag (c :: cs) then 1 else 0 := rfl

theorem tags_cons_of_not {c : Char} (h : startsWithTag (c :: cs) = false) :
    tags (c :: cs) = tags cs := by
  rw [tags_cons, h]
  rfl

theorem tags_tail_eq_zero {c : Char} (h : tags (c :: cs) = 0) : tags cs = 0 := by
  rw [tags_cons, Nat.add_eq_zero_iff] at h
  exact h.1

theorem tags_append_bracket (before after : List Char) :
    tags (before ++ '[' :: after) = tags before + tags ('[' :: after) :=
  places_append fun _ cs _ => startsWithTag_append cs after

/-! ## The first tag -/

/-- The first tag of a text: its inside, the backslashes in front of it, what stands before these
and what follows the tag. -/
structure FirstTag (cs before : List Char) (slashes : Nat) (inside after : List Char) : Prop where
  eq : cs = before ++ (List.replicate slashes '\\' ++ '[' :: (inside ++ ']' :: after))
  untagged : tags (before ++ List.replicate slashes '\\') = 0
  unslashed : before.getLast? ≠ some '\\'
  isInside : IsInside inside

variable {slashes : Nat}

theorem untagged_or_firstTag (cs : List Char) :
    tags cs = 0 ∨ ∃ before slashes inside after, FirstTag cs before slashes inside after := by
  induction cs with
  | nil => exact .inl rfl
  | cons c cs ih =>
      by_cases hstart : startsWithTag (c :: cs) = true
      · obtain ⟨inside, after, hinside, heq⟩ := startsWithTag_iff.1 hstart
        exact .inr ⟨[], 0, inside, after, heq, rfl, nofun, hinside⟩
      · rw [Bool.not_eq_true] at hstart
        rcases ih with huntagged | ⟨before, slashes, inside, after, rfl, huntagged, hlast, hinside⟩
        · exact .inl ((tags_cons_of_not hstart).trans huntagged)
        · rw [← List.append_assoc, ← List.cons_append, startsWithTag_append] at hstart
          have hnone := (tags_cons_of_not hstart).trans huntagged
          by_cases hslash : before = [] ∧ c = '\\'
          · -- one backslash more
            obtain ⟨rfl, rfl⟩ := hslash
            exact .inr ⟨[], slashes + 1, inside, after, rfl, hnone, nofun, hinside⟩
          · refine .inr ⟨c :: before, slashes, inside, after, rfl, hnone, ?_, hinside⟩
            cases before with
            | nil => simpa using hslash
            | cons b before => rwa [List.getLast?_cons_cons]

namespace FirstTag

/-- One character less before the first tag. -/
theorem tail {b : Char} (h : FirstTag cs (b :: before) slashes inside after) :
    ∃ cs', cs = b :: cs' ∧ FirstTag cs' before slashes inside after := by
  obtain ⟨rfl, huntagged, hlast, hinside⟩ := h
  refine ⟨_, rfl, rfl, tags_tail_eq_zero huntagged, ?_, hinside⟩
  cases before with
  | nil => nofun
  | cons b' before => rwa [List.getLast?_cons_cons] at hlast

/-- If something stands before the first tag, then no tag starts behind the backslashes at the start
of the text. -/
theorem tagInside?_eq_none {b : Char} (h : FirstTag cs (b :: before) slashes inside after)
    (hdrop : cs.dropWhile (· = '\\') = '[' :: rest) : tagInside? rest = none := by
  obtain ⟨rfl, huntagged, hlast, -⟩ := h
  rw [List.dropWhile_append] at hdrop
  cases hkept : (b :: before).dropWhile (· = '\\') with
  | nil =>
      -- the last character before the tag is no backslash
      rw [List.dropWhile_eq_nil_iff] at hkept
      have hslash := hkept _ (List.getLast_mem (List.cons_ne_nil b before))
      refine absurd ?_ hlast
      rw [List.getLast?_eq_some_getLast (List.cons_ne_nil b before), of_decide_eq_true hslash]
  | cons x kept =>
      rw [hkept, List.isEmpty_cons, if_neg Bool.false_ne_true, List.cons_append] at hdrop
      obtain ⟨rfl, rfl⟩ := List.cons.inj hdrop
      obtain ⟨first, hfirst⟩ := List.dropWhile_suffix (l := b :: before) (· = '\\')
      have hsuffix : '[' :: (kept ++ List.replicate slashes '\\') <:+
          b :: before ++ List.replicate slashes '\\' := by
        refine ⟨first, ?_⟩
        rw [← hfirst, hkept, List.append_assoc, List.cons_append]
      have hfalse := places_eq_zero_iff.1 huntagged _ _ hsuffix
      rw [tagInside?_eq_none_iff, ← hfalse, ← List.append_assoc]
      exact startsWithTag_append _ _

theorem length_lt (h : FirstTag cs before slashes inside after) :
    before.length + 1 + after.length < cs.length := by
  rw [h.eq]
  simp only [List.length_append, List.length_cons]
  omega

end FirstTag

/-! ## Parts -/

/-- The part that a tag becomes behind some backslashes. -/
def mark (slashes : Nat) (inside : List Char) : Piece :=
  if slashes % 2 = 0 then .tag inside else .plain ('[' :: inside ++ [']'])

variable {pending : List Char} {fuel : Nat}

/-- Where no tag starts behind backslashes, a character is left pending. -/
theorem piecesFrom_cons {c : Char} {cs : List Char}
    (h : ∀ rest, (c :: cs).dropWhile (· = '\\') = '[' :: rest → tagInside? rest = none) :
    piecesFrom (fuel + 1) pending (c :: cs) = piecesFrom fuel (pending ++ [c]) cs := by
  rw [piecesFrom]
  dsimp only
  rw [drop_length_takeWhile]
  split
  · next rest hrest => rw [h rest hrest]
  · rfl

theorem piecesFrom_of_untagged (fuel : Nat) (pending : List Char) (h : tags cs = 0) :
    piecesFrom fuel pending cs = [.plain (pending ++ cs)] := by
  induction cs generalizing fuel pending with
  | nil => cases fuel <;> simp [piecesFrom]
  | cons c cs ih =>
      cases fuel with
      | zero => rfl
      | succ fuel =>
          rw [piecesFrom_cons, ih _ _ (tags_tail_eq_zero h), List.append_assoc]
          · rfl
          · intro rest hdrop
            refine tagInside?_eq_none_iff.2 (places_eq_zero_iff.1 h _ _ ?_)
            rw [← hdrop]
            exact List.dropWhile_suffix _

/-- A text that starts with the backslashes of its first tag falls into the parts that the tag
becomes, and those behind it. -/
theorem piecesFrom_mark (hinside : IsInside inside) (slashes fuel : Nat)
    (pending after : List Char) :
    piecesFrom (fuel + 1) pending
        (List.replicate slashes '\\' ++ '[' :: (inside ++ ']' :: after)) =
      .plain pending :: .plain (List.replicate (slashes / 2) '\\') :: mark slashes inside ::
        piecesFrom fuel [] after := by
  have hslash : ∀ c ∈ List.replicate slashes '\\', decide (c = '\\') = true := by
    intro c hc
    rw [List.eq_of_mem_replicate hc]
    rfl
  have htake : (List.replicate slashes '\\' ++ '[' :: (inside ++ ']' :: after)).takeWhile
      (· = '\\') = List.replicate slashes '\\' := by
    rw [List.takeWhile_append_of_pos hslash]
    simp
  have hdrop : (List.replicate slashes '\\' ++ '[' :: (inside ++ ']' :: after)).drop slashes =
      '[' :: (inside ++ ']' :: after) := List.drop_left' List.length_replicate
  obtain ⟨c, cs, hcs⟩ : ∃ c cs,
      List.replicate slashes '\\' ++ '[' :: (inside ++ ']' :: after) = c :: cs :=
    List.exists_cons_of_ne_nil (by simp)
  rw [hcs] at htake hdrop ⊢
  have htag : tagInside? (inside ++ ']' :: after) = some (inside, after) :=
    tagInside?_eq_some_iff.2 ⟨hinside, rfl⟩
  simp only [piecesFrom, htake, List.length_replicate, hdrop, htag, mark]
  split <;> rfl

theorem piecesFrom_firstTag (h : FirstTag cs before slashes inside after) (pending : List Char)
    (hfuel : before.length < fuel) :
    piecesFrom fuel pending cs =
      .plain (pending ++ before) :: .plain (List.replicate (slashes / 2) '\\') ::
        mark slashes inside :: piecesFrom (fuel - before.length - 1) [] after := by
  obtain ⟨fuel, rfl⟩ : ∃ n, fuel = n + 1 := Nat.exists_eq_add_one_of_ne_zero (by omega)
  induction before generalizing cs fuel pending with
  | nil =>
      rw [h.eq, List.nil_append, piecesFrom_mark h.isInside, List.append_nil]
      rfl
  | cons b before ih =>
      obtain ⟨cs, rfl, htail⟩ := h.tail
      rw [List.length_cons, Nat.add_lt_add_iff_right] at hfuel
      obtain ⟨fuel, rfl⟩ : ∃ n, fuel = n + 1 := Nat.exists_eq_add_one_of_ne_zero (by omega)
      rw [piecesFrom_cons fun rest => h.tagInside?_eq_none, ih htail _ _ hfuel, List.append_assoc,
        List.length_cons, Nat.add_sub_add_right]
      rfl

/-- What holds of texts without tags, and of a text if it holds of what follows its first tag, holds
of all texts. -/
@[elab_as_elim]
theorem tagInduction {motive : List Char → Prop} (untagged : ∀ cs, tags cs = 0 → motive cs)
    (tagged : ∀ {cs before slashes inside after}, FirstTag cs before slashes inside after →
      motive after → motive cs) (cs : List Char) : motive cs := by
  induction hn : cs.length using Nat.strong_induction_on generalizing cs with
  | _ n ih =>
      rcases untagged_or_firstTag cs with h | ⟨before, slashes, inside, after, h⟩
      · exact untagged cs h
      · have hlength := h.length_lt
        exact tagged h (ih after.length (by omega) after rfl)

/-- It does not matter how many parts may be made, if they may be more than there are characters. -/
theorem piecesFrom_congr {fuel' : Nat} (hfuel : cs.length < fuel) (hfuel' : cs.length < fuel')
    (pending : List Char) : piecesFrom fuel pending cs = piecesFrom fuel' pending cs := by
  induction cs using tagInduction generalizing fuel fuel' pending with
  | untagged cs h => rw [piecesFrom_of_untagged _ _ h, piecesFrom_of_untagged _ _ h]
  | @tagged cs before slashes inside after h ih =>
      have hlength := h.length_lt
      rw [piecesFrom_firstTag h _ (by omega), piecesFrom_firstTag h _ (by omega)]
      rw [@ih (fuel - before.length - 1) (fuel' - before.length - 1) (by omega) (by omega)]

theorem pieces_of_untagged (h : tags cs = 0) : pieces cs = [.plain cs] :=
  piecesFrom_of_untagged _ [] h

theorem pieces_of_firstTag (h : FirstTag cs before slashes inside after) :
    pieces cs = .plain before :: .plain (List.replicate (slashes / 2) '\\') ::
      mark slashes inside :: pieces after := by
  have hlength := h.length_lt
  rw [pieces, piecesFrom_firstTag h [] (by omega), List.nil_append, pieces,
    piecesFrom_congr (by omega) (Nat.lt_succ_self after.length)]

/-! ## What is seen of the parts -/

theorem escapes_cons (c : Char) (cs : List Char) :
    escapes (c :: cs) = escapes cs + if c = '\\' ∧ cs.head? = some '[' then 1 else 0 := by
  have hbegins : ['\\', '['].isPrefixOf (c :: cs) = true ↔ c = '\\' ∧ cs.head? = some '[' := by
    cases cs with
    | nil => simp [List.isPrefixOf]
    | cons c' cs =>
        rw [List.isPrefixOf_iff_prefix, List.cons_prefix_cons, List.cons_prefix_cons]
        simp only [List.nil_prefix, and_true, List.head?_cons, Option.some.injEq]
        exact and_congr eq_comm eq_comm
  rw [escapes, places, ← escapes]
  simp only [hbegins]

theorem escapes_append (h : before.getLast? = some '\\' → after.head? ≠ some '[') :
    escapes (before ++ after) = escapes before + escapes after := by
  induction before with
  | nil => exact (Nat.zero_add _).symm
  | cons c before ih =>
      cases before with
      | nil =>
          rw [List.singleton_append, escapes_cons, escapes_cons, if_neg]
          · simp [escapes, places]
          · rintro ⟨rfl, hhead⟩
            exact h rfl hhead
      | cons c' before =>
          rw [List.getLast?_cons_cons] at h
          rw [List.cons_append, escapes_cons, ih h, escapes_cons c]
          exact Nat.add_right_comm _ _ _

theorem count_unescape (cs : List Char) :
    (unescape cs).count '[' = cs.count '[' ∧
      (unescape cs).count '\\' + escapes cs = cs.count '\\' := by
  fun_induction unescape cs with
  | case1 => exact ⟨rfl, rfl⟩
  | case2 cs ih =>
      obtain ⟨hbrackets, hslashes⟩ := ih
      rw [escapes_cons, escapes_cons]
      simp [hbrackets]
      omega
  | case3 c cs hescape ih =>
      obtain ⟨hbrackets, hslashes⟩ := ih
      rw [escapes_cons, if_neg]
      · rw [List.count_cons, List.count_cons, List.count_cons, List.count_cons, hbrackets,
          ← hslashes]
        exact ⟨rfl, Nat.add_right_comm _ _ _⟩
      · rintro ⟨rfl, hhead⟩
        obtain ⟨rest, hrest⟩ := List.head?_eq_some_iff.1 hhead
        exact hescape rest rfl hrest

theorem unescape_eq_self (h : escapes cs = 0) : unescape cs = cs := by
  fun_induction unescape cs with
  | case1 => rfl
  | case2 cs ih =>
      rw [escapes_cons] at h
      cases h
  | case3 c cs hescape ih =>
      rw [escapes_cons, Nat.add_eq_zero_iff] at h
      rw [ih h.1]

/-- The part is a tag. -/
def isTag : Piece → Bool
  | .plain _ => false
  | .tag _ => true

/-- What is seen of a part. -/
def Renderer.shownOf (r : Renderer) : Piece → List Char
  | .plain text => r.shown text
  | .tag _ => []

@[simp]
theorem Renderer.shownOf_plain (r : Renderer) (text : List Char) :
    r.shownOf (.plain text) = r.shown text := rfl

/-- What is known of the pictures of a renderer. A code stands between two colons, and neither in
codes nor in pictures are there brackets or backslashes. -/
structure Renderer.IsSound (r : Renderer) : Prop where
  between : ∀ cs, cs.count ':' < 2 → r.picture cs = cs
  brackets : ∀ cs, (r.picture cs).count '[' = cs.count '['
  slashes : ∀ cs, (r.picture cs).count '\\' = cs.count '\\'

/-- A renderer without pictures. -/
theorem Renderer.isSound_of_picture_eq_id {r : Renderer} (h : r.picture = id) : r.IsSound := by
  constructor <;> intros <;> rw [h, id]

variable {r : Renderer} {opened opened' : List Opened}

theorem visiblePieces_eq_ok {ps : List Piece} {out : List Char}
    (h : r.visiblePieces opened ps = .ok out) : out = ps.flatMap r.shownOf := by
  induction ps generalizing opened out with
  | nil =>
      cases h
      rfl
  | cons piece ps ih =>
      cases piece with
      | plain text =>
          rw [Renderer.visiblePieces] at h
          cases hrest : r.visiblePieces opened ps with
          | error fault =>
              rw [hrest] at h
              cases h
          | ok rest =>
              rw [hrest] at h
              cases h
              rw [List.flatMap_cons, ← ih hrest, Renderer.shownOf]
      | tag inside =>
          rw [Renderer.visiblePieces] at h
          split at h
          · exact ih h
          · cases h

/-- A plain part keeps its brackets, and loses a backslash for each of them behind one. -/
theorem Renderer.IsSound.count_shown (hr : r.IsSound) (text : List Char) :
    (r.shown text).count '[' = text.count '[' ∧
      (r.shown text).count '\\' + escapes text = text.count '\\' := by
  have hbracket : (r.shown text).count '[' = (unescape text).count '[' :=
    (List.count_filter (by decide)).trans (hr.brackets _)
  have hslash : (r.shown text).count '\\' = (unescape text).count '\\' :=
    (List.count_filter (by decide)).trans (hr.slashes _)
  rw [hbracket, hslash]
  exact count_unescape text

theorem escapes_of_notMem (h : '[' ∉ cs) : escapes cs = 0 := by
  rw [escapes_eq_zero_iff]
  exact fun hpart => h (hpart.subset (by simp))

theorem escapes_slashes (slashes : Nat) (cs : List Char) :
    escapes (List.replicate slashes '\\' ++ '[' :: cs) = min slashes 1 + escapes cs := by
  induction slashes with
  | zero =>
      rw [List.replicate_zero, List.nil_append, escapes_cons, if_neg nofun]
      omega
  | succ slashes ih =>
      rw [List.replicate_succ, List.cons_append, escapes_cons, ih]
      cases slashes with
      | zero => simp [Nat.add_comm]
      | succ slashes => simp [List.replicate_succ]

theorem tags_append_of_notMem (h : '[' ∉ before) : tags (before ++ after) = tags after := by
  induction before with
  | nil => rfl
  | cons c before ih =>
      rw [List.mem_cons, not_or] at h
      have hnone : startsWithTag (c :: (before ++ after)) = false := by
        rw [startsWithTag]
        rintro cs heq
        exact h.1 (List.cons.inj heq).1.symm
      rw [List.cons_append, tags_cons_of_not hnone, ih h.2]

namespace IsInside

variable (h : IsInside inside)
include h

theorem notMem_closed : '[' ∉ inside ++ [']'] := by
  have hmem := h.2.1
  simpa using hmem

theorem tags_eq (after : List Char) : tags ('[' :: (inside ++ ']' :: after)) = tags after + 1 := by
  have hstart := startsWithTag_iff.2 ⟨inside, after, h, rfl⟩
  have hinside : tags (inside ++ [']'] ++ after) = tags after :=
    tags_append_of_notMem h.notMem_closed
  rw [List.append_assoc, List.singleton_append] at hinside
  rw [tags_cons, hstart, hinside]
  rfl

theorem escapes_eq (after : List Char) : escapes (inside ++ ']' :: after) = escapes after := by
  have hlast : (inside ++ [']']).getLast? = some '\\' → after.head? ≠ some '[' := by
    rw [List.getLast?_concat]
    nofun
  have hinside := escapes_append hlast
  rwa [List.append_assoc, List.singleton_append, escapes_of_notMem h.notMem_closed,
    Nat.zero_add] at hinside

/-- What is seen of a tag: nothing if it is one, and else the tag itself. -/
theorem count_mark (hr : r.IsSound) (slashes : Nat) :
    (r.shownOf (mark slashes inside)).count '[' + [mark slashes inside].countP isTag = 1 ∧
      (r.shownOf (mark slashes inside)).count '\\' ≤ inside.count '\\' ∧
      1 ≤ [mark slashes inside].countP isTag + min slashes 1 := by
  unfold mark
  split
  · exact ⟨rfl, Nat.zero_le _, Nat.le_add_right _ _⟩
  · next hodd =>
      obtain ⟨hbrackets, hslashes⟩ := hr.count_shown ('[' :: inside ++ [']'])
      have hinside : inside.count '[' = 0 := List.count_eq_zero.2 h.2.1
      refine ⟨?_, ?_, ?_⟩
      · rw [Renderer.shownOf_plain, hbrackets]
        simp [hinside, isTag]
      · have hcount : ('[' :: inside ++ [']']).count '\\' = inside.count '\\' := by simp
        rw [Renderer.shownOf_plain]
        omega
      · show 1 ≤ 0 + min slashes 1
        omega

end IsInside

namespace FirstTag

variable (h : FirstTag cs before slashes inside after)
include h

theorem tags_eq : tags cs = tags after + 1 := by
  rw [h.eq, ← List.append_assoc, tags_append_bracket, h.untagged, h.isInside.tags_eq, Nat.zero_add]

theorem escapes_eq : escapes cs = escapes before + (min slashes 1 + escapes after) := by
  rw [h.eq, escapes_append (fun hlast => absurd hlast h.unslashed), escapes_slashes,
    h.isInside.escapes_eq]

end FirstTag

/-- The parts of a text account for its brackets and backslashes. Each bracket is seen, unless it
opens a tag. For each bracket that stands behind a backslash one backslash is not seen. -/
structure Tally (r : Renderer) (cs : List Char) (ps : List Piece) : Prop where
  brackets : (ps.flatMap r.shownOf).count '[' + ps.countP isTag = cs.count '['
  slashes : (ps.flatMap r.shownOf).count '\\' + escapes cs ≤ cs.count '\\'
  tags : tags cs ≤ ps.countP isTag + escapes cs

theorem tally_pieces (hr : r.IsSound) (cs : List Char) : Tally r cs (pieces cs) := by
  induction cs using tagInduction with
  | untagged cs h =>
      obtain ⟨hbrackets, hslashes⟩ := hr.count_shown cs
      rw [pieces_of_untagged h]
      constructor
      · simpa [isTag] using hbrackets
      · simpa using hslashes.le
      · omega
  | @tagged cs before slashes inside after h ih =>
      obtain ⟨hbrackets, hslashes⟩ := hr.count_shown before
      obtain ⟨hbrackets', hslashes'⟩ := hr.count_shown (List.replicate (slashes / 2) '\\')
      obtain ⟨hmark, hmark', htag⟩ := h.isInside.count_mark hr slashes
      have hparts : pieces cs = [.plain before, .plain (List.replicate (slashes / 2) '\\')] ++
          ([mark slashes inside] ++ pieces after) := pieces_of_firstTag h
      have hplain : [Piece.plain before, .plain (List.replicate (slashes / 2) '\\')].countP isTag =
          0 := rfl
      have hescapes := h.escapes_eq
      rw [hparts]
      constructor
      case brackets =>
        have hinside : inside.count '[' = 0 := List.count_eq_zero.2 h.isInside.2.1
        have hcs : cs.count '[' = before.count '[' + (after.count '[' + 1) := by
          rw [h.eq]
          simp [hinside, List.count_replicate]
        have hnone : (List.replicate (slashes / 2) '\\').count '[' = 0 := by
          simp [List.count_replicate]
        have hafter := ih.brackets
        simp only [List.flatMap_append, List.flatMap_cons, List.flatMap_nil, List.append_nil,
          Renderer.shownOf_plain, List.count_append, List.countP_append]
        omega
      case slashes =>
        have hcs : cs.count '\\' =
            before.count '\\' + (slashes + (inside.count '\\' + after.count '\\')) := by
          rw [h.eq]
          simp
        -- of the backslashes in front of the tag, half are seen
        have hhalf : (List.replicate (slashes / 2) '\\').count '\\' = slashes / 2 := by simp
        have hafter := ih.slashes
        simp only [List.flatMap_append, List.flatMap_cons, List.flatMap_nil, List.append_nil,
          Renderer.shownOf_plain, List.count_append]
        omega
      case tags =>
        have htags := h.tags_eq
        have hafter := ih.tags
        simp only [List.countP_append]
        omega

/-! ## Texts that are seen as they are -/

/-- No part of the text is read as markup: none is a tag, and no bracket stands behind a
backslash. -/
structure IsLiteral (cs : List Char) : Prop where
  untagged : ∀ inside, IsInside inside → ¬ '[' :: (inside ++ [']']) <:+: cs
  unescaped : ¬ ['\\', '['] <:+: cs

theorem isLiteral_iff : IsLiteral cs ↔ tags cs = 0 ∧ escapes cs = 0 := by
  rw [tags_eq_zero_iff, escapes_eq_zero_iff]
  exact ⟨fun h => ⟨h.untagged, h.unescaped⟩, fun h => ⟨h.1, h.2⟩⟩

theorem isLiteral_of_notMem (h : '[' ∉ cs) : IsLiteral cs := by
  constructor
  · exact fun _ _ hpart => h (hpart.subset List.mem_cons_self)
  · exact fun hpart => h (hpart.subset (by simp))

/-- Text in front of a literal one changes nothing, if it has no brackets and does not end in a
backslash. -/
theorem IsLiteral.prepend {gap : List Char} (h : IsLiteral cs) (hgap : '[' ∉ gap)
    (hlast : gap.getLast? ≠ some '\\') : IsLiteral (gap ++ cs) := by
  obtain ⟨htags, hescapes⟩ := isLiteral_iff.1 h
  rw [isLiteral_iff, tags_append_of_notMem hgap, escapes_append (fun h => absurd h hlast),
    escapes_of_notMem hgap, htags, hescapes]
  exact ⟨rfl, rfl⟩

theorem getLast?_append_ne {gap : List Char} (hgap : gap.getLast? ≠ some '\\')
    (h : cs.getLast? ≠ some '\\') : (gap ++ cs).getLast? ≠ some '\\' := by
  rw [List.getLast?_append]
  cases hlast : cs.getLast? with
  | none => exact hgap
  | some c =>
      rw [hlast] at h
      exact h

theorem Renderer.IsSound.shown_nil (hr : r.IsSound) : r.shown [] = [] := by
  rw [Renderer.shown, unescape, hr.between [] (by decide)]
  rfl

theorem visiblePieces_literal (h : IsLiteral cs) (opened : List Opened) :
    r.visiblePieces opened (pieces cs) = .ok (r.shown cs) := by
  rw [pieces_of_untagged (isLiteral_iff.1 h).1, Renderer.visiblePieces, Renderer.visiblePieces]
  exact congrArg Except.ok (List.append_nil _)

section

variable (hr : r.IsSound)
include hr

/-- A tag changes the styles for what follows it. What is before it is seen. -/
theorem visiblePieces_tag (h : IsLiteral before) (hlast : before.getLast? ≠ some '\\')
    (hinside : IsInside inside) (hopened : r.afterTag? opened inside = some opened')
    (after : List Char) :
    r.visiblePieces opened (pieces (before ++ '[' :: (inside ++ ']' :: after))) =
      (r.visiblePieces opened' (pieces after)).map (r.shown before ++ ·) := by
  have hfirst : FirstTag (before ++ '[' :: (inside ++ ']' :: after)) before 0 inside after :=
    ⟨rfl, (congrArg tags (List.append_nil before)).trans (isLiteral_iff.1 h).1, hlast, hinside⟩
  have hnone : r.shown (List.replicate (0 / 2) '\\') = [] := hr.shown_nil
  rw [pieces_of_firstTag hfirst, mark, if_pos rfl]
  simp only [Renderer.visiblePieces, hopened, hnone]
  cases r.visiblePieces opened' (pieces after) <;> rfl

theorem visiblePieces_leading (hinside : IsInside inside)
    (hopened : r.afterTag? opened inside = some opened') (after : List Char) :
    r.visiblePieces opened (pieces ('[' :: (inside ++ ']' :: after))) =
      r.visiblePieces opened' (pieces after) := by
  refine (visiblePieces_tag hr (isLiteral_of_notMem List.not_mem_nil) nofun hinside hopened
    after).trans ?_
  rw [hr.shown_nil]
  cases r.visiblePieces opened' (pieces after) <;> rfl

/-- A tag behind a backslash is seen. -/
theorem visiblePieces_escaped (hinside : IsInside inside) (after : List Char) :
    r.visiblePieces opened (pieces ('\\' :: '[' :: (inside ++ ']' :: after))) =
      (r.visiblePieces opened (pieces after)).map (r.shown ('[' :: inside ++ [']']) ++ ·) := by
  have hfirst : FirstTag ('\\' :: '[' :: (inside ++ ']' :: after)) [] 1 inside after :=
    ⟨rfl, rfl, nofun, hinside⟩
  have hnone : r.shown (List.replicate (1 / 2) '\\') = [] := hr.shown_nil
  rw [pieces_of_firstTag hfirst, mark, if_neg (by decide)]
  simp only [Renderer.visiblePieces, hnone, hr.shown_nil]
  cases r.visiblePieces opened (pieces after) <;> rfl

end

/-! ## Texts in a style -/

/-- The name of a style makes a tag that opens it, and another one, behind a slash, that closes it
again. -/
structure IsStyle (style : List Char) : Prop where
  opening : IsInside style
  closing : IsInside ('/' :: style)
  plain : '=' ∉ style
  bare : style.head? ≠ some '/'
  stripped : Text.strip style = style

instance (style : List Char) : Decidable (IsStyle style) :=
  decidable_of_iff (IsInside style ∧ IsInside ('/' :: style) ∧ '=' ∉ style ∧
      style.head? ≠ some '/' ∧ Text.strip style = style)
    ⟨fun ⟨h₁, h₂, h₃, h₄, h₅⟩ => ⟨h₁, h₂, h₃, h₄, h₅⟩, fun ⟨h₁, h₂, h₃, h₄, h₅⟩ =>
      ⟨h₁, h₂, h₃, h₄, h₅⟩⟩

variable {style head : List Char}

theorem takeWhile_ne_of_notMem {c : Char} (h : c ∉ cs) : cs.takeWhile (· != c) = cs := by
  refine List.takeWhile_eq_self_iff.2 fun x hx => ?_
  rw [bne_iff_ne]
  exact ne_of_mem_of_not_mem hx h

/-- Whatever name a renderer has for a style, the style is closed by the tag that names it as the
opening one does. -/
theorem IsStyle.exists_opened (hstyle : IsStyle style) (r : Renderer) :
    ∃ opened, r.afterTag? [] style = some opened ∧ r.afterTag? opened ('/' :: style) = some [] := by
  obtain ⟨hinside, -, hplain, hbare, hstripped⟩ := hstyle
  refine ⟨[⟨r.styleName style, []⟩], ?_, ?_⟩
  · have hdrop : style.drop (style.length + 1) = [] := List.drop_eq_nil_of_le (Nat.le_succ _)
    rw [Renderer.afterTag?, takeWhile_ne_of_notMem hplain]
    dsimp only
    split
    · exact absurd rfl hbare
    · rw [hdrop]
  · have hclosing : '=' ∉ '/' :: style := by
      rw [List.mem_cons, not_or]
      exact ⟨by decide, hplain⟩
    have hne : style.isEmpty = false := by
      cases style with
      | nil => cases hinside.1
      | cons c style => rfl
    rw [Renderer.afterTag?, takeWhile_ne_of_notMem hclosing]
    simp [hstripped, hne, take?, Renderer.closes]

section

variable (hr : r.IsSound) (hstyle : IsStyle style)
include hr hstyle

/-- A literal text is seen in front of the tag that closes its style. -/
theorem visiblePieces_closed (hopened : r.afterTag? opened ('/' :: style) = some [])
    (h : IsLiteral cs) (hlast : cs.getLast? ≠ some '\\') :
    r.visiblePieces opened (pieces (cs ++ '[' :: ('/' :: style ++ [']']))) = .ok (r.shown cs) := by
  have hnil := visiblePieces_literal (r := r) (isLiteral_of_notMem List.not_mem_nil) []
  rw [visiblePieces_tag hr h hlast hstyle.closing hopened, hnil, hr.shown_nil]
  exact congrArg Except.ok (List.append_nil _)

/-- Of a literal text in a style, the text is seen. -/
theorem visible_styled (h : IsLiteral cs) (hlast : cs.getLast? ≠ some '\\') :
    r.visible ('[' :: (style ++ ']' :: (cs ++ '[' :: ('/' :: style ++ [']'])))) =
      .ok (r.shown cs) := by
  obtain ⟨opened, hopens, hcloses⟩ := hstyle.exists_opened r
  rw [Renderer.visible, visiblePieces_leading hr hstyle.opening hopens,
    visiblePieces_closed hr hstyle hcloses h hlast]

/-- Of a literal text behind one in a style, both are seen. -/
theorem visible_headed (hhead : IsLiteral head) (hlast : head.getLast? ≠ some '\\')
    (h : IsLiteral cs) :
    r.visible ('[' :: (style ++ ']' :: (head ++ '[' :: ('/' :: style ++ ']' :: cs)))) =
      .ok (r.shown head ++ r.shown cs) := by
  obtain ⟨opened, hopens, hcloses⟩ := hstyle.exists_opened r
  rw [Renderer.visible, visiblePieces_leading hr hstyle.opening hopens,
    visiblePieces_tag hr hhead hlast hstyle.closing hcloses, visiblePieces_literal h]
  rfl

/-- Of a literal text in a style, behind a tag that is escaped, both are seen. -/
theorem visible_styled_escaped (hinside : IsInside inside) (h : IsLiteral cs)
    (hlast : cs.getLast? ≠ some '\\') :
    r.visible ('[' :: (style ++ ']' :: ('\\' :: '[' :: (inside ++ ']' ::
        (cs ++ '[' :: ('/' :: style ++ [']'])))))) =
      .ok (r.shown ('[' :: inside ++ [']']) ++ r.shown cs) := by
  obtain ⟨opened, hopens, hcloses⟩ := hstyle.exists_opened r
  rw [Renderer.visible, visiblePieces_leading hr hstyle.opening hopens,
    visiblePieces_escaped hr hinside, visiblePieces_closed hr hstyle hcloses h hlast]
  rfl

end

end TabCompletion.Markup
