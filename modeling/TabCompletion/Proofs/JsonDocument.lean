import Mathlib.Data.List.Nodup
import Mathlib.Data.List.Pairwise
import Mathlib.Data.List.TakeWhile
import TabCompletion.Proofs.JsonText

/-!
# Writing and reading the documents of JSON

A document that consists of texts, lists, and mappings of different texts (`IsPlain`) is read
back from each of its forms, whatever follows it: every layout sets items apart by a comma and
spaces, so that reading an item stops where writing it did (`IsPlain.readsBack`). The text of
such a document is therefore read as that document (`readChars_form`).
-/

namespace TabCompletion.Json

/-! ## Layouts -/

theorem skip_append {w : List Char} (hw : ∀ c ∈ w, isSpace c = true) {c : Char}
    (hc : isSpace c = false) (rest : List Char) (pos : Nat) :
    Cursor.skip ⟨w ++ c :: rest, pos⟩ = ⟨c :: rest, pos + w.length⟩ := by
  have htake : (w ++ c :: rest).takeWhile isSpace = w := by
    rw [List.takeWhile_append_of_pos hw, List.takeWhile_cons_of_neg (by simp [hc]),
      List.append_nil]
  simp [Cursor.skip, Cursor.advance, htake]

theorem skip_cons {c : Char} (hc : isSpace c = false) (rest : List Char) (pos : Nat) :
    Cursor.skip ⟨c :: rest, pos⟩ = ⟨c :: rest, pos⟩ :=
  skip_append (w := []) nofun hc rest pos

theorem isSpace_line (n : Nat) : ∀ c ∈ '\n' :: List.replicate n ' ', isSpace c = true := by
  intro c hc
  rcases List.mem_cons.1 hc with rfl | hc
  · rfl
  · rw [List.eq_of_mem_replicate hc]
    rfl

namespace Layout

variable (layout : Layout)

theorem isSpace_opening : ∀ c ∈ layout.opening, isSpace c = true := by
  cases layout with
  | line => exact nofun
  | indented depth => exact isSpace_line _

theorem isSpace_closing : ∀ c ∈ layout.closing, isSpace c = true := by
  cases layout with
  | line => exact nofun
  | indented depth => exact isSpace_line _

/-- Between two items stand a comma and spaces. -/
theorem between_eq : ∃ gap, layout.between = ',' :: gap ∧ ∀ c ∈ gap, isSpace c = true := by
  cases layout with
  | line => exact ⟨[' '], rfl, List.forall_mem_singleton.2 rfl⟩
  | indented depth => exact ⟨_, rfl, isSpace_opening (.indented depth)⟩

/-- What stands from the first item to the end. -/
def remainder (closed : Char) (forms : List (List Char)) (rest : List Char) : List Char :=
  layout.between.intercalate forms ++ (layout.closing ++ closed :: rest)

theorem enclose_append {opened closed : Char} {forms : List (List Char)} (h : forms ≠ [])
    (rest : List Char) :
    layout.enclose opened closed forms ++ rest =
      opened :: (layout.opening ++ layout.remainder closed forms rest) := by
  rw [enclose, if_neg (by simpa using h), remainder]
  simp

theorem remainder_singleton (closed : Char) (form rest : List Char) :
    layout.remainder closed [form] rest = form ++ (layout.closing ++ closed :: rest) := by
  rw [remainder, List.intercalate_singleton]

theorem remainder_cons {forms : List (List Char)} (h : forms ≠ []) (closed : Char)
    (form rest : List Char) :
    layout.remainder closed (form :: forms) rest =
      form ++ (layout.between ++ layout.remainder closed forms rest) := by
  rw [remainder, List.intercalate_cons_of_ne_nil h, remainder]
  simp

/-- What is left of items starts with what the first item starts with. -/
theorem remainder_eq_cons {form : List Char} {c : Char} {cs : List Char} (hform : form = c :: cs)
    (closed : Char) (forms : List (List Char)) (rest : List Char) :
    ∃ cs', layout.remainder closed (form :: forms) rest = c :: cs' := by
  subst hform
  cases forms with
  | nil => exact ⟨_, layout.remainder_singleton closed (c :: cs) rest⟩
  | cons => exact ⟨_, layout.remainder_cons (List.cons_ne_nil _ _) closed (c :: cs) rest⟩

theorem peek_remainder {form : List Char} {c : Char} {cs : List Char} (hform : form = c :: cs)
    (closed : Char) (forms : List (List Char)) (rest : List Char) (pos : Nat) :
    Cursor.peek ⟨layout.remainder closed (form :: forms) rest, pos⟩ = some c := by
  obtain ⟨cs', hcs⟩ := layout.remainder_eq_cons hform closed forms rest
  rw [hcs]
  rfl

/-- Reading goes on with the first item behind the spaces. -/
theorem skip_remainder {form : List Char} {c : Char} {cs : List Char} (hform : form = c :: cs)
    (hc : isSpace c = false) {w : List Char} (hw : ∀ c ∈ w, isSpace c = true) (closed : Char)
    (forms : List (List Char)) (rest : List Char) (pos : Nat) :
    Cursor.skip ⟨w ++ layout.remainder closed (form :: forms) rest, pos⟩ =
      ⟨layout.remainder closed (form :: forms) rest, pos + w.length⟩ := by
  obtain ⟨cs', hcs⟩ := layout.remainder_eq_cons hform closed forms rest
  rw [hcs]
  exact skip_append hw hc cs' pos

/-- Behind an item that is not the last one, reading finds a comma and goes on with the next. -/
theorem skip_between {form : List Char} {c : Char} {cs : List Char} (hform : form = c :: cs)
    (hc : isSpace c = false) (closed : Char) (forms : List (List Char)) (rest : List Char)
    (pos : Nat) :
    let cur := Cursor.skip ⟨layout.between ++ layout.remainder closed (form :: forms) rest, pos⟩
    cur.peek = some ',' ∧
      ∃ pos', (cur.advance 1).skip = ⟨layout.remainder closed (form :: forms) rest, pos'⟩ := by
  obtain ⟨gap, hgap, hspace⟩ := layout.between_eq
  rw [hgap, List.cons_append, skip_cons rfl]
  exact ⟨rfl, _, layout.skip_remainder hform hc hspace closed forms rest (pos + 1)⟩

/-- Behind the last item, reading finds the end. -/
theorem skip_closing (closed : Char) (hclosed : isSpace closed = false) (rest : List Char)
    (pos : Nat) :
    let cur := Cursor.skip ⟨layout.closing ++ closed :: rest, pos⟩
    cur.peek = some closed ∧ ∃ pos', cur.advance 1 = ⟨rest, pos'⟩ := by
  rw [skip_append layout.isSpace_closing hclosed]
  exact ⟨rfl, _, rfl⟩

/-- Behind the opening bracket, reading goes on with the first item. -/
theorem skip_opening {form : List Char} {c : Char} {cs : List Char} (hform : form = c :: cs)
    (hc : isSpace c = false) (opened closed : Char) (forms : List (List Char)) (rest : List Char)
    (pos : Nat) :
    ∃ pos', (Cursor.advance ⟨layout.enclose opened closed (form :: forms) ++ rest, pos⟩ 1).skip =
      ⟨layout.remainder closed (form :: forms) rest, pos'⟩ := by
  rw [layout.enclose_append (List.cons_ne_nil _ _)]
  exact ⟨_, layout.skip_remainder hform hc layout.isSpace_opening closed forms rest (pos + 1)⟩

theorem peek_enclose (opened closed : Char) (forms : List (List Char)) (rest : List Char)
    (pos : Nat) :
    Cursor.peek ⟨layout.enclose opened closed forms ++ rest, pos⟩ = some opened := by
  unfold enclose
  split <;> rfl

theorem length_enclose {forms : List (List Char)} (h : forms ≠ []) (opened closed : Char) :
    (layout.between.intercalate forms).length + 2 ≤
      (layout.enclose opened closed forms).length := by
  rw [enclose, if_neg (by simpa using h)]
  simp only [List.length_append, List.length_cons, List.length_nil]
  omega

theorem length_intercalate {forms : List (List Char)} (h : forms ≠ []) (form : List Char) :
    form.length + 1 + (layout.between.intercalate forms).length ≤
      (layout.between.intercalate (form :: forms)).length := by
  obtain ⟨gap, hgap, -⟩ := layout.between_eq
  rw [List.intercalate_cons_of_ne_nil h, hgap]
  simp only [List.length_append, List.length_cons]
  omega

end Layout

/-! ## Keys -/

theorem insert_of_forall {entries : List (Document × Document)} {key value : Document}
    (h : ∀ e ∈ entries, e.1.sameKey key = false) :
    Document.insert key value entries = entries ++ [(key, value)] := by
  induction entries with
  | nil => rfl
  | cons e entries ih =>
      obtain ⟨k, v⟩ := e
      have hk : k.sameKey key = false := h (k, v) List.mem_cons_self
      rw [Document.insert, if_neg (by simp [hk]), ih fun e he => h e (List.mem_cons_of_mem _ he),
        List.cons_append]

/-- Entries of which no two have the same key are the entries of their mapping. -/
theorem ofEntries_eq_self {entries : List (Document × Document)}
    (h : entries.Pairwise fun a b => a.1.sameKey b.1 = false) :
    Document.ofEntries entries = entries := by
  have hfold : ∀ done rest : List (Document × Document),
      (done ++ rest).Pairwise (fun a b => a.1.sameKey b.1 = false) →
      rest.foldl (fun done entry => Document.insert entry.1 entry.2 done) done = done ++ rest := by
    intro done rest
    induction rest generalizing done with
    | nil => simp
    | cons e rest ih =>
        intro hpair
        have hdone : ∀ d ∈ done, d.1.sameKey e.1 = false := fun d hd =>
          (List.pairwise_append.1 hpair).2.2 d hd e List.mem_cons_self
        rw [List.foldl_cons, insert_of_forall hdone, ih _ (by simpa using hpair)]
        simp
  exact hfold [] entries h

theorem pairwise_of_nodup {entries : List (Document × Document)}
    (hkeys : ∀ e ∈ entries, ∃ name, e.1 = .text name) (h : (entries.map Prod.fst).Nodup) :
    entries.Pairwise fun a b => a.1.sameKey b.1 = false := by
  refine (List.pairwise_map.1 h).imp_of_mem ?_
  intro a b ha hb hne
  obtain ⟨s, hs⟩ := hkeys a ha
  obtain ⟨t, ht⟩ := hkeys b hb
  rw [hs, ht] at hne ⊢
  simpa [Document.sameKey, Document.whole?] using hne

/-! ## Documents -/

/-- The document is read back from each of its forms. Its forms start with a character that is
neither a space nor the end of a list, so that a list that it starts is seen to hold it. -/
structure ReadsBack (d : Document) : Prop where
  head : ∀ layout, ∃ c cs, form layout d = c :: cs ∧ isSpace c = false ∧ c ≠ ']'
  value : ∀ layout rest pos fuel, 2 * (form layout d).length ≤ fuel →
    ∃ pos', readValue fuel ⟨form layout d ++ rest, pos⟩ = .ok (d, ⟨rest, pos'⟩)

theorem readsBack_text (s : String) : ReadsBack (.text s) where
  head := fun layout => ⟨'\x22', _, rfl, rfl, by decide⟩
  value := by
    intro layout rest pos fuel hfuel
    obtain ⟨p, hp⟩ := readText_textForm s rest pos
    have hlength : 0 < (form layout (.text s)).length := by simp [form, scalarForm, textForm,
      codesForm]
    obtain ⟨fuel, rfl⟩ := Nat.exists_eq_add_one.2 (show 0 < fuel by omega)
    exact ⟨p, hp⟩

/-- The items of a list are read back up to its end, if each is. -/
theorem readItems_remainder (layout : Layout) {items : List Document} (hitems : items ≠ [])
    (h : ∀ d ∈ items, ReadsBack d) (rest : List Char) (pos fuel : Nat)
    (hfuel : 2 * (layout.between.intercalate (itemForms layout items)).length + 1 ≤ fuel) :
    ∃ pos', readItems fuel ⟨layout.remainder ']' (itemForms layout items) rest, pos⟩ =
      .ok (items, ⟨rest, pos'⟩) := by
  induction items generalizing pos fuel with
  | nil => exact absurd rfl hitems
  | cons d items ih =>
      obtain ⟨fuel, rfl⟩ := Nat.exists_eq_add_one.2 (show 0 < fuel by omega)
      have hd := (h d List.mem_cons_self).value layout.deeper
      cases items with
      | nil =>
          -- the last item, behind which the list ends
          simp only [itemForms, List.intercalate_singleton] at hfuel
          obtain ⟨p, hp⟩ := hd (layout.closing ++ ']' :: rest) pos fuel (by omega)
          obtain ⟨hpeek, q, hq⟩ := layout.skip_closing ']' rfl rest p
          refine ⟨q, ?_⟩
          rw [itemForms, itemForms, layout.remainder_singleton, readItems, hp]
          dsimp only
          rw [if_pos hpeek, hq]
      | cons d' items =>
          -- behind a comma reading goes on with the next item
          simp only [itemForms] at hfuel ih ⊢
          have hne : form layout.deeper d' :: itemForms layout items ≠ [] := List.cons_ne_nil _ _
          have hlength := layout.length_intercalate hne (form layout.deeper d)
          obtain ⟨p, hp⟩ := hd (layout.between ++ layout.remainder ']'
            (form layout.deeper d' :: itemForms layout items) rest) pos fuel (by omega)
          obtain ⟨c, cs, hhead, hc, -⟩ := (h d' (by simp)).head layout.deeper
          obtain ⟨hpeek, q, hq⟩ := layout.skip_between hhead hc ']'
            (itemForms layout items) rest p
          obtain ⟨r, hr⟩ := ih (List.cons_ne_nil _ _) (fun e he => h e (List.mem_cons_of_mem _ he))
            q fuel (by omega)
          refine ⟨r, ?_⟩
          rw [layout.remainder_cons hne, readItems, hp]
          dsimp only
          rw [if_neg (by rw [hpeek]; decide), if_pos hpeek, hq, hr]

/-- The key of an entry is read, then a colon, then its value. -/
theorem readText_entryForm {value : Document} (h : ReadsBack value) (layout : Layout)
    (name : String) (tail : List Char) (pos fuel : Nat)
    (hfuel : 2 * (entryForm layout (.text name, value)).length ≤ fuel) :
    ∃ cur pos', readText ⟨entryForm layout (.text name, value) ++ tail, pos⟩ =
        .ok (.text name, cur) ∧
      cur.skip.peek = some ':' ∧
      readValue fuel (cur.skip.advance 1).skip = .ok (value, ⟨tail, pos'⟩) := by
  obtain ⟨c, cs, hhead, hc, -⟩ := h.head layout.deeper
  have hentry : entryForm layout (.text name, value) ++ tail =
      textForm name ++ ':' :: ' ' :: (form layout.deeper value ++ tail) := by
    simp [entryForm, keyForm]
  have hlength : 2 * (form layout.deeper value).length ≤ fuel := by
    simp only [entryForm, List.length_append] at hfuel
    omega
  obtain ⟨p, hp⟩ := readText_textForm name (':' :: ' ' :: (form layout.deeper value ++ tail)) pos
  obtain ⟨q, hq⟩ := h.value layout.deeper tail (p + 2) fuel hlength
  have hgap : Cursor.skip ⟨' ' :: (form layout.deeper value ++ tail), p + 1⟩ =
      ⟨form layout.deeper value ++ tail, p + 2⟩ := by
    rw [hhead]
    exact skip_append (w := [' ']) (List.forall_mem_singleton.2 rfl) hc (cs ++ tail) (p + 1)
  refine ⟨_, q, hentry ▸ hp, ?_⟩
  rw [skip_cons rfl]
  refine ⟨rfl, ?_⟩
  show readValue fuel (Cursor.skip ⟨' ' :: (form layout.deeper value ++ tail), p + 1⟩) = _
  rw [hgap, hq]

theorem peek_entryForm (layout : Layout) (name : String) (value : Document) (tail : List Char)
    (pos : Nat) :
    Cursor.peek ⟨entryForm layout (.text name, value) ++ tail, pos⟩ = some '\x22' := rfl

/-- The entries of a mapping of texts are read back up to its end, if their values are. -/
theorem readEntries_remainder (layout : Layout) {entries : List (Document × Document)}
    (hentries : entries ≠ []) (hkeys : ∀ e ∈ entries, ∃ name, e.1 = .text name)
    (h : ∀ e ∈ entries, ReadsBack e.2) (rest : List Char) (pos fuel : Nat)
    (hfuel : 2 * (layout.between.intercalate (entryForms layout entries)).length + 1 ≤ fuel) :
    ∃ pos', readEntries fuel ⟨layout.remainder '\x7d' (entryForms layout entries) rest, pos⟩ =
      .ok (entries, ⟨rest, pos'⟩) := by
  induction entries generalizing pos fuel with
  | nil => exact absurd rfl hentries
  | cons e entries ih =>
      obtain ⟨k, value⟩ := e
      obtain ⟨name, hname⟩ := hkeys (k, value) List.mem_cons_self
      obtain rfl : k = .text name := hname
      obtain ⟨fuel, rfl⟩ := Nat.exists_eq_add_one.2 (show 0 < fuel by omega)
      have hvalue : ReadsBack value := h _ List.mem_cons_self
      have hentry := readText_entryForm hvalue layout name
      have hquote : ∀ tail, ¬ (Cursor.peek ⟨entryForm layout (.text name, value) ++ tail, pos⟩ !=
          some '\x22') = true := by
        intro tail
        rw [peek_entryForm]
        decide
      cases entries with
      | nil =>
          -- the last entry, behind which the mapping ends
          simp only [entryForms, List.intercalate_singleton] at hfuel ⊢
          obtain ⟨cur, p, hkey, hcolon, hp⟩ :=
            hentry (layout.closing ++ '\x7d' :: rest) pos fuel (by omega)
          obtain ⟨hpeek, q, hq⟩ := layout.skip_closing '\x7d' rfl rest p
          refine ⟨q, ?_⟩
          rw [layout.remainder_singleton, readEntries, if_neg (hquote _), hkey]
          dsimp only
          rw [if_neg (by rw [hcolon]; decide), hp]
          dsimp only
          rw [if_pos hpeek, hq]
      | cons e' entries =>
          -- behind a comma reading goes on with the next key
          obtain ⟨k', value'⟩ := e'
          obtain ⟨name', hname'⟩ := hkeys (k', value') (by simp)
          obtain rfl : k' = .text name' := hname'
          simp only [entryForms] at hfuel ih ⊢
          have hne : entryForm layout (.text name', value') :: entryForms layout entries ≠ [] :=
            List.cons_ne_nil _ _
          have hlength := layout.length_intercalate hne (entryForm layout (.text name, value))
          obtain ⟨cur, p, hkey, hcolon, hp⟩ := hentry (layout.between ++ layout.remainder '\x7d'
            (entryForm layout (.text name', value') :: entryForms layout entries) rest)
            pos fuel (by omega)
          obtain ⟨hpeek, q, hq⟩ := layout.skip_between
            (show entryForm layout (.text name', value') = '\x22' :: _ from rfl) rfl '\x7d'
            (entryForms layout entries) rest p
          obtain ⟨r, hr⟩ := ih (List.cons_ne_nil _ _)
            (fun e he => hkeys e (List.mem_cons_of_mem _ he))
            (fun e he => h e (List.mem_cons_of_mem _ he)) q fuel (by omega)
          refine ⟨r, ?_⟩
          rw [layout.remainder_cons hne, readEntries, if_neg (hquote _), hkey]
          dsimp only
          rw [if_neg (by rw [hcolon]; decide), hp]
          dsimp only
          rw [if_neg (by rw [hpeek]; decide), if_pos hpeek, hq, hr]

theorem readsBack_list {items : List Document} (h : ∀ d ∈ items, ReadsBack d) :
    ReadsBack (.list items) := by
  have hform : ∀ layout, form layout (.list items) =
      layout.enclose '[' ']' (itemForms layout items) := fun _ => by rw [form]
  refine ⟨?_, ?_⟩
  · intro layout
    rw [hform, Layout.enclose]
    split <;> exact ⟨_, _, rfl, rfl, by decide⟩
  · intro layout rest pos fuel hfuel
    rw [hform] at hfuel ⊢
    cases items with
    | nil =>
        obtain ⟨fuel, rfl⟩ := Nat.exists_eq_add_one.2
          (show 0 < fuel by simp [Layout.enclose, itemForms] at hfuel; omega)
        exact ⟨_, rfl⟩
    | cons d items =>
        have hlength := layout.length_enclose
          (show itemForms layout (d :: items) ≠ [] from List.cons_ne_nil _ _) '[' ']'
        obtain ⟨fuel, rfl⟩ := Nat.exists_eq_add_one.2 (show 0 < fuel by omega)
        obtain ⟨c, cs, hhead, hc, hbracket⟩ := (h d List.mem_cons_self).head layout.deeper
        obtain ⟨p, hp⟩ := layout.skip_opening hhead hc '[' ']' (itemForms layout items) rest pos
        obtain ⟨q, hq⟩ := readItems_remainder layout (List.cons_ne_nil d items) h rest p fuel
          (by omega)
        have hpeek := layout.peek_remainder hhead ']' (itemForms layout items) rest p
        refine ⟨q, ?_⟩
        simp only [itemForms] at hq ⊢
        rw [readValue, layout.peek_enclose]
        show (if (Cursor.skip _).peek = some ']' then _ else _) = _
        rw [hp, if_neg (by rw [hpeek]; simpa using hbracket), hq]

theorem readsBack_map {entries : List (Document × Document)}
    (hkeys : ∀ e ∈ entries, ∃ name, e.1 = .text name) (hnodup : (entries.map Prod.fst).Nodup)
    (h : ∀ e ∈ entries, ReadsBack e.2) : ReadsBack (.map entries) := by
  have hform : ∀ layout, form layout (.map entries) =
      layout.enclose '\x7b' '\x7d' (entryForms layout entries) := fun _ => by rw [form]
  refine ⟨?_, ?_⟩
  · intro layout
    rw [hform, Layout.enclose]
    split <;> exact ⟨_, _, rfl, rfl, by decide⟩
  · intro layout rest pos fuel hfuel
    rw [hform] at hfuel ⊢
    -- no key repeats, so that gathering the entries changes nothing
    have hself := ofEntries_eq_self (pairwise_of_nodup hkeys hnodup)
    cases entries with
    | nil =>
        obtain ⟨fuel, rfl⟩ := Nat.exists_eq_add_one.2
          (show 0 < fuel by simp [Layout.enclose, entryForms] at hfuel; omega)
        exact ⟨_, rfl⟩
    | cons e entries =>
        have hlength := layout.length_enclose
          (show entryForms layout (e :: entries) ≠ [] from List.cons_ne_nil _ _) '\x7b' '\x7d'
        obtain ⟨fuel, rfl⟩ := Nat.exists_eq_add_one.2 (show 0 < fuel by omega)
        obtain ⟨name, hname⟩ := hkeys e List.mem_cons_self
        obtain ⟨k, value⟩ := e
        obtain rfl : k = .text name := hname
        obtain ⟨cs, hhead⟩ : ∃ cs, entryForm layout (.text name, value) = '\x22' :: cs := ⟨_, rfl⟩
        obtain ⟨p, hp⟩ := layout.skip_opening hhead rfl '\x7b' '\x7d' (entryForms layout entries)
          rest pos
        obtain ⟨q, hq⟩ := readEntries_remainder layout (List.cons_ne_nil _ entries) hkeys h rest p
          fuel (by omega)
        have hpeek := layout.peek_remainder hhead '\x7d' (entryForms layout entries) rest p
        refine ⟨q, ?_⟩
        simp only [entryForms] at hq ⊢
        rw [readValue, layout.peek_enclose]
        show (if (Cursor.skip _).peek = some '\x7d' then _ else _) = _
        rw [hp, if_neg (by rw [hpeek]; decide), hq]
        dsimp only
        rw [hself]

/-- The document consists of texts, lists, and mappings of different texts. -/
inductive IsPlain : Document → Prop
  | text (s : String) : IsPlain (.text s)
  | list {items : List Document} (h : ∀ d ∈ items, IsPlain d) : IsPlain (.list items)
  | map {entries : List (Document × Document)} (hkeys : ∀ e ∈ entries, ∃ name, e.1 = .text name)
      (hnodup : (entries.map Prod.fst).Nodup) (h : ∀ e ∈ entries, IsPlain e.2) :
      IsPlain (.map entries)

theorem IsPlain.readsBack {d : Document} (h : IsPlain d) : ReadsBack d := by
  induction h with
  | text s => exact readsBack_text s
  | list _ ih => exact readsBack_list ih
  | map hkeys hnodup _ ih => exact readsBack_map hkeys hnodup ih

/-- A record whose names are all different is plain if its values are. -/
theorem isPlain_record {fields : List (String × Document)} (hnodup : (fields.map Prod.fst).Nodup)
    (h : ∀ f ∈ fields, IsPlain f.2) : IsPlain (.record fields) := by
  refine .map ?_ ?_ ?_
  · intro e he
    obtain ⟨f, -, rfl⟩ := List.mem_map.1 he
    exact ⟨f.1, rfl⟩
  · rw [List.map_map]
    have hkeys := hnodup.map (f := Document.text) fun _ _ h => Document.text.inj h
    rwa [List.map_map] at hkeys
  · intro e he
    obtain ⟨f, hf, rfl⟩ := List.mem_map.1 he
    exact h f hf

theorem isPlain_texts (items : List String) : IsPlain (.texts items) := by
  refine .list fun d hd => ?_
  obtain ⟨s, -, rfl⟩ := List.mem_map.1 hd
  exact .text s

theorem itemForms_eq_map (layout : Layout) (items : List Document) :
    itemForms layout items = items.map (form layout.deeper) := by
  induction items with
  | nil => rw [itemForms, List.map_nil]
  | cons d items ih => rw [itemForms, ih, List.map_cons]

theorem entryForms_eq_map (layout : Layout) (entries : List (Document × Document)) :
    entryForms layout entries = entries.map (entryForm layout) := by
  induction entries with
  | nil => rw [entryForms, List.map_nil]
  | cons e entries ih => rw [entryForms, ih, List.map_cons]

/-! ## Characters -/

theorem mem_intercalate {sep : List Char} {forms : List (List Char)} {c : Char}
    (h : c ∈ sep.intercalate forms) : c ∈ sep ∨ ∃ form ∈ forms, c ∈ form := by
  induction forms with
  | nil => cases h
  | cons form forms ih =>
      cases forms with
      | nil => exact .inr ⟨form, by simp, by simpa using h⟩
      | cons form' forms =>
          rw [List.intercalate_cons_cons, List.mem_append, List.mem_append] at h
          rcases h with (h | h) | h
          · exact .inr ⟨form, List.mem_cons_self, h⟩
          · exact .inl h
          · rcases ih h with h | ⟨f, hf, hc⟩
            · exact .inl h
            · exact .inr ⟨f, List.mem_cons_of_mem _ hf, hc⟩

theorem isWritten_line (n : Nat) : ∀ c ∈ '\n' :: List.replicate n ' ', IsWritten c := by
  intro c hc
  rcases List.mem_cons.1 hc with rfl | hc
  · exact .inl rfl
  · rw [List.eq_of_mem_replicate hc]
    decide

theorem isWritten_enclose (layout : Layout) {opened closed : Char} (hopened : IsWritten opened)
    (hclosed : IsWritten closed) {forms : List (List Char)}
    (h : ∀ form ∈ forms, ∀ c ∈ form, IsWritten c) :
    ∀ c ∈ layout.enclose opened closed forms, IsWritten c := by
  have hopening : ∀ c ∈ layout.opening, IsWritten c := by
    cases layout with
    | line => exact nofun
    | indented depth => exact isWritten_line _
  have hclosing : ∀ c ∈ layout.closing, IsWritten c := by
    cases layout with
    | line => exact nofun
    | indented depth => exact isWritten_line _
  have hbetween : ∀ c ∈ layout.between, IsWritten c := by
    cases layout with
    | line => exact isWritten_of_all (by decide)
    | indented depth => exact List.forall_mem_cons.2 ⟨by decide, isWritten_line _⟩
  unfold Layout.enclose
  split
  · simp [hopened, hclosed]
  · simp only [List.forall_mem_append, List.forall_mem_cons]
    refine ⟨⟨⟨⟨hopened, hopening⟩, ?_⟩, hclosing⟩, hclosed, nofun⟩
    intro c hc
    rcases mem_intercalate hc with hc | ⟨form, hform, hc⟩
    · exact hbetween c hc
    · exact h form hform c hc

/-- Every character of a form is written. -/
theorem IsPlain.isWritten {d : Document} (h : IsPlain d) :
    ∀ layout, ∀ c ∈ form layout d, IsWritten c := by
  induction h with
  | text s => exact fun _ => isWritten_textForm s
  | @list items _ ih =>
      intro layout
      rw [form]
      refine isWritten_enclose layout (by decide) (by decide) fun f hf => ?_
      rw [itemForms_eq_map] at hf
      obtain ⟨d, hd, rfl⟩ := List.mem_map.1 hf
      exact ih d hd layout.deeper
  | @map entries hkeys _ _ ih =>
      intro layout
      rw [form]
      refine isWritten_enclose layout (by decide) (by decide) fun f hf => ?_
      rw [entryForms_eq_map] at hf
      obtain ⟨⟨k, value⟩, he, rfl⟩ := List.mem_map.1 hf
      obtain ⟨name, hname⟩ := hkeys _ he
      obtain rfl : k = .text name := hname
      rw [entryForm, List.forall_mem_append, List.forall_mem_append]
      exact ⟨⟨isWritten_textForm name, isWritten_of_all (by decide)⟩, ih _ he layout.deeper⟩

/-- A document is read back from each of its forms; only spaces may follow it. -/
theorem readChars_form {d : Document} (h : IsPlain d) (layout : Layout) {tail : List Char}
    (htail : ∀ c ∈ tail, isSpace c = true) : readChars (form layout d ++ tail) = .ok d := by
  obtain ⟨c, cs, hhead, hc, -⟩ := h.readsBack.head layout
  obtain ⟨p, hp⟩ := h.readsBack.value layout tail 0 (2 * (form layout d ++ tail).length + 2)
    (by rw [List.length_append]; omega)
  -- what is written is ASCII, so it does not begin with a byte order mark
  have hmark : (form layout d ++ tail).head? ≠ some '\uFEFF' := by
    have hwritten : IsWritten c := h.isWritten layout c (hhead ▸ List.mem_cons_self)
    rw [hhead, List.cons_append, List.head?_cons, ne_eq, Option.some.injEq]
    rintro rfl
    exact absurd hwritten (by decide)
  have hstart : Cursor.skip ⟨form layout d ++ tail, 0⟩ = ⟨form layout d ++ tail, 0⟩ := by
    rw [hhead]
    exact skip_cons hc _ 0
  have hend : (Cursor.skip ⟨tail, p⟩).rest = [] := by
    simp only [Cursor.skip, Cursor.advance, List.takeWhile_eq_self_iff.2 htail,
      List.drop_length]
  rw [readChars, if_neg hmark, hstart, hp]
  dsimp only
  rw [hend, List.isEmpty_nil, if_pos rfl]

end TabCompletion.Json
