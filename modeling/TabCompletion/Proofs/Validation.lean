import Mathlib.Data.List.Forall2
import TabCompletion.Validation.Scalar

/-!
# When reading succeeds

Reading a part of a document gives a value or issues. These lemmas say when it gives a value,
for each of the ways in which readings are put together: one after another, side by side,
inside a part, over the items of a list, and over a field of a record. A reading of a document
that JSON can say (`Document.IsJson`) is thereby reduced to what the document holds.
-/

namespace TabCompletion

/-- The document is one that JSON can say: it holds no bytes, dates, moments or sets, and every
key is a string. -/
inductive Document.IsJson : Document → Prop
  | null : IsJson .null
  | bool (b : Bool) : IsJson (.bool b)
  | int (n : Int) : IsJson (.int n)
  | float (x : Number.Binary64) : IsJson (.float x)
  | text (s : String) : IsJson (.text s)
  | brokenText (codes : List Nat) : IsJson (.brokenText codes)
  | list {items : List Document} (h : ∀ d ∈ items, IsJson d) : IsJson (.list items)
  | map {entries : List (Document × Document)}
      (hk : ∀ e ∈ entries, (∃ s, e.1 = .text s) ∨ ∃ codes, e.1 = .brokenText codes)
      (hv : ∀ e ∈ entries, IsJson e.2) : IsJson (.map entries)

/-- The string that a document is, as its code points. -/
def Document.codes? : Document → Option (List Nat)
  | .text s => some (Text.codes s)
  | .brokenText codes => some codes
  | _ => none

/-- The string that a document is, in characters; a surrogate is replaced. -/
def Document.string? (d : Document) : Option String := d.codes?.map Text.inCharacters

/-- The value of a key is a value of one of the entries. -/
theorem Document.mem_of_lookup? {name : String} {entries : List (Document × Document)}
    {d : Document} (h : Document.lookup? name entries = some d) : (.text name, d) ∈ entries := by
  induction entries using Document.lookup?.induct name with
  | case1 => cases h
  | case2 rest v =>
      -- the first entry has the key
      rw [Document.lookup?, if_pos rfl, Option.some.injEq] at h
      exact h ▸ List.mem_cons_self
  | case3 s v rest hs ih =>
      -- its key is another text
      rw [Document.lookup?, if_neg hs] at h
      exact List.mem_cons_of_mem _ (ih h)
  | case4 rest head hhead ih =>
      -- its key is no text
      rw [Document.lookup?] at h
      · exact List.mem_cons_of_mem _ (ih h)
      · exact hhead

theorem Document.IsJson.of_lookup? {entries : List (Document × Document)}
    (h : (Document.map entries).IsJson) {name : String} {d : Document}
    (hd : Document.lookup? name entries = some d) : d.IsJson := by
  cases h with
  | map _ hv => exact hv _ (Document.mem_of_lookup? hd)

namespace Validation

variable {α β : Type}

theorem bind_eq_ok_iff {x : Checked α} {f : α → Checked β} {b : β} :
    (x >>= f) = .ok b ↔ ∃ a, x = .ok a ∧ f a = .ok b := by
  cases x with
  | error issues => simp [bind, Except.bind]
  | ok a => simp [bind, Except.bind]

theorem map_eq_ok_iff {x : Checked α} {f : α → β} {b : β} :
    x.map f = .ok b ↔ ∃ a, x = .ok a ∧ f a = b := by
  cases x <;> simp [Except.map]

theorem orRefuse_eq_ok_iff {x : Checked α} {model : String} {a : α} :
    x.orRefuse model = .ok a ↔ x = .ok a := by
  cases x <;> simp [Checked.orRefuse]

theorem within_eq_ok_iff {x : Checked α} {key : String} {a : α} :
    within key x = .ok a ↔ x = .ok a := by
  cases x <;> simp [within]

theorem both_eq_ok_iff {x : Checked α} {y : Checked β} {p : α × β} :
    both x y = .ok p ↔ x = .ok p.1 ∧ y = .ok p.2 := by
  cases x <;> cases y <;> simp [both, Prod.ext_iff]

theorem readItemsFrom_eq_ok_iff {read : Document → Checked α} {items : List Document}
    {as : List α} {i : Nat} :
    readItemsFrom read i items = .ok as ↔ List.Forall₂ (fun d a => read d = .ok a) items as := by
  induction items generalizing i as with
  | nil => simp [readItemsFrom, eq_comm]
  | cons d rest ih =>
      rw [List.forall₂_cons_left_iff, readItemsFrom]
      constructor
      · intro h
        cases hd : within (toString i) (read d) with
        | error is =>
            -- the issues of an item stay, whatever the other items give
            rw [hd] at h
            cases hr : readItemsFrom read (i + 1) rest <;> rw [hr] at h <;> cases h
        | ok a =>
            rw [hd] at h
            cases hr : readItemsFrom read (i + 1) rest with
            | error js =>
                rw [hr] at h
                cases h
            | ok rest' =>
                rw [hr] at h
                cases h
                exact ⟨a, rest', within_eq_ok_iff.1 hd, ih.1 hr, rfl⟩
      · rintro ⟨a, rest', hd, hr, rfl⟩
        rw [within_eq_ok_iff.2 hd, ih.2 hr]

theorem readRecord_eq_ok_iff {d : Document} {entries : List (Document × Document)} :
    readRecord d = .ok entries ↔ d = .map entries := by
  cases d <;> simp [readRecord, refuse]

/-! ## Strings -/

/-- The document is the string of these code points. -/
def CodesForm (d : Document) (codes : List Nat) : Prop := d.codes? = some codes

/-- The document is this string, in characters. -/
def StringForm (d : Document) (s : String) : Prop := d.string? = some s

/-- The document says a value in the form, or by nothing that there is none. -/
inductive OrNothing (form : Document → α → Prop) : Document → Option α → Prop
  | nothing : OrNothing form .null none
  | given {d : Document} {a : α} (h : form d a) : OrNothing form d (some a)

/-- The code points of a text are read from a JSON document exactly if it is that string. -/
theorem readCodes_eq_ok_iff (d : Document) (hd : d.IsJson) (codes : List Nat) :
    readCodes d = .ok codes ↔ CodesForm d codes := by
  unfold CodesForm
  cases hd <;> simp [readCodes, refuse, Document.codes?]

/-- A text is read from a JSON document exactly if it is a string. -/
theorem readText_eq_ok_iff (d : Document) (hd : d.IsJson) (s : String) :
    readText d = .ok s ↔ StringForm d s := by
  rw [readText, map_eq_ok_iff, StringForm, Document.string?, Option.map_eq_some_iff]
  exact exists_congr fun codes => and_congr_left fun _ => readCodes_eq_ok_iff d hd codes

theorem orNothing_iff_of_ne_null {form : Document → α → Prop} {d : Document} (hd : d ≠ .null)
    {said : Option α} : OrNothing form d said ↔ ∃ a, form d a ∧ some a = said := by
  constructor
  · intro h
    cases h with
    | nothing => exact absurd rfl hd
    | given h => exact ⟨_, h, rfl⟩
  · rintro ⟨a, h, rfl⟩
    exact .given h

theorem orNothing_null_iff {form : Document → α → Prop} (hform : ∀ a, ¬ form .null a)
    {said : Option α} : OrNothing form .null said ↔ none = said := by
  constructor
  · intro h
    cases h with
    | nothing => rfl
    | given h => exact absurd h (hform _)
  · rintro rfl
    exact .nothing

theorem readOptionalCodes_eq_ok_iff (d : Document) (hd : d.IsJson) (said : Option (List Nat)) :
    readOptionalCodes d = .ok said ↔ OrNothing CodesForm d said := by
  by_cases hnull : d = .null
  · subst hnull
    rw [orNothing_null_iff (fun _ => nofun), readOptionalCodes, Except.ok.injEq]
  · have hread : readOptionalCodes d = (readCodes d).map some := by
      cases d <;> first | rfl | exact absurd rfl hnull
    rw [hread, map_eq_ok_iff, orNothing_iff_of_ne_null hnull]
    exact exists_congr fun codes => and_congr_left fun _ => readCodes_eq_ok_iff d hd codes

theorem readOptionalText_eq_ok_iff (d : Document) (hd : d.IsJson) (said : Option String) :
    readOptionalText d = .ok said ↔ OrNothing StringForm d said := by
  rw [readOptionalText, map_eq_ok_iff]
  simp only [readOptionalCodes_eq_ok_iff d hd]
  constructor
  · rintro ⟨codes, h | h, rfl⟩
    · exact .nothing
    · exact .given (by rw [StringForm, Document.string?, h]; rfl)
  · rintro (_ | h)
    · exact ⟨none, .nothing, rfl⟩
    · obtain ⟨codes, hcodes, rfl⟩ := Option.map_eq_some_iff.1 h
      exact ⟨some codes, .given hcodes, rfl⟩

/-! ## Lists and records -/

/-- The document is a list that says these values in the form, one after another. -/
def ListForm (form : Document → α → Prop) (d : Document) (as : List α) : Prop :=
  ∃ items, d = .list items ∧ List.Forall₂ form items as

theorem forall₂_congr_left {R S : Document → α → Prop} {items : List Document}
    (h : ∀ d ∈ items, ∀ a, R d a ↔ S d a) {as : List α} :
    List.Forall₂ R items as ↔ List.Forall₂ S items as := by
  induction items generalizing as with
  | nil => simp
  | cons d rest ih =>
      rw [List.forall₂_cons_left_iff, List.forall₂_cons_left_iff]
      refine exists_congr fun a => exists_congr fun rest' => ?_
      rw [h d List.mem_cons_self, ih fun d hd => h d (List.mem_cons_of_mem _ hd)]

/-- The items of a JSON document are read exactly if it is a list whose items have the form that
their reading takes. -/
theorem readItems_eq_ok_iff {d : Document} (hd : d.IsJson) {cause : Cause}
    {read : Document → Checked α} {form : Document → α → Prop}
    (hform : ∀ item : Document, item.IsJson → ∀ a, read item = .ok a ↔ form item a)
    {as : List α} : readItems cause read d = .ok as ↔ ListForm form d as := by
  unfold ListForm
  cases hd with
  | list h =>
      simp only [readItems, readItemsFrom_eq_ok_iff, Document.list.injEq, exists_eq_left']
      exact forall₂_congr_left fun item hitem => hform item (h item hitem)
  | _ => simp [readItems, refuse]

/-- What a record says in the field of that name: what the document there says in the form
`form`, or the default if there is none. -/
inductive FieldForm (name : String) (form : Document → α → Prop) (default : Option α)
    (entries : List (Document × Document)) : α → Prop
  | given {d : Document} {a : α} (h : Document.lookup? name entries = some d) (hd : form d a) :
      FieldForm name form default entries a
  | absent {a : α} (h : Document.lookup? name entries = none) (hd : default = some a) :
      FieldForm name form default entries a

/-- A field says a value exactly if it says what determines the value. -/
theorem fieldForm_map_iff {f : α → β} (hf : Function.Injective f) {name : String}
    {form : Document → β → Prop} {default : Option α} {entries : List (Document × Document)}
    {a : α} :
    FieldForm name (fun d a => form d (f a)) default entries a ↔
      FieldForm name form (default.map f) entries (f a) := by
  constructor
  · rintro (⟨h, hd⟩ | ⟨h, rfl⟩)
    · exact .given h hd
    · exact .absent h rfl
  · rintro (⟨h, hd⟩ | ⟨h, hd⟩)
    · exact .given h hd
    · -- the default is the image of one value only
      obtain ⟨b, hb, hba⟩ := Option.map_eq_some_iff.1 hd
      exact .absent h (hf hba ▸ hb)

/-- A field of a JSON record is read exactly if the record says it in the form that its reading
takes. -/
theorem readField_eq_ok_iff {entries : List (Document × Document)}
    (hentries : (Document.map entries).IsJson) {name : String} {read : Document → Checked α}
    {form : Document → α → Prop}
    (hform : ∀ d : Document, d.IsJson → ∀ a, read d = .ok a ↔ form d a)
    {default : Option α} {a : α} :
    readField name read default entries = .ok a ↔ FieldForm name form default entries a := by
  unfold readField
  cases hd : Document.lookup? name entries with
  | some d =>
      rw [within_eq_ok_iff, hform d (hentries.of_lookup? hd)]
      constructor
      · exact fun h => .given hd h
      · rintro (⟨h, hf⟩ | ⟨h, -⟩)
        · rw [hd, Option.some.injEq] at h
          exact h ▸ hf
        · rw [hd] at h
          cases h
  | none =>
      constructor
      · intro h
        cases default with
        | none => simp [within, refuse] at h
        | some b => exact .absent hd (by simpa using h)
      · rintro (⟨h, -⟩ | ⟨-, h⟩)
        · rw [hd] at h
          cases h
        · rw [h]

end Validation

end TabCompletion
