import TabCompletion.Proofs.JsonLineEnds
import TabCompletion.Proofs.Validation

/-!
# What JSON texts say

The document that is read from a JSON text is one that JSON can say: its keys are strings, and
nothing in it is a date, a set or bytes (`Json.isJson_of_readChars`).
-/

namespace TabCompletion

namespace Document

/-- The document is a string. -/
def IsString (d : Document) : Prop := (∃ s, d = .text s) ∨ ∃ codes, d = .brokenText codes

/-- The entry has a string for its key, and a document for its value that JSON can say. -/
def IsJsonEntry (e : Document × Document) : Prop := e.1.IsString ∧ e.2.IsJson

theorem isString_ofCodes (codes : List Nat) : (ofCodes codes).IsString := by
  unfold ofCodes
  split
  · exact .inl ⟨_, rfl⟩
  · exact .inr ⟨_, rfl⟩

theorem IsString.isJson {d : Document} (h : d.IsString) : d.IsJson := by
  obtain ⟨s, rfl⟩ | ⟨codes, rfl⟩ := h
  · exact .text s
  · exact .brokenText codes

theorem isJsonEntry_insert {entries : List (Document × Document)} {key value : Document}
    (hentries : ∀ e ∈ entries, IsJsonEntry e) (h : IsJsonEntry (key, value)) :
    ∀ e ∈ insert key value entries, IsJsonEntry e := by
  induction entries with
  | nil => simpa [insert] using h
  | cons first rest ih =>
      obtain ⟨hfirst, hrest⟩ := List.forall_mem_cons.1 hentries
      rw [insert]
      split
      · -- the first entry keeps its key
        exact List.forall_mem_cons.2 ⟨⟨hfirst.1, h.2⟩, hrest⟩
      · exact List.forall_mem_cons.2 ⟨hfirst, ih hrest⟩

theorem isJsonEntry_ofEntries {entries : List (Document × Document)}
    (h : ∀ e ∈ entries, IsJsonEntry e) : ∀ e ∈ ofEntries entries, IsJsonEntry e := by
  have hnone : ∀ e ∈ ([] : List (Document × Document)), IsJsonEntry e := nofun
  exact List.foldlRecOn (motive := fun done => ∀ e ∈ done, IsJsonEntry e) entries _ hnone
    fun done hdone e he => isJsonEntry_insert hdone (h e he)

theorem isJson_map {entries : List (Document × Document)} (h : ∀ e ∈ entries, IsJsonEntry e) :
    (Document.map entries).IsJson :=
  .map (fun e he => (h e he).1) fun e he => (h e he).2

end Document

namespace Json

open Document

/-! ## Steps of reading -/

/-- Whatever the step reads is as said. -/
def Step.Gives {α : Type} (step : Step α) (p : α → Prop) : Prop :=
  ∀ a next, step = .ok (a, next) → p a

namespace Step.Gives

variable {α β : Type} {p q : α → Prop} {r : β → Prop} {step step' : Step α}

theorem ok {a : α} (h : p a) (next : Cursor) : Step.Gives (.ok (a, next)) p := by
  rintro b next ⟨⟩
  exact h

theorem error (problem : Problem × Nat) : Step.Gives (.error problem) p := nofun

theorem mono (h : step.Gives p) (hpq : ∀ a, p a → q a) : step.Gives q :=
  fun a next hread => hpq a (h a next hread)

theorem bind {f : α × Cursor → Step β} (h : step.Gives p)
    (hf : ∀ a next, p a → Step.Gives (f (a, next)) r) : Step.Gives (step.bind f) r := by
  cases step with
  | error problem => exact error problem
  | ok read => exact hf read.1 read.2 (h read.1 read.2 rfl)

theorem map {f : α → β} (h : step.Gives p) (hf : ∀ a, p a → r (f a)) :
    Step.Gives (step.map (Prod.map f id)) r := by
  cases step with
  | error problem => exact error problem
  | ok read => exact ok (hf _ (h read.1 read.2 rfl)) read.2

theorem ite {c : Prop} [Decidable c] (h : step.Gives p) (h' : step'.Gives p) :
    Step.Gives (if c then step else step') p := by
  split
  · exact h
  · exact h'

end Step.Gives

/-! ## Values -/

theorem isString_readText (cur : Cursor) : (readText cur).Gives IsString := by
  unfold readText
  split
  · exact .error _
  · exact .ok (isString_ofCodes _) _

theorem isJson_of_readKeyword {cs : List Char} {d : Document} {n : Nat}
    (h : readKeyword cs = some (d, n)) : d.IsJson := by
  have hkeywords : ∀ keyword ∈ keywords, keyword.2.IsJson := by
    simp only [keywords, List.forall_mem_cons, List.not_mem_nil, false_implies, implies_true,
      and_true]
    exact ⟨.null, .bool _, .bool _, .float _, .float _, .float _⟩
  obtain ⟨keyword, hfind, hkeyword⟩ := Option.map_eq_some_iff.1 h
  cases hkeyword
  exact hkeywords keyword (List.mem_of_find?_eq_some hfind)

theorem isJson_of_value {n : Numeral} {d : Document} (h : n.value = .ok d) : d.IsJson := by
  unfold Numeral.value at h
  split at h
  · split at h
    · cases h
    · cases h
      exact .int _
  · cases h
    exact .float _

theorem isJson_readWord (cur : Cursor) : (readWord cur).Gives IsJson := by
  unfold readWord
  split
  · next hkeyword => exact .ok (isJson_of_readKeyword hkeyword) _
  · split
    · split
      · next hvalue => exact .ok (isJson_of_value hvalue) _
      · exact .error _
    · exact .error _

/-- All that is read with that much fuel is what JSON can say. -/
structure ReadsJson (fuel : Nat) : Prop where
  value : ∀ cur, (readValue fuel cur).Gives IsJson
  items : ∀ cur, (readItems fuel cur).Gives fun items => ∀ d ∈ items, d.IsJson
  entries : ∀ cur, (readEntries fuel cur).Gives fun entries => ∀ e ∈ entries, IsJsonEntry e

namespace ReadsJson

variable {fuel : Nat} (ih : ReadsJson fuel)

include ih

theorem value_succ (cur : Cursor) : (readValue (fuel + 1) cur).Gives IsJson := by
  rw [readValue_succ]
  refine .ite ((isString_readText cur).mono fun _ => IsString.isJson)
    (.ite (.ite (.ok ?_ _) ?_) (.ite (.ite (.ok ?_ _) ?_) (isJson_readWord cur)))
  · exact .list (by simp)
  · exact (ih.items _).map fun items => .list
  · exact isJson_map (by simp)
  · -- of entries with one key the last value is kept, with the first key
    exact (ih.entries _).map fun entries h => isJson_map (isJsonEntry_ofEntries h)

theorem items_succ (cur : Cursor) :
    (readItems (fuel + 1) cur).Gives fun items => ∀ d ∈ items, d.IsJson := by
  rw [readItems_succ]
  refine (ih.value cur).bind fun d next hd => .ite (.ok ?_ _) (.ite ?_ (.error _))
  · simpa using hd
  · exact (ih.items _).map fun items h => List.forall_mem_cons.2 ⟨hd, h⟩

theorem entries_succ (cur : Cursor) :
    (readEntries (fuel + 1) cur).Gives fun entries => ∀ e ∈ entries, IsJsonEntry e := by
  rw [readEntries_succ]
  refine .ite ((isString_readText cur).bind fun key next hkey => .ite ?_ (.error _)) (.error _)
  refine (ih.value _).bind fun d last hd => .ite (.ok ?_ _) (.ite ?_ (.error _))
  · simpa using ⟨hkey, hd⟩
  · exact (ih.entries _).map fun entries h => List.forall_mem_cons.2 ⟨⟨hkey, hd⟩, h⟩

end ReadsJson

theorem readsJson (fuel : Nat) : ReadsJson fuel := by
  induction fuel with
  | zero =>
      -- without fuel nothing is read
      constructor <;> intro cur
      · rw [readValue]
        exact .error _
      · rw [readItems]
        exact .error _
      · rw [readEntries]
        exact .error _
  | succ fuel ih => exact ⟨ih.value_succ, ih.items_succ, ih.entries_succ⟩

/-- A document that is read from a text is one that JSON can say. -/
theorem isJson_of_readChars {cs : List Char} {d : Document} (h : readChars cs = .ok d) :
    d.IsJson := by
  unfold readChars at h
  split at h
  · cases h
  · split at h
    · cases h
    · next value next hvalue =>
        dsimp only at h
        split at h
        · cases h
          exact (readsJson _).value _ _ _ hvalue
        · cases h

end Json

end TabCompletion
