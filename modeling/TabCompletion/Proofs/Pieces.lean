import Mathlib.Data.List.Basic
import TabCompletion.Text.Newline

/-!
# Pieces of a text

`Text.splitAt` cuts a text at the occurrences of a separator, so that no piece has the separator in
it (`notMem_of_mem_splitAt`). Pieces that are put together with the separator between them are
found again exactly if there is one and none of them has the separator in it
(`splitAt_intercalate_eq_iff`).
-/

namespace TabCompletion.Text

variable {sep : Char} {cs : List Char}

theorem splitAt_ne_nil (cs : List Char) : splitAt sep cs ≠ [] := by
  cases cs with
  | nil => nofun
  | cons c cs =>
      unfold splitAt
      split
      · nofun
      · split <;> nofun

theorem splitAt_of_notMem (h : sep ∉ cs) : splitAt sep cs = [cs] := by
  induction cs with
  | nil => rfl
  | cons c cs ih =>
      rw [List.mem_cons, not_or] at h
      rw [splitAt, if_neg (Ne.symm h.1), ih h.2]

theorem splitAt_append_cons (sep : Char) (before after : List Char) :
    splitAt sep (before ++ sep :: after) = splitAt sep before ++ splitAt sep after := by
  induction before with
  | nil => simp [splitAt]
  | cons c before ih =>
      by_cases hc : c = sep
      · simp [splitAt, hc, ih]
      · -- the first piece in front of the separator is not empty
        have hne : splitAt sep before ≠ [] := splitAt_ne_nil before
        obtain ⟨piece, pieces, hpieces⟩ := List.exists_cons_of_ne_nil hne
        simp [splitAt, hc, ih, hpieces]

theorem splitAt_append (h : sep ∉ cs) (rest : List Char) :
    splitAt sep (cs ++ sep :: rest) = cs :: splitAt sep rest := by
  rw [splitAt_append_cons, splitAt_of_notMem h]
  rfl

theorem notMem_of_mem_splitAt {piece : List Char} (h : piece ∈ splitAt sep cs) : sep ∉ piece := by
  induction cs generalizing piece with
  | nil =>
      rw [splitAt, List.mem_singleton] at h
      rw [h]
      nofun
  | cons c cs ih =>
      rw [splitAt] at h
      by_cases hc : c = sep
      · rw [if_pos hc, List.mem_cons] at h
        rcases h with rfl | h
        · nofun
        · exact ih h
      · rw [if_neg hc] at h
        cases hrest : splitAt sep cs with
        | nil => exact absurd hrest (splitAt_ne_nil cs)
        | cons first pieces =>
            rw [hrest] at h ih
            rcases List.mem_cons.1 h with rfl | h
            · -- the first piece has one character more
              rw [List.mem_cons, not_or]
              exact ⟨Ne.symm hc, ih List.mem_cons_self⟩
            · exact ih (List.mem_cons_of_mem _ h)

/-- What is put together from pieces has all of their characters in it. -/
theorem subset_intercalate {between piece : List Char} {pieces : List (List Char)}
    (h : piece ∈ pieces) : piece ⊆ between.intercalate pieces := by
  induction pieces with
  | nil => cases h
  | cons first pieces ih =>
      cases pieces with
      | nil =>
          rw [List.intercalate_singleton, List.mem_singleton.1 h]
          exact List.Subset.refl _
      | cons next pieces =>
          rw [List.intercalate_cons_cons]
          rcases List.mem_cons.1 h with rfl | h
          · rw [List.append_assoc]
            exact List.subset_append_left _ _
          · exact List.subset_append_of_subset_right _ (ih h)

/-- The pieces of a text, put together again, are the text. -/
theorem intercalate_splitAt (sep : Char) (cs : List Char) :
    [sep].intercalate (splitAt sep cs) = cs := by
  induction cs with
  | nil => rfl
  | cons c cs ih =>
      obtain ⟨piece, pieces, hpieces⟩ := List.exists_cons_of_ne_nil (splitAt_ne_nil cs)
      rw [hpieces] at ih
      by_cases hc : c = sep
      · rw [splitAt, if_pos hc, hpieces, List.intercalate_cons_cons, ih, hc]
        rfl
      · rw [splitAt, if_neg hc, hpieces]
        cases pieces with
        | nil =>
            rw [List.intercalate_singleton] at ih ⊢
            rw [ih]
        | cons next pieces =>
            rw [List.intercalate_cons_cons] at ih ⊢
            rw [List.cons_append, List.cons_append, ih]

theorem subset_of_mem_splitAt {piece : List Char} (h : piece ∈ splitAt sep cs) : piece ⊆ cs := by
  have hsubset : piece ⊆ [sep].intercalate (splitAt sep cs) := subset_intercalate h
  rwa [intercalate_splitAt] at hsubset

/-- Characters are kept in the text if each piece is replaced by one that keeps them. -/
theorem filter_intercalate_map {between : List Char} {p : Char → Bool} {f : List Char → List Char}
    (hf : ∀ piece, (f piece).filter p = piece.filter p) (pieces : List (List Char)) :
    (between.intercalate (pieces.map f)).filter p = (between.intercalate pieces).filter p := by
  induction pieces with
  | nil => rfl
  | cons piece pieces ih =>
      cases pieces with
      | nil =>
          rw [List.map_singleton, List.intercalate_singleton, List.intercalate_singleton, hf]
      | cons next pieces =>
          rw [List.map_cons] at ih
          rw [List.map_cons, List.map_cons, List.intercalate_cons_cons,
            List.intercalate_cons_cons]
          simp only [List.filter_append, hf, ih]

/-- A text put together from pieces without the separator falls into these pieces. -/
theorem splitAt_intercalate {pieces : List (List Char)} (hne : pieces ≠ [])
    (h : ∀ piece ∈ pieces, sep ∉ piece) : splitAt sep ([sep].intercalate pieces) = pieces := by
  induction pieces with
  | nil => exact absurd rfl hne
  | cons piece pieces ih =>
      obtain ⟨hpiece, hpieces⟩ := List.forall_mem_cons.1 h
      cases pieces with
      | nil => rw [List.intercalate_singleton, splitAt_of_notMem hpiece]
      | cons next pieces =>
          rw [List.intercalate_cons_cons, List.append_assoc, List.singleton_append,
            splitAt_append hpiece, ih nofun hpieces]

theorem splitAt_intercalate_eq_iff {pieces : List (List Char)} :
    splitAt sep ([sep].intercalate pieces) = pieces ↔
      pieces ≠ [] ∧ ∀ piece ∈ pieces, sep ∉ piece := by
  constructor
  · intro h
    refine ⟨fun hnil => splitAt_ne_nil _ (h.trans hnil), ?_⟩
    rw [← h]
    exact fun piece hpiece => notMem_of_mem_splitAt hpiece
  · rintro ⟨hne, h⟩
    exact splitAt_intercalate hne h

theorem splitLines_eq_iff {s : String} {lines : List String} :
    splitLines s = lines ↔ splitAt '\n' s.toList = lines.map String.toList := by
  constructor
  · rintro rfl
    rw [splitLines, List.map_map]
    have hid : String.toList ∘ String.ofList = id := funext fun _ => String.toList_ofList
    rw [hid, List.map_id]
  · intro h
    rw [splitLines, h, List.map_map]
    have hid : String.ofList ∘ String.toList = id := funext fun _ => String.ofList_toList
    rw [hid, List.map_id]

end TabCompletion.Text
