import Mathlib.Data.List.Basic

/-!
# Lists without repetition

`List.eraseDups` keeps the first of equal members of a list. Nothing repeats in what it keeps
(`nodup_eraseDups`), and this comes in the order in which it first came in the list
(`pairwise_idxOf_eraseDups`). Members may be picked out before or after that with one result
(`filter_eraseDups`).
-/

namespace TabCompletion

theorem eraseDups_eq_self {l : List String} (hl : l.Nodup) : l.eraseDups = l := by
  induction l with
  | nil => rfl
  | cons a l ih =>
      obtain ⟨ha, hl⟩ := List.nodup_cons.1 hl
      have hfilter : l.filter (fun b => !b == a) = l := by
        refine List.filter_eq_self.2 fun b hb => ?_
        have hne : b ≠ a := fun e => ha (e ▸ hb)
        simpa using hne
      rw [List.eraseDups_cons, hfilter, ih hl]

theorem eraseDups_append_cons (l : List String) (a : String) (rest : List String) :
    (l ++ a :: rest).eraseDups = ((if a ∈ l then l else l ++ [a]) ++ rest).eraseDups := by
  -- by `eraseDups_append`, only the part of the second list that is not in the first counts
  by_cases ha : a ∈ l
  · rw [if_pos ha, List.eraseDups_append, List.eraseDups_append]
    congr 2
    simp [List.removeAll, ha]
  · rw [if_neg ha, List.append_assoc]
    rfl

theorem filter_eraseDups (p : String → Bool) (l : List String) :
    l.eraseDups.filter p = (l.filter p).eraseDups := by
  cases l with
  | nil => rfl
  | cons a l =>
      have ih := filter_eraseDups p (l.filter fun b => !b == a)
      rw [List.filter_filter] at ih
      rw [List.eraseDups_cons, List.filter_cons, List.filter_cons]
      cases ha : p a with
      | true =>
          -- the first element is kept, and what equals it is left out on both sides
          simp only [if_true, List.eraseDups_cons, ih, List.filter_filter, Bool.and_comm]
      | false =>
          -- it is left out, and so is all that equals it
          have hrest : l.filter (fun b => p b && !b == a) = l.filter p := by
            refine List.filter_congr fun b _ => ?_
            cases hb : p b with
            | false => rfl
            | true =>
                have hne : b ≠ a := fun e => by rw [e, ha] at hb; cases hb
                simpa using hne
          simp only [Bool.false_eq_true, if_false, ih, hrest]
  termination_by l.length
  decreasing_by exact Nat.lt_succ_of_le (List.length_filter_le _ _)

/-- What is kept comes in the order in which it first came. -/
theorem pairwise_idxOf_eraseDups (l : List String) :
    l.eraseDups.Pairwise fun a b => l.idxOf a < l.idxOf b := by
  induction l with
  | nil => exact List.Pairwise.nil
  | cons a l ih =>
      rw [List.eraseDups_cons, ← filter_eraseDups]
      -- behind the first member there are only others, one place further on than in the rest
      have hplace : ∀ b ∈ l.eraseDups.filter (fun b => !b == a),
          (a :: l).idxOf b = l.idxOf b + 1 := by
        intro b hb
        have hne : a ≠ b := by
          rintro rfl
          simp at hb
        exact List.idxOf_cons_ne l hne
      refine List.pairwise_cons.2 ⟨?_, ?_⟩
      · intro b hb
        rw [List.idxOf_cons_self, hplace b hb]
        exact Nat.succ_pos _
      · apply (ih.filter _).imp_of_mem
        intro b c hb hc hlt
        rw [hplace b hb, hplace c hc]
        exact Nat.succ_lt_succ hlt

theorem nodup_eraseDups (l : List String) : l.eraseDups.Nodup := by
  apply (pairwise_idxOf_eraseDups l).imp
  rintro a b hlt rfl
  exact Nat.lt_irrefl _ hlt

theorem eraseDups_sublist (l : List String) : l.eraseDups.Sublist l := by
  induction l with
  | nil => exact List.Sublist.slnil
  | cons a l ih =>
      rw [List.eraseDups_cons, ← filter_eraseDups]
      exact (List.filter_sublist.trans ih).cons_cons a

end TabCompletion
