import TabCompletion.Candidates
import TabCompletion.Proofs.Distinct

/-!
# Filtering candidates

`Candidates.filter` goes through the candidates once and remembers what it has kept. This is the
list of the candidates that begin with what is typed, with all but the first of equal ones left out
(`filter_eq_eraseDups`). `IsFiltered` says of a list, without going through the candidates, that it
holds what is to be kept, in the order in which it first comes. The main statement is that there is
one such list, and that it is the filtered one (`filter_eq_iff`).
-/

namespace TabCompletion.Candidates

/-! ## The loop and what it remembers -/

/-- The candidate is still to be kept: it begins with what is typed and is not in `seen`. -/
def isNew (typed : String) (seen : List String) (c : String) : Bool :=
  extendsTyped typed c && !seen.contains c

theorem not_isNew (typed : String) (seen : List String) (c : String) :
    (seen.contains c || !extendsTyped typed c) = !isNew typed seen c := by
  unfold isNew
  cases seen.contains c <;> cases extendsTyped typed c <;> rfl

theorem isNew_cons (typed : String) (seen : List String) (c d : String) :
    isNew typed (c :: seen) d = (!d == c && isNew typed seen d) := by
  unfold isNew
  rw [List.contains_cons]
  cases d == c <;> cases extendsTyped typed d <;> cases seen.contains d <;> rfl

/-- Of the candidates still to come, the first of each new one is kept. -/
theorem filterFrom_eq_eraseDups (typed : String) (candidates : List String) :
    ∀ seen : List String, filterFrom typed seen candidates =
      (candidates.filter (isNew typed seen)).eraseDups := by
  induction candidates with
  | nil => intro seen; rfl
  | cons c rest ih =>
      intro seen
      rw [filterFrom, not_isNew]
      cases hc : isNew typed seen c with
      | false =>
          -- the candidate is passed over on both sides
          simp [hc, ih seen]
      | true =>
          -- it is kept, and what equals it is no longer new behind it
          have hrest : rest.filter (isNew typed (c :: seen)) =
              (rest.filter (isNew typed seen)).filter (fun d => !d == c) := by
            rw [List.filter_filter]
            exact List.filter_congr fun d _ => isNew_cons typed seen c d
          simp [hc, ih (c :: seen), hrest, List.eraseDups_cons]

/-- The kept candidates are those that begin with what is typed, each at its first place. -/
theorem filter_eq_eraseDups (candidates : List String) (typed : String) :
    filter candidates typed = (candidates.filter (extendsTyped typed)).eraseDups := by
  have hnew : isNew typed [] = extendsTyped typed := by
    funext c
    simp [isNew]
  rw [filter, filterFrom_eq_eraseDups, hnew]

/-! ## What is kept -/

theorem extendsTyped_iff {typed c : String} :
    extendsTyped typed c = true ↔ typed.toList <+: c.toList := by
  rw [extendsTyped, List.isPrefixOf_iff_prefix]

theorem extendsTyped_of_append {typed more c : String} (h : extendsTyped (typed ++ more) c = true) :
    extendsTyped typed c = true := by
  rw [extendsTyped_iff, String.toList_append] at h
  exact extendsTyped_iff.2 ((List.prefix_append _ _).trans h)

section

variable (candidates : List String) (typed : String)

theorem nodup_filter : (filter candidates typed).Nodup := by
  rw [filter_eq_eraseDups]
  exact nodup_eraseDups _

theorem mem_filter_iff {c : String} :
    c ∈ filter candidates typed ↔ c ∈ candidates ∧ typed.toList <+: c.toList := by
  rw [filter_eq_eraseDups, List.mem_eraseDups, List.mem_filter, extendsTyped_iff]

theorem pairwise_idxOf_filter :
    (filter candidates typed).Pairwise fun c d => candidates.idxOf c < candidates.idxOf d := by
  rw [filter_eq_eraseDups, ← filter_eraseDups]
  exact (pairwise_idxOf_eraseDups candidates).filter _

theorem filter_sublist : (filter candidates typed).Sublist candidates := by
  rw [filter_eq_eraseDups]
  exact (eraseDups_sublist _).trans List.filter_sublist

/-- Candidates without repetition are only picked out. -/
theorem filter_of_nodup {candidates : List String} (h : candidates.Nodup) (typed : String) :
    filter candidates typed = candidates.filter (extendsTyped typed) := by
  rw [filter_eq_eraseDups, eraseDups_eq_self (h.filter _)]

/-- What is kept for a longer word is kept of what was kept for a shorter one. -/
theorem filter_filter (more : String) :
    filter (filter candidates typed) (typed ++ more) = filter candidates (typed ++ more) := by
  have hnarrow : ∀ c, (extendsTyped (typed ++ more) c && extendsTyped typed c) =
      extendsTyped (typed ++ more) c := by
    intro c
    cases hc : extendsTyped (typed ++ more) c with
    | false => rfl
    | true => rw [extendsTyped_of_append hc]; rfl
  rw [filter_of_nodup (nodup_filter candidates typed), filter_eq_eraseDups, filter_eraseDups,
    List.filter_filter, filter_eq_eraseDups]
  simp only [hnarrow]

/-- Of more candidates behind the first ones those are added that are not kept yet. -/
theorem filter_append (more : List String) :
    filter (candidates ++ more) typed =
      filter candidates typed ++
        (filter more typed).filter fun c => c ∉ filter candidates typed := by
  have hkept : ∀ c, (!List.elem c (candidates.filter (extendsTyped typed))) =
      decide (c ∉ filter candidates typed) := by
    intro c
    simp only [filter_eq_eraseDups, List.mem_eraseDups, List.elem_eq_mem, decide_not]
  rw [filter_eq_eraseDups (candidates ++ more), List.filter_append, List.eraseDups_append,
    filter_eq_eraseDups more, filter_eraseDups, ← filter_eq_eraseDups, List.removeAll]
  simp only [hkept]

end

/-! ## The one list that is to be kept -/

/-- The list holds the candidates that begin with what is typed, each once, in the order in which
they first come. -/
structure IsFiltered (candidates : List String) (typed : String) (kept : List String) : Prop where
  nodup : kept.Nodup
  mem_iff : ∀ c, c ∈ kept ↔ c ∈ candidates ∧ typed.toList <+: c.toList
  ordered : kept.Pairwise fun c d => candidates.idxOf c < candidates.idxOf d

theorem isFiltered_filter (candidates : List String) (typed : String) :
    IsFiltered candidates typed (filter candidates typed) where
  nodup := nodup_filter candidates typed
  mem_iff _ := mem_filter_iff candidates typed
  ordered := pairwise_idxOf_filter candidates typed

/-- Two lists of the same candidates in the same order are the same. -/
theorem IsFiltered.unique {candidates kept kept' : List String} {typed : String}
    (h : IsFiltered candidates typed kept) (h' : IsFiltered candidates typed kept') :
    kept = kept' := by
  have hperm : kept.Perm kept' := by
    refine (List.perm_ext_iff_of_nodup h.nodup h'.nodup).2 fun c => ?_
    rw [h.mem_iff, h'.mem_iff]
  refine hperm.eq_of_pairwise ?_ h.ordered h'.ordered
  -- no candidate comes before another one and behind it
  intro c d _ _ hbefore hbehind
  exact absurd hbehind (Nat.lt_asymm hbefore)

/-- Filtering gives the one list that holds, without repetition, the candidates that begin with
what is typed, in the order in which they first come. It leaves out candidates and does nothing
else, a second time nothing at all; and it may go on behind candidates that it has been through. -/
theorem filter_eq_iff (candidates : List String) (typed : String) :
    (∀ kept, filter candidates typed = kept ↔ IsFiltered candidates typed kept) ∧
      (filter candidates typed).Sublist candidates ∧
      filter (filter candidates typed) typed = filter candidates typed ∧
      ∀ more, filter (candidates ++ more) typed =
        filter candidates typed ++
          (filter more typed).filter fun c => c ∉ filter candidates typed := by
  refine ⟨fun kept => ⟨?_, fun h => ?_⟩, filter_sublist candidates typed, ?_,
    filter_append candidates typed⟩
  · rintro rfl
    exact isFiltered_filter candidates typed
  · exact (isFiltered_filter candidates typed).unique h
  · have hagain := filter_filter candidates typed ""
    rwa [String.append_empty] at hagain

example : filter ["--port", "-p", "--peer", "--port", "--p"] "--p" =
    ["--port", "--peer", "--p"] := by decide

end TabCompletion.Candidates
