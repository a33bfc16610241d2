import Mathlib.Data.List.Basic
import TabCompletion.Host.Listing
import TabCompletion.Proofs.Candidates
import TabCompletion.Proofs.Path

/-!
# Typed paths

What is typed of a path falls into what comes before its last slash, if it has one, and the start
of a name (`TypedPath.Cuts`). A name is offered behind what comes before that slash
(`TypedPath.nameBehind`), and the model cuts and offers in this way (`TypedPath.ofText_of_cuts`,
`TypedPath.entry_of_cuts`). A root is typed as one slash or as two, but it is offered with one. So a
name that starts with the start that is typed makes a candidate that starts with all that is typed,
except behind two slashes (`TypedPath.extendsTyped_nameBehind_iff`).
-/

namespace TabCompletion.TypedPath

open Candidates (extendsTyped)

/-! ## The last slash -/

/-- The text is cut at its last slash, into what comes before it and the start of a name. A text
without slashes is the start of a name. -/
inductive Cuts (typed : String) : Option String → String → Prop
  | whole (h : '/' ∉ typed.toList) : Cuts typed none typed
  | behind {before start : String} (htyped : typed = before ++ "/" ++ start)
      (h : '/' ∉ start.toList) : Cuts typed (some before) start

variable {typed start name : String} {before : Option String}

theorem toList_behind (before start : String) :
    (before ++ "/" ++ start).toList = before.toList ++ '/' :: start.toList := by
  rw [String.toList_append, String.toList_append, List.append_assoc]
  rfl

/-- Every text is cut somewhere. -/
theorem exists_cuts (typed : String) : ∃ before start, Cuts typed before start := by
  by_cases h : '/' ∈ typed.toList
  · -- the last slash is the first one from behind
    obtain ⟨behind, front, hreverse, hbehind⟩ :=
      List.eq_append_cons_of_mem (List.mem_reverse.2 h)
    refine ⟨some (String.ofList front.reverse), String.ofList behind.reverse, .behind ?_ ?_⟩
    · apply String.toList_injective
      rw [toList_behind, String.toList_ofList, String.toList_ofList,
        ← List.reverse_reverse typed.toList, hreverse]
      simp
    · rw [String.toList_ofList, List.mem_reverse]
      exact hbehind
  · exact ⟨none, typed, .whole h⟩

/-- What comes before the last slash names a directory; nothing names the root. -/
def directoryBefore : Option String → String
  | none => ""
  | some before => if before = "" then "/" else before

theorem ofText_of_cuts (h : Cuts typed before start) :
    ofText typed = ⟨directoryBefore before, start⟩ := by
  cases h with
  | whole h =>
      unfold ofText
      rw [if_neg fun hslash => h (List.contains_iff_mem.1 hslash)]
      rfl
  | @behind before start htyped h =>
      have hlist : typed.toList = before.toList ++ '/' :: start.toList := by
        rw [htyped, toList_behind]
      have hslash : typed.toList.contains '/' = true := by
        rw [List.contains_iff_mem, hlist]
        exact List.mem_append_right _ List.mem_cons_self
      have hkept : ∀ c ∈ start.toList.reverse, (c != '/') = true := by
        intro c hc
        rw [bne_iff_ne]
        rintro rfl
        exact h (List.mem_reverse.1 hc)
      have hstart : typed.toList.reverse.takeWhile (· != '/') = start.toList.reverse := by
        rw [hlist, List.reverse_append, List.reverse_cons, List.append_assoc,
          List.takeWhile_append_of_pos hkept, List.singleton_append,
          List.takeWhile_cons_of_neg (by decide), List.append_nil]
      have hbefore : typed.toList.take (typed.toList.length - start.toList.length - 1) =
          before.toList := by
        have hlength : typed.toList.length - start.toList.length - 1 = before.toList.length := by
          rw [hlist, List.length_append, List.length_cons]
          omega
        rw [hlength, hlist, List.take_left]
      unfold ofText directoryBefore
      simp only [hslash, if_true, hstart, List.reverse_reverse, hbefore, String.ofList_toList,
        List.isEmpty_iff]
      have hempty : before.toList = [] ↔ before = "" :=
        ⟨fun e => String.toList_injective e, fun e => e ▸ rfl⟩
      simp only [hempty]

/-- A text has but one last slash. -/
theorem Cuts.unique {before' : Option String} {start' : String} (h : Cuts typed before start)
    (h' : Cuts typed before' start') : before = before' := by
  have hstart : start = start' :=
    congrArg TypedPath.start ((ofText_of_cuts h).symm.trans (ofText_of_cuts h'))
  have hmem : ∀ {before start : String}, typed = before ++ "/" ++ start → '/' ∈ typed.toList := by
    rintro before start rfl
    rw [toList_behind]
    exact List.mem_append_right _ List.mem_cons_self
  cases h with
  | whole hno =>
      cases h' with
      | whole _ => rfl
      | behind htyped' _ => exact absurd (hmem htyped') hno
  | behind htyped _ =>
      cases h' with
      | whole hno => exact absurd (hmem htyped) hno
      | behind htyped' _ =>
          have hlist := congrArg String.toList (htyped.symm.trans htyped')
          rw [toList_behind, toList_behind, hstart] at hlist
          exact congrArg some (String.toList_injective (List.append_cancel_right hlist))

/-! ## Names behind it -/

/-- A name behind what comes before the last slash, as it would be typed. Behind a root there is
one slash. -/
def nameBehind (before : Option String) (name : String) : String :=
  match before with
  | none => name
  | some before => if before = "" ∨ before = "/" then "/" ++ name else before ++ "/" ++ name

theorem entry_of_cuts (h : Cuts typed before start) (name : String) :
    (ofText typed).entry name = nameBehind before name := by
  rw [ofText_of_cuts h]
  unfold entry nameBehind directoryBefore
  cases before with
  | none => rfl
  | some before =>
      by_cases hempty : before = ""
      · simp [hempty]
      · by_cases hroot : before = "/" <;> simp [hempty, hroot]

/-- Names behind it have the same front. -/
theorem exists_front (before : Option String) :
    ∃ front : String, ∀ name, nameBehind before name = front ++ name := by
  unfold nameBehind
  cases before with
  | none => exact ⟨"", fun name => String.empty_append.symm⟩
  | some before =>
      by_cases hroot : before = "" ∨ before = "/"
      · exact ⟨"/", fun name => if_pos hroot⟩
      · exact ⟨before ++ "/", fun name => if_neg hroot⟩

theorem nameBehind_injective (before : Option String) {name name' : String}
    (h : nameBehind before name = nameBehind before name') : name = name' := by
  obtain ⟨front, hfront⟩ := exists_front before
  rw [hfront, hfront] at h
  have hlist := congrArg String.toList h
  rw [String.toList_append, String.toList_append] at hlist
  exact String.toList_injective (List.append_cancel_left hlist)

/-- A name is left behind the last slash. -/
theorem nameBehind_ne (before : Option String) (hname : Path.IsName name) :
    nameBehind before name ≠ "" ∧ nameBehind before name ≠ "/" := by
  obtain ⟨front, hfront⟩ := exists_front before
  obtain ⟨c, cs, hc⟩ := List.exists_cons_of_ne_nil
    (fun e => hname.1 (String.toList_injective e) : name.toList ≠ [])
  have hmem : c ∈ (nameBehind before name).toList := by
    rw [hfront, String.toList_append, hc]
    exact List.mem_append_right _ List.mem_cons_self
  refine ⟨fun e => ?_, fun e => ?_⟩
  · rw [e] at hmem
    cases hmem
  · rw [e] at hmem
    have hslash : c = '/' := List.mem_singleton.1 hmem
    refine hname.2.2 ?_
    rw [hc, hslash]
    exact List.mem_cons_self

/-- Two slashes and the start of a name are typed. -/
def IsDoubleRoot (typed : String) : Prop := ∃ start, Cuts typed (some "/") start

theorem Cuts.isDoubleRoot_iff (h : Cuts typed before start) :
    IsDoubleRoot typed ↔ before = some "/" :=
  ⟨fun ⟨_, h'⟩ => h.unique h', fun hroot => ⟨start, hroot ▸ h⟩⟩

/-- What is typed is the start of a name where names would be typed. -/
theorem Cuts.eq_nameBehind (h : Cuts typed before start) (hroot : before ≠ some "/") :
    typed = nameBehind before start := by
  cases h with
  | whole _ => rfl
  | @behind before start htyped _ =>
      rw [htyped, nameBehind]
      by_cases hempty : before = ""
      · simp [hempty]
      · rw [if_neg]
        rintro (hempty' | hroot')
        · exact hempty hempty'
        · exact hroot (congrArg some hroot')

/-- A name that starts with what is typed of it makes a candidate that starts with all that is
typed, whatever comes behind it, unless nothing but two slashes is typed in front of it. -/
theorem extendsTyped_nameBehind_iff (h : Cuts typed before start) (hname : Path.IsName name)
    (hstart : extendsTyped start name = true) (suffix : String) :
    extendsTyped typed (nameBehind before name ++ suffix) = true ↔ before ≠ some "/" := by
  rw [Candidates.extendsTyped_iff] at hstart ⊢
  constructor
  · rintro hprefix rfl
    -- there is but one slash in front of the name
    obtain ⟨c, cs, hc⟩ := List.exists_cons_of_ne_nil
      (fun e => hname.1 (String.toList_injective e) : name.toList ≠ [])
    cases h with
    | behind htyped _ =>
        have hlist : (nameBehind (some "/") name ++ suffix).toList =
            '/' :: c :: (cs ++ suffix.toList) := by
          rw [nameBehind, if_pos (.inr rfl), String.toList_append, String.toList_append, hc]
          rfl
        rw [htyped, toList_behind, hlist] at hprefix
        have hslash : '/' = c := (List.cons_prefix_cons.1 (List.cons_prefix_cons.1 hprefix).2).1
        refine hname.2.2 ?_
        rw [hc, ← hslash]
        exact List.mem_cons_self
  · intro hroot
    obtain ⟨front, hfront⟩ := exists_front before
    rw [h.eq_nameBehind hroot, hfront, hfront, String.toList_append, String.toList_append,
      String.toList_append, List.append_assoc]
    exact (List.prefix_append_right_inj _).2 (hstart.trans (List.prefix_append _ _))

end TabCompletion.TypedPath
