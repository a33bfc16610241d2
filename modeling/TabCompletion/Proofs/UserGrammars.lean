import TabCompletion.Grammar.Library
import TabCompletion.Proofs.Disk
import TabCompletion.Proofs.Path

/-!
# The grammar files of a user

`Library.Finds` says which files are the grammar files of a user: of the names in the directory
of the user's grammars, those that lead to a file and have one of the suffixes, in the order of
the names; none if there is no directory. These are the files that are found, and they are found
unless a path on the way cannot be looked at (`files_eq_ok_iff`). None of them is ever taken for
an address or for the input (`isLocal_of_finds`).
-/

namespace TabCompletion

/-! ## Choosing from a list -/

/-- All choices have to be made; those that choose something are kept. -/
theorem filterMapM_eq_ok_iff {α β ε : Type} {choose : α → Except ε (Option β)} {l : List α}
    {chosen : List β} :
    l.filterMapM choose = .ok chosen ↔
      (∀ a ∈ l, ∃ o, choose a = .ok o) ∧
        chosen = l.filterMap fun a => (choose a).toOption.join := by
  induction l generalizing chosen with
  | nil =>
      simp only [List.filterMapM_nil, List.filterMap_nil, List.not_mem_nil, false_implies,
        implies_true, true_and]
      exact ⟨fun h => (Except.ok.inj h).symm, fun h => congrArg Except.ok h.symm⟩
  | cons a l ih =>
      rw [List.filterMapM_cons, List.forall_mem_cons, List.filterMap_cons]
      cases ha : choose a with
      | error e =>
          constructor
          · intro h
            cases h
          · rintro ⟨⟨⟨o, ho⟩, -⟩, -⟩
            cases ho
      | ok o =>
          have hfirst : ∃ o', (Except.ok o : Except ε (Option β)) = .ok o' := ⟨o, rfl⟩
          cases o with
          | none =>
              show l.filterMapM choose = .ok chosen ↔ _
              rw [ih]
              exact ⟨fun h => ⟨⟨hfirst, h.1⟩, h.2⟩, fun h => ⟨h.1.2, h.2⟩⟩
          | some b =>
              show (l.filterMapM choose >>= fun rest => pure (b :: rest)) = .ok chosen ↔ _
              cases hrest : l.filterMapM choose with
              | error e =>
                  constructor
                  · intro h
                    cases h
                  · rintro ⟨⟨-, hall⟩, -⟩
                    rw [ih.2 ⟨hall, rfl⟩] at hrest
                    cases hrest
              | ok rest =>
                  obtain ⟨hall, hchosen⟩ := ih.1 hrest
                  constructor
                  · intro h
                    cases h
                    exact ⟨⟨hfirst, hall⟩, congrArg (b :: ·) hchosen⟩
                  · rintro ⟨-, rfl⟩
                    rw [hchosen]
                    rfl

namespace Library

/-- The name in the directory leads to a file, links followed, and is that of a grammar file. -/
def holdsGrammar (h : Host) (directory : Path) (name : String) : Bool :=
  match h.disk.isFile (directory.join name).text with
  | .ok isFile => isFile && isGrammarName (directory.join name)
  | .error _ => false

theorem holdsGrammar_of_isFile {h : Host} {directory : Path} {name : String}
    (hfile : h.disk.isFile (directory.join name).text = .ok true)
    (hnamed : isGrammarName (directory.join name) = true) :
    holdsGrammar h directory name = true := by
  unfold holdsGrammar
  simp only [hfile, hnamed, Bool.and_self]

/-- These are the grammar files of the user. -/
inductive Finds (h : Host) : List Path → Prop
  | nowhere {directory : Path} (hdirectory : h.environment.grammarsDirectory = .ok directory)
      (hnone : h.disk.isDirectory directory.text = .ok false) : Finds h []
  | inDirectory {directory : Path} {place : Place} {names chosen : List String}
      (hdirectory : h.environment.grammarsDirectory = .ok directory)
      (hthere : h.disk.isDirectory directory.text = .ok true)
      (hlist : h.disk.list directory.text = .ok (place, names))
      (hask : ∀ name ∈ names, ∃ isFile, h.disk.isFile (directory.join name).text = .ok isFile)
      (hchosen : chosen.Perm (names.filter (holdsGrammar h directory)))
      (hsorted : chosen.Pairwise (· ≤ ·)) : Finds h (chosen.map directory.join)

theorem nameOrder_iff {a b : String} : nameOrder a b = true ↔ a ≤ b := by
  rw [nameOrder, Bool.not_eq_true', decide_eq_false_iff_not]
  exact String.not_lt

theorem pairwise_mergeSort_nameOrder (names : List String) :
    (names.mergeSort nameOrder).Pairwise (· ≤ ·) := by
  have htrans : ∀ a b c, nameOrder a b = true → nameOrder b c = true → nameOrder a c = true := by
    intro a b c hab hbc
    exact nameOrder_iff.2 (String.le_trans (nameOrder_iff.1 hab) (nameOrder_iff.1 hbc))
  have htotal : ∀ a b, (nameOrder a b || nameOrder b a) = true := by
    intro a b
    rw [Bool.or_eq_true, nameOrder_iff, nameOrder_iff]
    exact String.le_total a b
  exact (List.pairwise_mergeSort htrans htotal names).imp nameOrder_iff.1

/-- A sorted choice from names is the choice from the sorted names. -/
theorem eq_filter_mergeSort {names chosen : List String} {keep : String → Bool}
    (hchosen : chosen.Perm (names.filter keep)) (hsorted : chosen.Pairwise (· ≤ ·)) :
    chosen = (names.mergeSort nameOrder).filter keep := by
  have hperm : chosen.Perm ((names.mergeSort nameOrder).filter keep) :=
    hchosen.trans ((List.mergeSort_perm names nameOrder).filter keep).symm
  exact hperm.eq_of_pairwise (fun a b _ _ => String.le_antisymm) hsorted
    ((pairwise_mergeSort_nameOrder names).filter _)

/-- The file that a name in the directory chooses, if it is that of a grammar file. -/
def choose (h : Host) (directory : Path) (name : String) : Except Fault (Option Path) :=
  (h.disk.isFile (directory.join name).text).map fun isFile =>
    if isFile && isGrammarName (directory.join name) then some (directory.join name) else none

theorem choose_eq_ok_iff {h : Host} {directory : Path} {names : List String} {found : List Path} :
    names.filterMapM (choose h directory) = .ok found ↔
      (∀ name ∈ names, ∃ isFile, h.disk.isFile (directory.join name).text = .ok isFile) ∧
        found = (names.filter (holdsGrammar h directory)).map directory.join := by
  rw [filterMapM_eq_ok_iff]
  refine and_congr (forall₂_congr fun name _ => ?_) ?_
  · unfold choose
    cases h.disk.isFile (directory.join name).text with
    | error fault => exact ⟨fun ⟨_, ho⟩ => (nomatch ho), fun ⟨_, ho⟩ => (nomatch ho)⟩
    | ok isFile => exact ⟨fun _ => ⟨isFile, rfl⟩, fun _ => ⟨_, rfl⟩⟩
  · rw [← List.filterMap_eq_map, List.filterMap_filter]
    refine iff_of_eq (congrArg (found = ·) (List.filterMap_congr fun name _ => ?_))
    unfold choose holdsGrammar
    cases h.disk.isFile (directory.join name).text with
    | error fault => rfl
    | ok isFile => rfl

/-- The files are chosen in the directory of the user's grammars, by the order of the names. -/
theorem files_eq_of_list {h : Host} {directory : Path}
    (hdirectory : h.environment.grammarsDirectory = .ok directory)
    (hthere : h.disk.isDirectory directory.text = .ok true) {place : Place} {names : List String}
    (hlist : h.disk.list directory.text = .ok (place, names)) :
    files h = (names.mergeSort nameOrder).filterMapM (choose h directory) := by
  rw [files, hdirectory]
  dsimp only [bind, Except.bind]
  rw [hthere, hlist]
  simp only [Bool.not_true, Bool.false_eq_true, if_false]
  refine congrArg (List.filterMapM · (names.mergeSort nameOrder)) (funext fun name => ?_)
  unfold choose
  cases h.disk.isFile (directory.join name).text with
  | error fault => rfl
  | ok isFile => exact (apply_ite Except.ok _ _ _).symm

theorem files_eq_nil {h : Host} {directory : Path}
    (hdirectory : h.environment.grammarsDirectory = .ok directory)
    (hnone : h.disk.isDirectory directory.text = .ok false) : files h = .ok [] := by
  rw [files, hdirectory]
  dsimp only [bind, Except.bind]
  rw [hnone]
  rfl

/-- Where files are found there is a directory that can be listed, or none at all. -/
theorem exists_list_of_files {h : Host} {found : List Path} (hfiles : files h = .ok found) :
    ∃ directory, h.environment.grammarsDirectory = .ok directory ∧
      (h.disk.isDirectory directory.text = .ok false ∨
        h.disk.isDirectory directory.text = .ok true ∧
          ∃ place names, h.disk.list directory.text = .ok (place, names)) := by
  unfold files at hfiles
  cases hdirectory : h.environment.grammarsDirectory with
  | error fault =>
      rw [hdirectory] at hfiles
      cases hfiles
  | ok directory =>
      rw [hdirectory] at hfiles
      dsimp only [bind, Except.bind] at hfiles
      refine ⟨directory, rfl, ?_⟩
      cases hask : h.disk.isDirectory directory.text with
      | error fault =>
          rw [hask] at hfiles
          cases hfiles
      | ok isDirectory =>
          cases isDirectory with
          | false => exact .inl rfl
          | true =>
              cases hlist : h.disk.list directory.text with
              | error fault =>
                  rw [hask, hlist] at hfiles
                  cases hfiles
              | ok listed => exact .inr ⟨rfl, listed.1, listed.2, rfl⟩

/-- The files that are found are the grammar files of the user. -/
theorem files_eq_ok_iff {h : Host} {found : List Path} : files h = .ok found ↔ Finds h found := by
  constructor
  · intro hfiles
    obtain ⟨directory, hdirectory, hnone | ⟨hthere, place, names, hlist⟩⟩ :=
      exists_list_of_files hfiles
    · rw [files_eq_nil hdirectory hnone] at hfiles
      cases hfiles
      exact .nowhere hdirectory hnone
    · rw [files_eq_of_list hdirectory hthere hlist] at hfiles
      obtain ⟨hall, rfl⟩ := choose_eq_ok_iff.1 hfiles
      exact .inDirectory hdirectory hthere hlist
        (fun name hname => hall name (List.mem_mergeSort.2 hname))
        ((List.mergeSort_perm _ _).filter _) ((pairwise_mergeSort_nameOrder _).filter _)
  · rintro (⟨hdirectory, hnone⟩ | ⟨hdirectory, hthere, hlist, hask, hchosen, hsorted⟩)
    · exact files_eq_nil hdirectory hnone
    · rw [files_eq_of_list hdirectory hthere hlist, eq_filter_mergeSort hchosen hsorted]
      exact choose_eq_ok_iff.2 ⟨fun name hname => hask name (List.mem_mergeSort.1 hname), rfl⟩

theorem finds_unique {h : Host} {found found' : List Path} (hfound : Finds h found)
    (hfound' : Finds h found') : found = found' :=
  Except.ok.inj ((files_eq_ok_iff.2 hfound).symm.trans (files_eq_ok_iff.2 hfound'))

/-- No grammar file of the user is taken for an address or for the input. -/
theorem isLocal_of_finds {h : Host} {found : List Path} (hfinds : Finds h found) :
    ∀ p ∈ found, Source.isLocal p.text = true := by
  intro p hp
  cases hfinds with
  | nowhere hdirectory hnone => cases hp
  | inDirectory hdirectory hthere hlist hask hchosen hsorted =>
      obtain ⟨name, -, rfl⟩ := List.mem_map.1 hp
      have hproper := Environment.isProper_grammarsDirectory hdirectory
      obtain ⟨q, -, rfl⟩ := Environment.grammarsDirectory_eq_ok_iff.1 hdirectory
      refine (Path.isLocal_text_iff (hproper.join name)).2 fun he => ?_
      rw [Path.join, Path.append] at he
      split at he
      · -- the last name of the directory is still on the path
        have hmem : "grammars" ∈ (q.parts ++ ["grammars"]) ++ (Path.ofText name).parts :=
          List.mem_append_left _ (List.mem_append_right _ List.mem_cons_self)
        rw [(Path.mk.inj he).2] at hmem
        exact absurd hmem (by decide)
      · next hanchor => exact hanchor (congrArg Path.anchor he)

end Library

end TabCompletion
