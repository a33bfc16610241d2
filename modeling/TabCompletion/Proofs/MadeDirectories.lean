import TabCompletion.Proofs.Disk
import TabCompletion.Proofs.Path

/-!
# Directories that are made

The directory at a path is made with the directories on the way to it. If one of them cannot be
made, those before it stay. Whatever happens, all that was there stays as it is, and all that is
new are directories to which paths on the way lead (`Disk.ensures_ensureDirectory`).
-/

namespace TabCompletion

/-- The first path is the second one or lies on the way to it. -/
def Path.LiesOn (q p : Path) : Prop := q.anchor = p.anchor ∧ q.parts <+: p.parts

namespace Path.LiesOn

variable {o q p : Path}

theorem refl (p : Path) : p.LiesOn p := ⟨rfl, List.prefix_rfl⟩

theorem trans (h : o.LiesOn q) (h' : q.LiesOn p) : o.LiesOn p :=
  ⟨h.1.trans h'.1, h.2.trans h'.2⟩

theorem parent (p : Path) : p.parent.LiesOn p := ⟨rfl, List.dropLast_prefix _⟩

end Path.LiesOn

namespace Tree

/-! ## Trees with more entries -/

/-- Every entry of the first tree stands in the second. -/
def Within (t t' : Tree) : Prop := ∀ place e, t.entry? place = some e → t'.entry? place = some e

theorem Within.refl (t : Tree) : t.Within t := fun _ _ h => h

theorem Within.trans {t t' t'' : Tree} (h : t.Within t') (h' : t'.Within t'') : t.Within t'' :=
  fun place e he => h' place e (h place e he)

section

variable {t t' : Tree} {follow follow' : Bool} {links : Nat} {here place directory : Place}
  {names rest : List String} {name : String} {e : Entry}

/-- A link is followed unless the walk ends at it and does not ask for it. -/
theorem goes_of_not (h : ¬ (rest.isEmpty && !follow) = true) : rest ≠ [] ∨ follow = true := by
  cases follow with
  | true => exact .inr rfl
  | false => exact .inl fun hempty => h (by rw [hempty]; rfl)

/-- A walk that comes to an entry comes to it in a tree with more entries too. -/
theorem Within.walk (h : t.Within t')
    (hwalk : t.walk follow links here names = .ok (.found place e)) :
    t'.walk follow links here names = .ok (.found place e) := by
  -- each step of the walk meets an entry, which stands in the second tree too
  fun_induction Tree.walk t follow links here names with
  | case1 => rwa [walk_nil]
  | case2 _ _ _ ih =>
      rw [Tree.walk, if_pos rfl]
      exact ih hwalk
  | case3 _ _ _ _ ih =>
      rw [Tree.walk, if_neg (by decide), if_pos rfl]
      exact ih hwalk
  | case7 _ _ _ _ hdot hup hshort hentry ih =>
      rw [walk_directory ⟨hdot, hup, Nat.not_lt.1 hshort⟩ (h _ _ hentry)]
      exact ih hwalk
  | case8 _ _ _ _ hdot hup hshort bytes hentry hend =>
      rw [List.isEmpty_iff.1 hend, walk_file ⟨hdot, hup, Nat.not_lt.1 hshort⟩ bytes (h _ _ hentry)]
      exact hwalk
  | case10 _ _ _ _ hdot hup hshort _ hentry hend =>
      obtain ⟨hempty, hstop⟩ := Bool.and_eq_true_iff.1 hend
      have hfollow : follow = false := by simpa using hstop
      rw [List.isEmpty_iff.1 hempty, hfollow,
        walk_link_at_end ⟨hdot, hup, Nat.not_lt.1 hshort⟩ (h _ _ hentry)]
      exact hwalk
  | case12 _ _ _ hdot hup hshort _ hentry hgoes _ ih =>
      rw [walk_link ⟨hdot, hup, Nat.not_lt.1 hshort⟩ (h _ _ hentry) (goes_of_not hgoes)]
      exact ih hwalk
  | _ => cases hwalk

/-- A walk that comes to a place where nothing stands comes to what stands there in another tree
with more entries, unless that is a link. -/
theorem Within.walk_of_absent (h : t.Within t')
    (hwalk : t.walk follow links here names = .ok (.absent directory name))
    (hentry : t'.entry? (directory ++ [name]) = some e) (hlink : ∀ target, e ≠ .link target)
    (hfollow : follow = true → follow' = true) :
    t'.walk follow' links here names = .ok (.found (directory ++ [name]) e) := by
  -- only the last step meets nothing in the first tree
  fun_induction Tree.walk t follow links here names with
  | case2 _ _ _ ih =>
      rw [Tree.walk, if_pos rfl]
      exact ih hwalk
  | case3 _ _ _ _ ih =>
      rw [Tree.walk, if_neg (by decide), if_pos rfl]
      exact ih hwalk
  | case5 _ _ _ _ hdot hup hshort _ hend =>
      cases hwalk
      have hname : IsEntryName name := ⟨hdot, hup, Nat.not_lt.1 hshort⟩
      rw [List.isEmpty_iff.1 hend]
      exact walk_entry hname hentry hlink
  | case7 _ _ _ _ hdot hup hshort hentry ih =>
      rw [walk_directory ⟨hdot, hup, Nat.not_lt.1 hshort⟩ (h _ _ hentry)]
      exact ih hwalk
  | case12 _ _ _ hdot hup hshort _ hentry hgoes _ ih =>
      rw [walk_link ⟨hdot, hup, Nat.not_lt.1 hshort⟩ (h _ _ hentry)
        ((goes_of_not hgoes).imp_right hfollow)]
      exact ih hwalk
  | _ => cases hwalk

/-- Nothing stands where a walk finds nothing. -/
theorem entry?_of_absent (hwalk : t.walk follow links here names = .ok (.absent directory name)) :
    t.entry? (directory ++ [name]) = none := by
  fun_induction Tree.walk t follow links here names with
  | case2 _ _ _ ih => exact ih hwalk
  | case3 _ _ _ _ ih => exact ih hwalk
  | case5 _ _ _ _ _ _ _ hentry _ =>
      cases hwalk
      exact hentry
  | case7 _ _ _ _ _ _ _ _ ih => exact ih hwalk
  | case12 _ _ _ _ _ _ _ _ _ _ ih => exact ih hwalk
  | _ => cases hwalk

/-- A new entry leaves all others where they are. -/
theorem within_set (h : t.entry? place = none) (e : Entry) : t.Within (t.set place e) := by
  intro q f hq
  rw [entry?_set_of_ne]
  · exact hq
  · rintro rfl
    rw [h] at hq
    cases hq

end

end Tree

namespace Disk

/-! ## Paths on a disk -/

/-- The directory in which the walk to a path starts. -/
def startAt (d : Disk) (anchor : Path.Anchor) : Place := if anchor = .here then d.cwd else []

theorem locate_text_eq_ok_iff {d : Disk} {path : Path} (hpath : path.IsProper) {follow : Bool}
    {located : Tree.Located} :
    d.locate follow path.text = .ok located ↔ IsPath path.text ∧
      d.tree.walk follow Tree.maxLinks (d.startAt path.anchor) path.parts = .ok located := by
  have hstart : d.startOf path.text = d.startAt path.anchor := by
    unfold startOf startAt
    by_cases hhere : path.anchor = .here
    · rw [if_pos hhere, if_neg fun h => (Path.startsAtRoot_text_iff hpath).1 h hhere]
    · rw [if_neg hhere, if_pos ((Path.startsAtRoot_text_iff hpath).2 hhere)]
  rw [locate_eq_ok_iff, hstart, Path.stepsOf_text hpath]

/-! ## Disks with more directories -/

/-- The second disk has all entries of the first, and the system refuses what it did. Besides them
it has only directories to which paths lead that are on the way to a path. -/
structure MakesWay (d d' : Disk) (p : Path) : Prop where
  cwd : d'.cwd = d.cwd
  refusals : d'.refusals = d.refusals
  kept : d.tree.Within d'.tree
  made : ∀ place e, d'.tree.entry? place = some e → d.tree.entry? place = none →
    e = .directory ∧ ∃ q : Path, q.LiesOn p ∧
      d'.locate true q.text = .ok (.found place .directory)

section

variable {d d' d'' : Disk} {p q : Path} {place directory : Place} {name path : String} {e : Entry}

theorem startOf_congr (h : d'.cwd = d.cwd) (path : String) : d'.startOf path = d.startOf path := by
  rw [startOf, startOf, h]

/-- A path that leads to an entry leads to it on a disk with more entries too. -/
theorem locate_of_within (hcwd : d'.cwd = d.cwd) (h : d.tree.Within d'.tree) {follow : Bool}
    (hlocate : d.locate follow path = .ok (.found place e)) :
    d'.locate follow path = .ok (.found place e) := by
  rw [locate_eq_ok_iff] at hlocate ⊢
  -- both walks start in the same directory
  rw [startOf_congr hcwd]
  exact ⟨hlocate.1, h.walk hlocate.2⟩

theorem MakesWay.refl (d : Disk) (p : Path) : d.MakesWay d p where
  cwd := rfl
  refusals := rfl
  kept := .refl _
  made := by
    intro place e he hnone
    rw [hnone] at he
    cases he

theorem MakesWay.mono (h : d.MakesWay d' q) (hq : q.LiesOn p) : d.MakesWay d' p where
  cwd := h.cwd
  refusals := h.refusals
  kept := h.kept
  made := by
    intro place e he hnone
    obtain ⟨hdirectory, o, ho, hlocate⟩ := h.made place e he hnone
    exact ⟨hdirectory, o, ho.trans hq, hlocate⟩

theorem MakesWay.trans (h : d.MakesWay d' p) (h' : d'.MakesWay d'' p) : d.MakesWay d'' p where
  cwd := h'.cwd.trans h.cwd
  refusals := h'.refusals.trans h.refusals
  kept := h.kept.trans h'.kept
  made := by
    intro place e he hnone
    cases hbetween : d'.tree.entry? place with
    | none => exact h'.made place e he hbetween
    | some f =>
        -- it was made before, and paths still lead to it
        obtain ⟨rfl, q, hq, hlocate⟩ := h.made place f hbetween hnone
        rw [h'.kept place _ hbetween] at he
        cases he
        exact ⟨rfl, q, hq, locate_of_within h'.cwd h'.kept hlocate⟩

/-- Making a directory puts it at a place at which nothing stood. -/
theorem makeDirectory_eq_ok_iff :
    d.makeDirectory path = .ok d' ↔ d.Grants .make path ∧ ∃ directory name,
      d.locate false path = .ok (.absent directory name) ∧
        d' = d.withTree (d.tree.set (directory ++ [name]) .directory) := by
  rw [makeDirectory, granted_eq_ok_iff, and_congr_right_iff]
  intro _
  cases d.locate false path with
  | error fault => simp
  | ok located => cases located <;> simp [eq_comm]

/-- The path of a directory that is made leads to it. -/
theorem exists_place_of_makeDirectory (h : d.makeDirectory path = .ok d') : ∃ place,
    place ≠ [] ∧ d.tree.entry? place = none ∧
      d' = d.withTree (d.tree.set place .directory) ∧
      d'.locate true path = .ok (.found place .directory) := by
  obtain ⟨-, directory, name, hlocate, rfl⟩ := makeDirectory_eq_ok_iff.1 h
  obtain ⟨hpath, hwalk⟩ := locate_eq_ok_iff.1 hlocate
  have hnone := Tree.entry?_of_absent hwalk
  have hne : directory ++ [name] ≠ [] := by simp
  -- nothing stood at the end of the path, so no link is followed there
  refine ⟨_, hne, hnone, rfl, locate_eq_ok_iff.2 ⟨hpath, ?_⟩⟩
  exact (Tree.within_set hnone _).walk_of_absent hwalk (Tree.entry?_set_self hne) nofun nofun

theorem makesWay_makeDirectory (h : d.makeDirectory p.text = .ok d') : d.MakesWay d' p := by
  obtain ⟨place, hne, hnone, rfl, hlocate⟩ := exists_place_of_makeDirectory h
  refine ⟨rfl, rfl, Tree.within_set hnone _, fun q e he hq => ?_⟩
  -- the new directory is the only new entry
  have hplace : q = place := by
    refine Classical.byContradiction fun hother => ?_
    rw [withTree, Tree.entry?_set_of_ne hother, hq] at he
    cases he
  rw [hplace, withTree, Tree.entry?_set_self hne] at he
  cases he
  rw [hplace]
  exact ⟨rfl, p, .refl p, hlocate⟩

theorem unlessDirectory_eq_ok {fault : Fault} (h : d.unlessDirectory path fault = .ok d') :
    d' = d ∧ d.isDirectory path = .ok true := by
  unfold unlessDirectory at h
  split at h
  · split at h
    · next hthere =>
        cases h
        exact ⟨rfl, hthere⟩
    · cases h
    · cases h
  · cases h

/-- A path leads to a directory if one is there. -/
theorem exists_locate_of_isDirectory (h : d.isDirectory path = .ok true) :
    ∃ place, d.locate true path = .ok (.found place .directory) := by
  obtain ⟨-, place, e, hlocate, hdirectory⟩ := exists_locate_of_ask h
  cases e with
  | directory => exact ⟨place, hlocate⟩
  | file bytes => cases hdirectory
  | link target => cases hdirectory

/-- What comes of making the directory at a path with those on the way to it: only directories on
the way are new, and unless there is a fault the path leads to a directory. -/
structure Ensures (d : Disk) (p : Path) (outcome : Disk × Option Fault) : Prop where
  way : d.MakesWay outcome.1 p
  arrives : outcome.2 = none → ∃ place, outcome.1.locate true p.text = .ok (.found place .directory)

theorem ensures_stopped (h : d.MakesWay d' p) (fault : Fault) : d.Ensures p (d', some fault) :=
  ⟨h, nofun⟩

theorem ensures_made (h : d.MakesWay d' p) (hmade : d'.makeDirectory p.text = .ok d'') :
    d.Ensures p (d'', none) := by
  obtain ⟨place, -, -, -, hlocate⟩ := exists_place_of_makeDirectory hmade
  exact ⟨h.trans (makesWay_makeDirectory hmade), fun _ => ⟨place, hlocate⟩⟩

theorem ensures_there (h : d.MakesWay d' p) {fault : Fault}
    (hthere : d'.unlessDirectory p.text fault = .ok d'') : d.Ensures p (d'', none) := by
  obtain ⟨rfl, hdirectory⟩ := unlessDirectory_eq_ok hthere
  exact ⟨h, fun _ => exists_locate_of_isDirectory hdirectory⟩

theorem ensures_makeDirectories (d : Disk) (p : Path) (fuel : Nat) :
    d.Ensures p (d.makeDirectories p fuel) := by
  induction fuel generalizing p with
  | zero => exact ensures_stopped (.refl d p) _
  | succ fuel ih =>
      rw [makeDirectories]
      split
      · next hmade => exact ensures_made (.refl d p) hmade
      · split
        · split
          · exact ensures_stopped (.refl d p) _
          · -- the directories above stay, whether the directory itself can be made or not
            have habove := (ih p.parent).way.mono (.parent p)
            split
            · next hstopped =>
                rw [hstopped] at habove
                exact ensures_stopped habove _
            · next hdone =>
                rw [hdone] at habove
                split
                · next hmade => exact ensures_made habove hmade
                · split
                  · exact ensures_stopped habove _
                  · split
                    · next hthere => exact ensures_there habove hthere
                    · exact ensures_stopped habove _
        · split
          · next hthere => exact ensures_there (.refl d p) hthere
          · exact ensures_stopped (.refl d p) _

/-- Making a directory and those on the way to it only adds directories on the way to it, and comes
to the directory unless there is a fault. -/
theorem ensures_ensureDirectory (d : Disk) (p : Path) : d.Ensures p (d.ensureDirectory p) :=
  ensures_makeDirectories d p _

/-- Where a path leads to a directory, no path on the way to it leads to a file. -/
theorem locate_ne_file_of_liesOn (hp : p.IsProper) (hq : q.LiesOn p)
    (hlocate : d.locate true p.text = .ok (.found place .directory)) {target : Place}
    {bytes : List UInt8} : d.locate true q.text ≠ .ok (.found target (.file bytes)) := by
  intro hfile
  obtain ⟨rest, hparts⟩ := hq.2
  have hproper : q.IsProper := fun name hname => hp name (hq.2.subset hname)
  obtain ⟨-, hwalk⟩ := (locate_text_eq_ok_iff hp).1 hlocate
  obtain ⟨-, hshort⟩ := (locate_text_eq_ok_iff hproper).1 hfile
  rw [← hparts, ← hq.1] at hwalk
  -- the walk to the directory comes to a directory where the walk along `q` ends
  obtain ⟨left, middle, hway, -⟩ := Tree.exists_way_append q.parts (.inr ⟨rfl, _, rfl⟩) hwalk
  have hmiddle : _ = d.tree.walk true _ _ [] := hway.walk (.inr rfl)
  rw [List.append_nil, Tree.walk_nil, hshort] at hmiddle
  cases hmiddle

/-- A directory cannot be made where a file stands on the way to it. -/
theorem ensureDirectory_ne_none_of_file (hp : p.IsProper) (hq : q.LiesOn p) {target : Place}
    {bytes : List UInt8} (hfile : d.locate true q.text = .ok (.found target (.file bytes))) :
    (d.ensureDirectory p).2 ≠ none := by
  intro hnone
  have hensures := ensures_ensureDirectory d p
  obtain ⟨place, hlocate⟩ := hensures.arrives hnone
  exact locate_ne_file_of_liesOn hp hq hlocate
    (locate_of_within hensures.way.cwd hensures.way.kept hfile)

end

end Disk

end TabCompletion
