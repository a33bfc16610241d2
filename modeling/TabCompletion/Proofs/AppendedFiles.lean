import TabCompletion.Proofs.MadeDirectories

/-!
# Files that are appended to

A file is opened for appending at the place to which its path leads; if nothing stands there the
file is new (`Disk.IsFilePlace`). Whatever is then appended, all other places keep their entries
(`entry?_appendAt`), and every path opens a file at the same place as before, or none as before
(`Disk.opensAlike_appendAt`).
-/

namespace TabCompletion

namespace Tree

/-- The place at which writing to where a walk ends creates or changes a file. -/
def Located.filePlace? : Located → Option Place
  | .found place (.file _) => some place
  | .found _ _ => none
  | .absent directory name => some (directory ++ [name])

/-- At the place there is a file, or nothing. -/
def IsFree (t : Tree) (place : Place) : Prop :=
  t.entry? place = none ∨ ∃ bytes, t.entry? place = some (.file bytes)

section

variable {t : Tree} {place q here : Place} {bytes : List UInt8} {e : Entry} {follow : Bool}
  {links : Nat} {name : String}

theorem IsFree.set (hne : place ≠ []) (h : t.IsFree q) :
    (t.set place (.file bytes)).IsFree q := by
  by_cases hq : q = place
  · rw [hq]
    exact .inr ⟨bytes, entry?_set_self hne⟩
  · rwa [IsFree, entry?_set_of_ne hq]

theorem IsFree.entry?_ne (h : t.IsFree place) (he : t.entry? q = some e)
    (hfile : e.isFile = false) : q ≠ place := by
  rintro rfl
  rcases h with hnone | ⟨bytes, hbytes⟩
  · rw [hnone] at he
    cases he
  · rw [hbytes] at he
    cases he
    cases hfile

/-- A file can be written where a walk ends at a free place, but not behind it. -/
theorem filePlace?_walk_of_isFree (hname : IsEntryName name) (h : t.IsFree (here ++ [name]))
    (rest : List String) :
    (t.walk follow links here (name :: rest)).toOption.bind Located.filePlace? =
      if rest.isEmpty then some (here ++ [name]) else none := by
  rcases h with hnone | ⟨bytes, hbytes⟩
  · cases rest with
    | nil =>
        rw [walk_absent hname hnone]
        rfl
    | cons next rest =>
        rw [walk_missing hname hnone]
        rfl
  · cases rest with
    | nil =>
        rw [walk_file hname bytes hbytes]
        rfl
    | cons next rest =>
        rw [walk_through_file hname hbytes]
        rfl

/-- Where a walk allows a file to be written does not depend on the bytes of a file, nor on
whether it is there yet. -/
theorem filePlace?_walk_set (hne : place ≠ []) (h : t.IsFree place) (bytes : List UInt8)
    (follow : Bool) (links : Nat) (here : Place) (names : List String) :
    ((t.set place (.file bytes)).walk follow links here names).toOption.bind Located.filePlace? =
      (t.walk follow links here names).toOption.bind Located.filePlace? := by
  -- directories and links stay as they are, and free places stay free
  have hkept : ∀ {q e}, t.entry? q = some e → e.isFile = false →
      Tree.entry? (t.set place (.file bytes)) q = some e :=
    fun he hfile => (entry?_set_of_ne (h.entry?_ne he hfile)).trans he
  fun_induction Tree.walk t follow links here names with
  | case1 => rw [walk_nil]
  | case2 _ _ _ ih => rw [← ih, walk, if_pos rfl]
  | case3 _ _ _ _ ih => rw [← ih, walk, if_neg (by decide), if_pos rfl]
  | case4 _ _ _ _ hdot hup hlong => rw [walk, if_neg hdot, if_neg hup, if_pos hlong]
  | case5 _ _ _ _ hdot hup hshort hentry hend =>
      rw [filePlace?_walk_of_isFree ⟨hdot, hup, Nat.not_lt.1 hshort⟩
        (IsFree.set hne (.inl hentry)), if_pos hend]
      rfl
  | case6 _ _ _ _ hdot hup hshort hentry hend =>
      rw [filePlace?_walk_of_isFree ⟨hdot, hup, Nat.not_lt.1 hshort⟩
        (IsFree.set hne (.inl hentry)), if_neg hend]
      rfl
  | case7 _ _ _ _ hdot hup hshort hentry ih =>
      rw [walk_directory ⟨hdot, hup, Nat.not_lt.1 hshort⟩ (hkept hentry rfl), ih]
  | case8 _ _ _ _ hdot hup hshort old hentry hend =>
      rw [filePlace?_walk_of_isFree ⟨hdot, hup, Nat.not_lt.1 hshort⟩
        (IsFree.set hne (.inr ⟨old, hentry⟩)), if_pos hend]
      rfl
  | case9 _ _ _ _ hdot hup hshort old hentry hend =>
      rw [filePlace?_walk_of_isFree ⟨hdot, hup, Nat.not_lt.1 hshort⟩
        (IsFree.set hne (.inr ⟨old, hentry⟩)), if_neg hend]
      rfl
  | case10 _ _ _ _ hdot hup hshort _ hentry hend =>
      rw [walk, if_neg hdot, if_neg hup, if_neg hshort]
      simp only [hkept hentry rfl, if_pos hend]
  | case11 _ _ _ hdot hup hshort _ hentry hend =>
      rw [walk, if_neg hdot, if_neg hup, if_neg hshort]
      simp only [hkept hentry rfl, if_neg hend]
  | case12 _ _ _ hdot hup hshort _ hentry hgoes _ ih =>
      rw [walk_link ⟨hdot, hup, Nat.not_lt.1 hshort⟩ (hkept hentry rfl) (goes_of_not hgoes)]
      exact ih

end

end Tree

namespace Disk

variable {d d' d'' : Disk} {path : String} {place q : Place} {bytes : List UInt8}

/-! ## Places of files -/

/-- At the place there may be a file: there is one, or nothing. -/
structure IsFilePlace (d : Disk) (place : Place) : Prop where
  ne_nil : place ≠ []
  free : d.tree.IsFree place

theorem isFilePlace_of_file (h : d.tree.entry? place = some (.file bytes)) :
    d.IsFilePlace place where
  ne_nil := by
    -- the root is a directory
    rintro rfl
    cases h
  free := .inr ⟨bytes, h⟩

theorem isFilePlace_of_filePlace (h : d.filePlace path = .ok place) : d.IsFilePlace place := by
  unfold filePlace at h
  split at h
  · next hlocate =>
      cases h
      exact isFilePlace_of_file (Tree.entry?_of_walk (locate_eq_ok_iff.1 hlocate).2)
  · cases h
  · next hlocate =>
      cases h
      exact ⟨by simp, .inl (Tree.entry?_of_absent (locate_eq_ok_iff.1 hlocate).2)⟩
  · cases h

/-! ## Appending -/

theorem entry?_appendAt (hne : place ≠ []) (bytes : List UInt8) (q : Place) :
    (d.appendAt place bytes).tree.entry? q =
      if q = place then some (.file (d.bytesAt place ++ bytes)) else d.tree.entry? q := by
  split
  · next h =>
      rw [h]
      exact Tree.entry?_set_self hne
  · next h => exact Tree.entry?_set_of_ne h

theorem entry?_appendAt_of_file {old : List UInt8}
    (h : d.tree.entry? place = some (.file old)) (bytes : List UInt8) (q : Place) :
    (d.appendAt place bytes).tree.entry? q =
      if q = place then some (.file (old ++ bytes)) else d.tree.entry? q := by
  rw [entry?_appendAt (isFilePlace_of_file h).ne_nil, bytesAt, h]

theorem filePlace_eq_ok_iff : d.filePlace path = .ok place ↔
    ∃ located, d.locate true path = .ok located ∧ located.filePlace? = some place := by
  unfold filePlace
  cases d.locate true path with
  | error fault => simp
  | ok located =>
      cases located with
      | absent directory name => simp [Tree.Located.filePlace?]
      | found place e => cases e <;> simp [Tree.Located.filePlace?]

/-- The place at which a path opens a file is the one that the walk along its names allows. -/
theorem filePlace_eq_ok_iff_walk : d.filePlace path = .ok place ↔
    IsPath path ∧ (d.tree.walk true Tree.maxLinks (d.startOf path)
      (Tree.stepsOf path)).toOption.bind Tree.Located.filePlace? = some place := by
  simp only [filePlace_eq_ok_iff, locate_eq_ok_iff, and_assoc, exists_and_left]
  apply and_congr_right
  intro hpath
  cases d.tree.walk true Tree.maxLinks (d.startOf path) (Tree.stepsOf path) <;>
    simp [Except.toOption]

theorem IsFilePlace.appendAt (h : d.IsFilePlace q) (hne : place ≠ []) (bytes : List UInt8) :
    (d.appendAt place bytes).IsFilePlace q :=
  ⟨h.ne_nil, h.free.set hne⟩

theorem openPlace_eq_ok_iff : d.openPlace path = .ok place ↔
    d.Grants .append path ∧ d.filePlace path = .ok place :=
  granted_eq_ok_iff

/-- On both disks every path opens a file at the same place, or none. -/
structure OpensAlike (d d' : Disk) : Prop where
  cwd : d'.cwd = d.cwd
  refusals : d'.refusals = d.refusals
  filePlace_iff : ∀ path place, d'.filePlace path = .ok place ↔ d.filePlace path = .ok place

theorem OpensAlike.openPlace_iff (h : d.OpensAlike d') (path : String) (place : Place) :
    d'.openPlace path = .ok place ↔ d.openPlace path = .ok place := by
  rw [openPlace_eq_ok_iff, openPlace_eq_ok_iff, h.filePlace_iff, Grants, Grants,
    refused?_congr h.refusals]

theorem OpensAlike.refl (d : Disk) : d.OpensAlike d := ⟨rfl, rfl, fun _ _ => .rfl⟩

theorem OpensAlike.trans (h : d.OpensAlike d') (h' : d'.OpensAlike d'') : d.OpensAlike d'' where
  cwd := h'.cwd.trans h.cwd
  refusals := h'.refusals.trans h.refusals
  filePlace_iff path place := (h'.filePlace_iff path place).trans (h.filePlace_iff path place)

theorem opensAlike_appendAt (h : d.IsFilePlace place) (bytes : List UInt8) :
    d.OpensAlike (d.appendAt place bytes) where
  cwd := rfl
  refusals := rfl
  filePlace_iff path q := by
    have hwalk := Tree.filePlace?_walk_set h.ne_nil h.free (d.bytesAt place ++ bytes) true
      Tree.maxLinks (d.startOf path) (Tree.stepsOf path)
    rw [filePlace_eq_ok_iff_walk, filePlace_eq_ok_iff_walk, ← hwalk]
    rfl

end Disk

end TabCompletion
