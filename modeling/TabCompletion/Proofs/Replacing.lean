import TabCompletion.Files.Replacing
import TabCompletion.Proofs.Disk
import TabCompletion.Proofs.Path

/-!
# Replaced files

A file is replaced by a move onto its path (`Tree.Replaces`). Such a move may take the place of a
link along which the path itself went, and then the directory of the file is lost. This is all
that can go wrong: if the directory can still be listed, the file is in the list and its path
leads to what was written (`Disk.mem_list_of_replace`).
-/

namespace TabCompletion

namespace Tree

/-! ## Two trees -/

/-- In the second tree a file stands at the place, where no directory was. Elsewhere everything
that is no file is as it was. -/
structure Replaces (t t' : Tree) (target : Place) (bytes : List UInt8) : Prop where
  free : t.entry? target ≠ some .directory
  placed : t'.entry? target = some (.file bytes)
  kept : ∀ place e, t.entry? place = some e → e.isFile = false → place ≠ target →
    t'.entry? place = some e

namespace Replaces

variable {t t' : Tree} {target : Place} {bytes : List UInt8} {links links' left : Nat}
  {here here' directory : Place} {name : String} {more names : List String}

/-- A step is still there, unless it was along a link that is now the file. -/
theorem step (h : Replaces t t' target bytes) (hstep : Step t links here name links' here' more) :
    Step t' links here name links' here' more ∨ IsEntryName name ∧ here ++ [name] = target := by
  cases hstep with
  | stay => exact .inl .stay
  | up => exact .inl .up
  | down hname hentry =>
      have hne : here ++ [name] ≠ target := fun e => h.free (e ▸ hentry)
      exact .inl (.down hname (h.kept _ _ hentry rfl hne))
  | follow hname hentry hlinks =>
      by_cases htarget : here ++ [name] = target
      · exact .inr ⟨hname, htarget⟩
      · exact .inl (.follow hname (h.kept _ _ hentry rfl htarget) hlinks)

/-- A way is still there, unless the walk along it comes to the file. -/
theorem way (h : Replaces t t' target bytes) (hway : Way t links here names left directory) :
    Way t' links here names left directory ∨
      ∀ place, t'.walk true links here names ≠ .ok (.found place .directory) := by
  induction hway with
  | nil => exact .inl .nil
  | @cons links _ _ here _ _ name more names hstep hrest ih =>
      rcases h.step hstep with hstep | ⟨hname, htarget⟩
      · rw [hstep.walk (.inr rfl)]
        exact ih.imp_left (.cons hstep)
      · have hfile := htarget.symm ▸ h.placed
        refine .inr fun place hplace => ?_
        cases names with
        | nil =>
            rw [walk_file hname bytes hfile] at hplace
            cases hplace
        | cons next names =>
            rw [walk_through_file hname hfile] at hplace
            cases hplace

end Replaces

/-- If the directory to which the way to a file led can still be walked to after the file is
replaced, the file stands in it. -/
theorem Replaces.walk {t t' : Tree} {bytes : List UInt8} {links : Nat} {here place : Place}
    {names : List String} {name : String} {located : Located} (hdot : name ≠ ".")
    (hdotdot : name ≠ "..")
    (hwalk : t.walk false links here (names ++ [name]) = .ok located)
    (h : Replaces t t' located.place bytes)
    (hplace : t'.walk true links here names = .ok (.found place .directory)) :
    located.place = place ++ [name] ∧
      t'.walk true links here (names ++ [name]) = .ok (.found located.place (.file bytes)) := by
  obtain ⟨left, directory, hway, hlast⟩ := exists_way names hwalk
  have hname := isEntryName_of_walk hdot hdotdot hlast
  have htarget := (walk_last hname hlast).1
  rcases h.way hway with hway' | hno
  · have hdirectory : place = directory := by
      rw [← List.append_nil names, hway'.walk (.inr rfl), walk_nil] at hplace
      cases hplace
      rfl
    rw [hway'.walk (.inr rfl), htarget, hdirectory]
    exact ⟨rfl, walk_file hname bytes (htarget ▸ h.placed)⟩
  · exact absurd hplace (hno place)

end Tree

namespace Disk

/-! ## One replacement -/

variable {d written moved : Disk} {path directory : Path} {temporary : Place}
  {located : Tree.Located} {bytes : List UInt8} {codes : List Nat} {text name : String}

/-- The temporary file is empty at first, and is not at the root. -/
theorem entry?_of_createTemporary (h : d.createTemporary path = .ok (written, temporary)) :
    written.tree.entry? temporary = some (.file []) ∧ temporary ≠ [] := by
  obtain ⟨-, h⟩ := granted_eq_ok_iff.1 h
  split at h
  · cases h
  · split at h
    · split at h
      · cases h
        exact ⟨Tree.entry?_set_self (by simp), by simp⟩
      · cases h
    · cases h
    · cases h

/-- The system lets the program write a temporary file for the file at a path, bring it to the
device and close it. -/
structure GrantsDraft (d : Disk) (path : String) : Prop where
  fill : d.Grants .fill path
  sync : d.Grants .sync path
  close : d.Grants .close path

/-- A text of characters is written to a temporary file unless the system refuses something. -/
theorem fillTemporary_codes_eq_none_iff :
    d.fillTemporary temporary path (Text.codes text) = (written, none) ↔
      d.GrantsDraft path.text ∧
        written = d.withTree (d.tree.set temporary (.file (Text.Utf8.encode text))) := by
  have hgrants : d.GrantsDraft path.text ↔ d.Grants .fill path.text ∧ d.Grants .sync path.text ∧
      d.Grants .close path.text :=
    ⟨fun h => ⟨h.fill, h.sync, h.close⟩, fun ⟨hfill, hsync, hclose⟩ => ⟨hfill, hsync, hclose⟩⟩
  rw [hgrants]
  unfold fillTemporary Grants
  rw [Text.text?_codes]
  cases d.refused? .fill path.text <;> cases d.refused? .sync path.text <;>
    cases d.refused? .close path.text <;> simp [eq_comm]

/-- The temporary file is left as it was or holds a text. -/
theorem eq_or_eq_of_fillTemporary {fault : Option Fault}
    (h : d.fillTemporary temporary path codes = (written, fault)) :
    written = d ∨ ∃ bytes, written = d.withTree (d.tree.set temporary (.file bytes)) := by
  unfold fillTemporary at h
  split at h
  · exact .inl (Prod.mk.inj h).1.symm
  · exact .inl (Prod.mk.inj h).1.symm
  · exact .inr ⟨_, (Prod.mk.inj h).1.symm⟩

/-- What is no text of characters is not written. -/
theorem exists_text_of_fillTemporary (h : d.fillTemporary temporary path codes = (written, none)) :
    ∃ text, codes = Text.codes text := by
  unfold fillTemporary at h
  split at h
  · cases h
  · cases h
  · next htext _ => exact ⟨_, Text.text?_eq_some_iff.1 htext⟩

/-- A temporary file is put onto the path if it is written and then moved. -/
theorem completeTemporary_eq_none_iff :
    d.completeTemporary temporary path codes = (moved, none) ↔ ∃ text, codes = Text.codes text ∧
      d.GrantsDraft path.text ∧
        (d.withTree (d.tree.set temporary (.file (Text.Utf8.encode text)))).moveOnto
          temporary path = .ok moved := by
  unfold completeTemporary
  constructor
  · intro h
    split at h
    · cases h
    · next hfill =>
        obtain ⟨text, rfl⟩ := exists_text_of_fillTemporary hfill
        obtain ⟨hgrants, rfl⟩ := fillTemporary_codes_eq_none_iff.1 hfill
        refine ⟨text, rfl, hgrants, ?_⟩
        split at h
        · next hmove =>
            cases h
            exact hmove
        · cases h
  · rintro ⟨text, rfl, hgrants, hmove⟩
    rw [fillTemporary_codes_eq_none_iff.2 ⟨hgrants, rfl⟩]
    dsimp only
    rw [hmove]

/-- A file is moved to where its path leads, if no directory stands there. -/
theorem exists_located_of_moveOnto (h : written.moveOnto temporary path = .ok moved) :
    ∃ located, written.locate false path.text = .ok located ∧
      located.entry? ≠ some .directory ∧
      moved = written.withTree ((written.tree.erase temporary).set located.place
        (.file (written.bytesAt temporary))) := by
  obtain ⟨-, h⟩ := granted_eq_ok_iff.1 h
  split at h
  · cases h
  · dsimp only at h
    split at h
    · cases h
    · next target e hdirectory hlocate =>
        cases h
        refine ⟨_, hlocate, fun he => ?_, rfl⟩
        exact hdirectory (Option.some.inj he)
    · next hlocate =>
        cases h
        exact ⟨_, hlocate, nofun, rfl⟩
    · cases h

/-- A replaced file was written beside its path and then moved onto it. -/
theorem exists_written_of_replace (h : d.replace path text = (moved, none)) :
    ∃ (written : Disk) (temporary : Place), written.tree.entry? temporary =
        some (.file (Text.Utf8.encode text)) ∧ written.moveOnto temporary path = .ok moved := by
  unfold replace replaceCoded at h
  split at h
  · cases h
  · split at h
    · cases h
    · next hcreate =>
        split at h
        · next hcomplete =>
            cases h
            obtain ⟨text', hcodes, -, hmove⟩ := completeTemporary_eq_none_iff.1 hcomplete
            cases Text.codes_injective hcodes
            exact ⟨_, _, Tree.entry?_set_self (entry?_of_createTemporary hcreate).2, hmove⟩
        · cases h

/-- The move of a file onto a path replaces what stood there. -/
theorem replaces_of_moveOnto
    (htemporary : written.tree.entry? temporary = some (.file bytes))
    (hplace : located.place ≠ [])
    (hentry : written.tree.entry? located.place = located.entry?)
    (hfree : located.entry? ≠ some .directory) :
    written.tree.Replaces ((written.tree.erase temporary).set located.place
      (.file (written.bytesAt temporary))) located.place bytes where
  free := hentry ▸ hfree
  placed := by
    rw [Tree.entry?_set_self hplace, bytesAt, htemporary]
  kept := by
    intro place e he hfile hne
    -- the temporary file is a file
    have htaken : place ≠ temporary := by
      rintro rfl
      rw [htemporary] at he
      cases he
      cases hfile
    rw [Tree.entry?_set_of_ne hne, Tree.entry?_erase_of_ne htaken, he]

/-- If its directory can be listed after a file is replaced, the list has the name of the file,
whose path leads to what was written. -/
theorem mem_list_of_replace {names : List String} {place : Place} (hproper : directory.IsProper)
    (hroot : directory.anchor ≠ .here) (hname : Path.IsName name) (hup : name ≠ "..")
    (h : d.replace (directory.join name) text = (moved, none))
    (hlist : moved.list directory.text = .ok (place, names)) :
    name ∈ names ∧ moved.locate true (directory.join name).text =
      .ok (.found (place ++ [name]) (.file (Text.Utf8.encode text))) := by
  obtain ⟨written, temporary, htemporary, hmove⟩ := exists_written_of_replace h
  obtain ⟨located, hlocate, hfree, rfl⟩ := exists_located_of_moveOnto hmove
  obtain ⟨hlisted, rfl⟩ := locate_of_list hlist
  have hjoin := Path.join_of_isName directory hname
  have hrootJoin : (directory.join name).anchor ≠ .here := by
    rw [hjoin]
    exact hroot
  -- both paths are walked from the root, one of them a step further
  obtain ⟨hpath, hwalk⟩ := locate_eq_ok_iff.1 hlocate
  obtain ⟨-, hdirectory⟩ := locate_eq_ok_iff.1 hlisted
  rw [startOf, if_pos (Path.startsAtRoot_text hrootJoin),
    Path.stepsOf_text (hproper.join name), hjoin] at hwalk
  rw [startOf, if_pos (Path.startsAtRoot_text hroot), Path.stepsOf_text hproper] at hdirectory
  obtain ⟨left, last, -, hlast⟩ := Tree.exists_way _ hwalk
  have hentryName := Tree.isEntryName_of_walk hname.2.1 hup hlast
  obtain ⟨htarget, hentry⟩ := Tree.walk_last hentryName hlast
  have hreplaces := replaces_of_moveOnto htemporary (by simp [htarget]) hentry hfree
  obtain ⟨hplace, hfile⟩ := hreplaces.walk hname.2.1 hup hwalk hdirectory
  refine ⟨?_, locate_eq_ok_iff.2 ⟨hpath, ?_⟩⟩
  · rw [Tree.mem_names_iff, ← hplace]
    exact Option.isSome_iff_exists.2 ⟨_, hreplaces.placed⟩
  · rw [startOf, if_pos (Path.startsAtRoot_text hrootJoin),
      Path.stepsOf_text (hproper.join name), hjoin, ← hplace]
    exact hfile

/-! ## A new file -/

section

variable {place : Place} {free : String}

/-- A directory that is there need not be made. -/
theorem ensureDirectory_of_locate (hmakes : d.Grants .make directory.text)
    (hlooks : d.Grants .look directory.text)
    (hdirectory : ∀ follow, d.locate follow directory.text = .ok (.found place .directory)) :
    d.ensureDirectory directory = (d, none) := by
  have hmake : d.makeDirectory directory.text = .error (faultAt .exists directory.text) := by
    rw [makeDirectory, granted_of_grants hmakes, hdirectory]
  have hthere := isDirectory_of_locate hlooks (hdirectory true)
  have hunless : d.unlessDirectory directory.text (faultAt .exists directory.text) = .ok d := by
    unfold unlessDirectory faultAt
    dsimp only
    rw [hthere]
  have hexists : isMissing (faultAt .exists directory.text) = false := rfl
  rw [ensureDirectory, makeDirectories, hmake]
  dsimp only
  rw [hexists, hunless]
  rfl

/-- The temporary file is put beside the file. -/
theorem createTemporary_of_locate (hgrants : d.Grants .draft path.text)
    (habsolute : d.absolute path.parent.text = path.parent)
    (hdirectory : ∀ follow, d.locate follow path.parent.text = .ok (.found place .directory))
    {located : Tree.Located}
    (hask : d.locate true (path.parent.text ++ "/" ++ temporaryName path.name 0) = .ok located)
    (hfree : d.freeName? place path.name = some free) :
    d.createTemporary path =
      .ok (d.withTree (d.tree.set (place ++ [free]) (.file [])), place ++ [free]) := by
  unfold createTemporary entry
  rw [granted_of_grants hgrants]
  simp only [habsolute, hask, hdirectory, hfree]

/-- A file is moved onto a path at which nothing stands. -/
theorem moveOnto_of_absent (hgrants : d.Grants .move path.text)
    (hend : path.name ≠ "" ∧ path.name ≠ "..") (hbytes : d.bytesAt (place ++ [free]) = bytes)
    (hnew : d.locate false path.text = .ok (.absent place name)) :
    d.moveOnto (place ++ [free]) path =
      .ok (d.withTree ((d.tree.erase (place ++ [free])).set (place ++ [name]) (.file bytes))) := by
  unfold moveOnto
  rw [granted_of_grants hgrants, if_neg (by simpa using hend), hnew, hbytes]

/-- A new file is put into a directory that is there, if nothing is refused. -/
theorem replace_of_absent (hgrants : ∀ call path, d.Grants call path) (hname : Path.IsName name)
    (hup : name ≠ "..") (habsolute : d.absolute directory.text = directory)
    (hdirectory : ∀ follow, d.locate follow directory.text = .ok (.found place .directory))
    {located : Tree.Located}
    (hask : d.locate true (directory.text ++ "/" ++ temporaryName name 0) = .ok located)
    (hfree : d.freeName? place name = some free)
    (hnew : (d.withTree (d.tree.set (place ++ [free]) (.file (Text.Utf8.encode text)))).locate false
      (directory.join name).text = .ok (.absent place name)) :
    d.replace (directory.join name) text =
      (d.withTree (((d.tree.set (place ++ [free]) (.file (Text.Utf8.encode text))).erase
        (place ++ [free])).set (place ++ [name]) (.file (Text.Utf8.encode text))), none) := by
  have hjoin := Path.join_of_isName directory hname
  have hparent : (directory.join name).parent = directory := by
    rw [hjoin, Path.parent, List.dropLast_concat]
  have hlast : (directory.join name).name = name := by
    rw [hjoin, Path.name, List.getLast?_concat, Option.getD_some]
  -- the disk on which the temporary file is written
  let written := d.withTree (d.tree.set (place ++ [free]) (.file (Text.Utf8.encode text)))
  have hbytes : written.bytesAt (place ++ [free]) = Text.Utf8.encode text := by
    rw [bytesAt]
    dsimp only [written, withTree]
    rw [Tree.entry?_set_self (by simp)]
  have hmove := moveOnto_of_absent (d := written)
    (hgrants .move (directory.join name).text) (by rw [hlast]; exact ⟨hname.1, hup⟩) hbytes hnew
  have hcreate := createTemporary_of_locate (hgrants .draft (directory.join name).text)
    (by rw [hparent, habsolute]) (by rw [hparent]; exact hdirectory)
    (by rw [hparent, hlast]; exact hask) (by rw [hlast]; exact hfree)
  let drafted := d.withTree (d.tree.set (place ++ [free]) (.file []))
  have hcomplete : drafted.completeTemporary (place ++ [free]) (directory.join name)
      (Text.codes text) = (written.withTree ((written.tree.erase (place ++ [free])).set
        (place ++ [name]) (.file (Text.Utf8.encode text))), none) := by
    refine completeTemporary_eq_none_iff.2
      ⟨text, rfl, ⟨hgrants .fill _, hgrants .sync _, hgrants .close _⟩, ?_⟩
    dsimp only [drafted, withTree]
    rw [Tree.set_set]
    exact hmove
  unfold replace replaceCoded
  rw [hparent, ensureDirectory_of_locate (hgrants .make _) (hgrants .look _) hdirectory]
  dsimp only
  rw [hcreate]
  dsimp only
  rw [hcomplete]
  rfl

end

end Disk

end TabCompletion
