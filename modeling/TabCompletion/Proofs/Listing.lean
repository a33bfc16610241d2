import TabCompletion.Proofs.Disk
import TabCompletion.Proofs.TypedPath

/-!
# Listed directories

The candidates for a path come from the listing of one directory (`Host.listing`), or there is no
listing. Each entry whose name starts with the start that is typed makes one offer (`Listing.all`).
The settings act on the offers one by one: to leave out hidden entries is to filter them
(`Offer.hide`), and to mark directories is to change their texts (`Offer.mark`), so it does not
matter which is done first. Where there is no directory nothing is offered, and what else keeps it
from being listed is a fault under all settings. `Host.offerPaths_byEntry` says all of this for
every text and every host.
-/

namespace TabCompletion

open Candidates (extendsTyped)
open TypedPath (Cuts nameBehind)

/-! ## Directories in a directory -/

namespace Disk

/-- The name leads to the directory at the place `target`. It is in the directory at `path`, whose
place is `place`. -/
inductive LeadsTo (d : Disk) (path : String) (place : Place) (name : String) : Place → Prop
  | itself (hentry : d.tree.entry? (place ++ [name]) = some .directory) :
      LeadsTo d path place name (place ++ [name])
  | link {text : String} {target : Place}
      (hentry : d.tree.entry? (place ++ [name]) = some (.link text))
      (htarget : d.locate true (pathIn path name) = .ok (.found target .directory)) :
      LeadsTo d path place name target

theorem look_eq_directory_iff {d : Disk} {path : String} :
    d.look path = .ok .directory ↔
      d.Grants .look path ∧ ∃ place, d.locate true path = .ok (.found place .directory) := by
  rw [look, granted_eq_ok_iff, and_congr_right_iff]
  intro _
  unfold entry
  cases d.locate true path with
  | error fault => simp
  | ok located => cases located <;> simp

/-- The program takes a name for that of a directory exactly if it leads to one, and the system says
so if that is by way of a link. -/
theorem isDirectoryAt_iff {d : Disk} {path : String} {place : Place} {name : String} :
    d.isDirectoryAt path place name = true ↔ (∃ target, d.LeadsTo path place name target) ∧
      (d.tree.entry? (place ++ [name]) = some .directory ∨ d.Grants .look (pathIn path name)) := by
  unfold isDirectoryAt
  constructor
  · intro h
    split at h
    · next hentry => exact ⟨⟨_, .itself hentry⟩, .inl hentry⟩
    · next text hentry =>
        split at h
        · next hdirectory =>
            obtain ⟨hlook, target, htarget⟩ := look_eq_directory_iff.1 hdirectory
            exact ⟨⟨target, .link hentry htarget⟩, .inr hlook⟩
        · cases h
    · cases h
  · rintro ⟨⟨target, hentry | ⟨hentry, htarget⟩⟩, hlook⟩
    · rw [hentry]
    · -- the name is that of a link, which the system has to follow
      have hgrants : d.Grants .look (pathIn path name) := hlook.resolve_left fun hdirectory => by
        rw [hentry] at hdirectory
        cases hdirectory
      simp only [hentry, look_eq_directory_iff.2 ⟨hgrants, target, htarget⟩]

end Disk

/-! ## Offers and settings -/

/-- What is offered for an entry: its name, and the text of the candidate. -/
structure Offer where
  name : String
  text : String

namespace Offer

/-- The offers without those of hidden entries. None is left out if a dot is typed. -/
def hide (start : String) (offers : List Offer) : List Offer :=
  if start.toList.head? = some '.' then offers
  else offers.filter fun o => o.name.toList.head? != some '.'

/-- The offers with a slash behind the texts of directories. -/
def mark (isDirectory : String → Bool) (offers : List Offer) : List Offer :=
  offers.map fun o => if isDirectory o.name then { o with text := o.text ++ "/" } else o

/-- The candidates of offers. -/
def texts (offers : List Offer) : List String := offers.map Offer.text

theorem map_name_mark (isDirectory : String → Bool) (offers : List Offer) :
    (mark isDirectory offers).map Offer.name = offers.map Offer.name := by
  rw [mark, List.map_map]
  refine List.map_congr_left fun o _ => ?_
  rw [Function.comp_apply]
  split <;> rfl

/-- A mark leaves the name as it is, by which entries are hidden. -/
theorem hide_mark (start : String) (isDirectory : String → Bool) (offers : List Offer) :
    hide start (mark isDirectory offers) = mark isDirectory (hide start offers) := by
  unfold hide
  split
  · rfl
  · rw [mark, mark, List.filter_map]
    refine congrArg _ (List.filter_congr fun o _ => ?_)
    rw [Function.comp_apply]
    split <;> rfl

end Offer

/-- A directory that is listed: its path, its place, and the names in it. -/
structure Listing where
  path : String
  place : Place
  names : List String

namespace Listing

/-- One offer for each entry whose name starts with what is typed of it, in order. -/
def all (l : Listing) (before : Option String) (start : String) : List Offer :=
  (l.names.filter (extendsTyped start)).map fun name => ⟨name, nameBehind before name⟩

/-- The offers under settings. -/
def offers (l : Listing) (d : Disk) (before : Option String) (start : String)
    (settings : PathSettings) : List Offer :=
  let shown := if settings.showHidden then l.all before start
    else Offer.hide start (l.all before start)
  if settings.markDirectories then Offer.mark (d.isDirectoryAt l.path l.place) shown else shown

/-- The entry is offered: its name starts with what is typed of it, and it is shown. -/
def lets (start : String) (showHidden : Bool) (name : String) : Bool :=
  extendsTyped start name &&
    (showHidden || start.toList.head? = some '.' || name.toList.head? != some '.')

/-- The candidate for an entry. -/
def candidate (l : Listing) (d : Disk) (before : Option String) (marks : Bool) (name : String) :
    String :=
  nameBehind before name ++ if marks && d.isDirectoryAt l.path l.place name then "/" else ""

section

variable (l : Listing) (d : Disk) (before : Option String) (start : String)

theorem texts_all :
    Offer.texts (l.all before start) =
      (l.names.filter (extendsTyped start)).map (nameBehind before) := by
  rw [Offer.texts, all, List.map_map]
  rfl

/-- Different names make different candidates. -/
theorem nodup_texts_all (h : l.names.Nodup) : (Offer.texts (l.all before start)).Nodup := by
  rw [texts_all]
  refine List.Pairwise.map _ (fun name name' hne heq => hne ?_) (h.filter _)
  exact TypedPath.nameBehind_injective before heq

/-- What is shown are the entries that the settings let through. -/
theorem shown_eq (showHidden : Bool) :
    (if showHidden then l.all before start else Offer.hide start (l.all before start)) =
      (l.names.filter (lets start showHidden)).map fun name => ⟨name, nameBehind before name⟩ := by
  unfold all Offer.hide lets
  cases showHidden with
  | true => simp
  | false =>
      by_cases hdot : start.toList.head? = some '.'
      · simp [hdot]
      · simp [hdot, List.filter_map, List.filter_filter, Function.comp_def, Bool.and_comm]

variable (settings : PathSettings)

/-- One offer is made for each entry that the settings let through. -/
theorem map_name_offers : (l.offers d before start settings).map Offer.name =
    l.names.filter (lets start settings.showHidden) := by
  have hshown : ∀ names : List String,
      (names.map fun name => (⟨name, nameBehind before name⟩ : Offer)).map Offer.name = names :=
    fun names => by simp [Function.comp_def]
  unfold offers
  dsimp only
  rw [shown_eq]
  split
  · rw [Offer.map_name_mark, hshown]
  · rw [hshown]

theorem texts_offers : Offer.texts (l.offers d before start settings) =
    (l.names.filter (lets start settings.showHidden)).map
      (l.candidate d before settings.markDirectories) := by
  unfold offers
  dsimp only
  rw [shown_eq]
  cases settings.markDirectories with
  | false =>
      rw [if_neg (by simp), Offer.texts, List.map_map]
      exact List.map_congr_left fun name _ => String.append_empty.symm
  | true =>
      rw [if_pos rfl, Offer.texts, Offer.mark, List.map_map, List.map_map]
      refine List.map_congr_left fun name _ => ?_
      simp only [Function.comp_apply, candidate, Bool.true_and]
      split
      · rfl
      · exact String.append_empty.symm

end

end Listing

namespace Host

/-! ## The listing behind a text -/

/-- The path of the directory that is named before the last slash. -/
def pathBefore (h : Host) : Option String → Except Fault String
  | none => .ok "."
  | some before => if before = "" then .ok "/" else h.environment.expandHome before

/-- The listing of the directory that is named before the last slash. -/
def listing (h : Host) (before : Option String) : Except Fault Listing :=
  match h.pathBefore before with
  | .error fault => .error fault
  | .ok path => (h.disk.list path).map fun listed => ⟨path, listed.1, listed.2⟩

/-- A directory to which the path leads is listed, unless the system refuses that. -/
theorem listing_of_locate {h : Host} {before : Option String} {path : String} {place : Place}
    (hpath : h.pathBefore before = .ok path) (hgrants : h.disk.Grants .list path)
    (hlocate : h.disk.locate true path = .ok (.found place .directory)) :
    h.listing before = .ok ⟨path, place, h.disk.tree.names place⟩ := by
  unfold listing
  simp only [hpath, Disk.list_of_locate hgrants hlocate]
  rfl

theorem listedDirectory_eq_pathBefore (h : Host) (before : Option String) (start : String) :
    h.listedDirectory ⟨TypedPath.directoryBefore before, start⟩ = h.pathBefore before := by
  cases before with
  | none => rfl
  | some before =>
      unfold listedDirectory TypedPath.directoryBefore pathBefore
      by_cases hempty : before = ""
      · simp only [hempty, if_true]
        rfl
      · simp [hempty]

theorem expandHome_eq_error {env : Environment} {path : String} {fault : Fault}
    (h : env.expandHome path = .error fault) : fault = .badValue := by
  unfold Environment.expandHome at h
  split at h
  · dsimp only at h
    split at h
    · next hhome =>
        cases h
        unfold Environment.homeOf? at hhome
        split at hhome
        · cases hhome
        · split at hhome
          · cases hhome
            rfl
          · cases hhome
    · cases h
    · cases h
  · cases h

/-- What is offered for a text: the offers of the listing, and nothing where there is no
directory. -/
theorem value_offerPaths (h : Host) {typed start : String} {before : Option String}
    (hcut : Cuts typed before start) (settings : PathSettings) :
    (h.offerPaths settings typed).value =
      match h.listing before with
      | .ok l => .ok (Offer.texts (l.offers h.disk before start settings))
      | .error (.file f) => if isNoDirectory f then .ok [] else .error (.fault (.file f))
      | .error fault => .error (.fault fault) := by
  have hentry := TypedPath.entry_of_cuts hcut
  have hpath := listedDirectory_eq_pathBefore h before start
  rw [← TypedPath.ofText_of_cuts hcut] at hpath
  have hstart : (TypedPath.ofText typed).start = start := by
    rw [TypedPath.ofText_of_cuts hcut]
  unfold offerPaths listing
  dsimp only
  rw [hpath]
  cases hbefore : h.pathBefore before with
  | error fault =>
      -- only the name of a user may be no text, which is no fault of a file
      have hfault : fault = .badValue := by
        unfold pathBefore at hbefore
        split at hbefore
        · cases hbefore
        · split at hbefore
          · cases hbefore
          · exact expandHome_eq_error hbefore
      rw [hfault]
      rfl
  | ok path =>
      dsimp only
      cases hlist : h.disk.list path with
      | ok listed =>
          obtain ⟨place, names⟩ := listed
          simp only [Except.map, Listing.texts_offers, ← hstart]
          refine congrArg Except.ok (List.map_congr_left fun name _ => ?_)
          rw [Listing.candidate, hentry]
          split
          · rfl
          · exact String.append_empty.symm
      | error fault =>
          cases fault with
          | file f =>
              simp only [Except.map]
              split <;> rfl
          | _ => rfl

/-! ## What the settings change -/

/-- The settings act on the entries of a listing one by one. -/
structure ActsByEntry (h : Host) (typed : String) (before : Option String) (start : String)
    (l : Listing) : Prop where
  /-- The candidates are the texts of the offers. -/
  value : ∀ settings,
    (h.offerPaths settings typed).value = .ok (Offer.texts (l.offers h.disk before start settings))
  /-- By default there is one offer for each entry whose name starts so, in the order of the
  listing. -/
  default : l.offers h.disk before start {} =
    (l.names.filter fun name => start.toList.isPrefixOf name.toList).map fun name =>
      ⟨name, nameBehind before name⟩
  /-- If no name is listed twice no candidate comes twice. -/
  nodup : l.names.Nodup → (Offer.texts (l.offers h.disk before start {})).Nodup
  /-- Not to show hidden entries leaves those out, and changes nothing else. -/
  hidden : ∀ marks, l.offers h.disk before start ⟨marks, false⟩ =
    Offer.hide start (l.offers h.disk before start ⟨marks, true⟩)
  /-- To mark directories puts a slash behind them. -/
  marked : ∀ shows, l.offers h.disk before start ⟨true, shows⟩ =
    Offer.mark (h.disk.isDirectoryAt l.path l.place) (l.offers h.disk before start ⟨false, shows⟩)
  /-- The entries that are offered and their order are not changed by marks. -/
  map_name_marked : ∀ shows, (l.offers h.disk before start ⟨true, shows⟩).map Offer.name =
    (l.offers h.disk before start ⟨false, shows⟩).map Offer.name
  /-- What is marked are the names that lead to directories, except for links that the system
  refuses to follow. -/
  isDirectoryAt_iff : ∀ name, h.disk.isDirectoryAt l.path l.place name = true ↔
    (∃ target, h.disk.LeadsTo l.path l.place name target) ∧
      (h.disk.tree.entry? (l.place ++ [name]) = some .directory ∨
        h.disk.Grants .look (Disk.pathIn l.path name))
  /-- It makes no difference which of the two settings is applied first. -/
  commute : ∀ offers, Offer.hide start (Offer.mark (h.disk.isDirectoryAt l.path l.place) offers) =
    Offer.mark (h.disk.isDirectoryAt l.path l.place) (Offer.hide start offers)

/-- A fault keeps the directory from being listed. -/
structure Unlisted (h : Host) (typed : String) (fault : Fault) : Prop where
  /-- Where there is no directory nothing is offered. -/
  noDirectory : ∀ f, fault = .file f → f.kind = .missing ∨ f.kind = .notDirectory →
    ∀ settings, (h.offerPaths settings typed).value = .ok [] ∧
      (Provider.candidates id (h.offerPaths settings) .path typed).value = .ok []
  /-- Another fault of a file is handed on, and makes the provider unavailable. -/
  file : ∀ f, fault = .file f → ¬ (f.kind = .missing ∨ f.kind = .notDirectory) →
    ∀ settings, (h.offerPaths settings typed).value = .error (.fault (.file f)) ∧
      (Provider.candidates id (h.offerPaths settings) .path typed).value =
        .error (Provider.unavailable
          ("Path completion failed for " ++ Text.quoted typed ++ ": " ++ f.text))
  /-- So is a fault of the name of a user, which is none of a file. -/
  other : (∀ f, fault ≠ .file f) → ∀ settings,
    (h.offerPaths settings typed).value = .error (.fault fault) ∧
      (Provider.candidates id (h.offerPaths settings) .path typed).value = .error (.fault fault)

theorem value_candidates_path (paths : PathSource String) (typed : String) :
    (Provider.candidates id paths .path typed).value =
      match (paths typed).value with
      | .error (.fault (.file fault)) =>
        .error (Provider.unavailable
          ("Path completion failed for " ++ Text.quoted typed ++ ": " ++ fault.text))
      | answer => answer := by
  simp only [Provider.candidates, Logged.value_bind]
  cases (paths typed).value with
  | ok offered => rfl
  | error escape =>
      cases escape with
      | failure f => rfl
      | fault fault => cases fault <;> rfl

theorem isNoDirectory_iff {f : FileFault} :
    isNoDirectory f = true ↔ f.kind = .missing ∨ f.kind = .notDirectory := by
  rw [isNoDirectory, Bool.or_eq_true, decide_eq_true_iff, decide_eq_true_iff]

theorem actsByEntry (h : Host) {typed start : String} {before : Option String} {l : Listing}
    (hcut : Cuts typed before start) (hlist : h.listing before = .ok l) :
    ActsByEntry h typed before start l where
  value settings := by rw [value_offerPaths h hcut, hlist]
  default := rfl
  nodup hnames := Listing.nodup_texts_all l before start hnames
  hidden marks := by
    cases marks with
    | false => rfl
    | true => exact (Offer.hide_mark _ _ _).symm
  marked _ := rfl
  map_name_marked _ := Offer.map_name_mark _ _
  isDirectoryAt_iff _ := Disk.isDirectoryAt_iff
  commute := Offer.hide_mark _ _

theorem unlisted (h : Host) {typed start : String} {before : Option String} {fault : Fault}
    (hcut : Cuts typed before start) (hlist : h.listing before = .error fault) :
    Unlisted h typed fault where
  noDirectory f hfault hkind settings := by
    have hvalue : (h.offerPaths settings typed).value = .ok [] := by
      rw [value_offerPaths h hcut, hlist, hfault]
      exact if_pos (isNoDirectory_iff.2 hkind)
    exact ⟨hvalue, by rw [value_candidates_path, hvalue]⟩
  file f hfault hkind settings := by
    have hvalue : (h.offerPaths settings typed).value = .error (.fault (.file f)) := by
      rw [value_offerPaths h hcut, hlist, hfault]
      exact if_neg fun hno => hkind (isNoDirectory_iff.1 hno)
    exact ⟨hvalue, by rw [value_candidates_path, hvalue]⟩
  other hfault settings := by
    have hvalue : (h.offerPaths settings typed).value = .error (.fault fault) := by
      rw [value_offerPaths h hcut, hlist]
      cases fault with
      | file f => exact absurd rfl (hfault f)
      | _ => rfl
    refine ⟨hvalue, ?_⟩
    rw [value_candidates_path, hvalue]
    cases fault with
    | file f => exact absurd rfl (hfault f)
    | _ => rfl

/-- What is offered for a text: where its directory is listed, one candidate for each entry whose
name starts with what is typed behind the last slash, on which the two settings act one by one and
apart from each other; nothing where there is no directory; and under all settings the fault of a
listing that fails. -/
theorem offerPaths_byEntry (h : Host) (typed : String) :
    ∃ before start, Cuts typed before start ∧
      (∀ l, h.listing before = .ok l → ActsByEntry h typed before start l) ∧
        ∀ fault, h.listing before = .error fault → Unlisted h typed fault := by
  obtain ⟨before, start, hcut⟩ := TypedPath.exists_cuts typed
  exact ⟨before, start, hcut, fun l hlist => h.actsByEntry hcut hlist,
    fun fault hlist => h.unlisted hcut hlist⟩

end Host

end TabCompletion
