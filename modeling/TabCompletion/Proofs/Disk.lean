import Mathlib.Data.List.Basic
import TabCompletion.Files.Disk

/-!
# Walks on a disk

A walk along names goes from directory to directory. `Tree.Step` says what one step of it does,
and `Tree.Way` puts the steps together: a walk makes its way along all names before the last
(`Tree.exists_way`), and every walk along such a way comes to the same directory
(`Tree.Way.walk`). A path leads to where the walk along its names ends (`Disk.locate_eq_walk`);
where no links are on the way, that is read off the tree (`Disk.Reaches.locate`). What the program
is told of it depends on what the system refuses (`Disk.Grants`) besides.
-/

namespace TabCompletion

namespace Tree

/-! ## One step -/

/-- The name is that of an entry: it is neither `.` nor `..`, and not too long. -/
def IsEntryName (name : String) : Prop :=
  name ≠ "." ∧ name ≠ ".." ∧ Text.Utf8.byteCount name ≤ maxNameBytes

instance (name : String) : Decidable (IsEntryName name) :=
  inferInstanceAs (Decidable (_ ∧ _ ∧ _))

section

variable {t : Tree} {follow : Bool} {links : Nat} {here : Place} {name : String}

theorem walk_directory (hname : IsEntryName name) (h : t.entry? (here ++ [name]) = some .directory)
    (rest : List String) :
    t.walk follow links here (name :: rest) = t.walk follow links (here ++ [name]) rest := by
  rw [walk, if_neg hname.1, if_neg hname.2.1, if_neg (Nat.not_lt.2 hname.2.2)]
  simp only [h]

theorem walk_file (hname : IsEntryName name) (bytes : List UInt8)
    (h : t.entry? (here ++ [name]) = some (.file bytes)) :
    t.walk follow links here [name] = .ok (.found (here ++ [name]) (.file bytes)) := by
  rw [walk, if_neg hname.1, if_neg hname.2.1, if_neg (Nat.not_lt.2 hname.2.2)]
  simp only [h]
  rfl

theorem walk_absent (hname : IsEntryName name) (h : t.entry? (here ++ [name]) = none) :
    t.walk follow links here [name] = .ok (.absent here name) := by
  rw [walk, if_neg hname.1, if_neg hname.2.1, if_neg (Nat.not_lt.2 hname.2.2)]
  simp only [h]
  rfl

theorem walk_missing (hname : IsEntryName name) (h : t.entry? (here ++ [name]) = none)
    (next : String) (rest : List String) :
    t.walk follow links here (name :: next :: rest) = .error .missing := by
  rw [walk, if_neg hname.1, if_neg hname.2.1, if_neg (Nat.not_lt.2 hname.2.2)]
  simp only [h]
  rfl

theorem walk_nil : t.walk follow links here [] = .ok (.found here .directory) := by
  rw [walk]

theorem walk_through_file (hname : IsEntryName name) {bytes : List UInt8}
    (h : t.entry? (here ++ [name]) = some (.file bytes)) (next : String) (rest : List String) :
    t.walk follow links here (name :: next :: rest) = .error .notDirectory := by
  rw [walk, if_neg hname.1, if_neg hname.2.1, if_neg (Nat.not_lt.2 hname.2.2)]
  simp only [h]
  rfl

/-- A link on the way is followed, and one at the end if the walk asks for it. -/
theorem walk_link (hname : IsEntryName name) {target : String}
    (h : t.entry? (here ++ [name]) = some (.link target)) {rest : List String}
    (hrest : rest ≠ [] ∨ follow = true) :
    t.walk follow (links + 1) here (name :: rest) =
      t.walk follow links (if startsAtRoot target then [] else here)
        (linkSteps target ++ rest) := by
  have hgoes : ¬ (rest.isEmpty && !follow) = true := by
    rw [Bool.and_eq_true, List.isEmpty_iff, Bool.not_eq_true']
    rintro ⟨hempty, hstop⟩
    rcases hrest with hrest | hrest
    · exact hrest hempty
    · exact absurd (hrest.symm.trans hstop) (by decide)
  rw [walk, if_neg hname.1, if_neg hname.2.1, if_neg (Nat.not_lt.2 hname.2.2)]
  simp only [h]
  rw [if_neg hgoes]

theorem walk_link_at_end (hname : IsEntryName name) {target : String}
    (h : t.entry? (here ++ [name]) = some (.link target)) :
    t.walk false links here [name] = .ok (.found (here ++ [name]) (.link target)) := by
  rw [walk, if_neg hname.1, if_neg hname.2.1, if_neg (Nat.not_lt.2 hname.2.2)]
  simp only [h]
  rfl

/-- A walk along one name comes to what stands there, unless that is a link. -/
theorem walk_entry (hname : IsEntryName name) {e : Entry} (h : t.entry? (here ++ [name]) = some e)
    (hlink : ∀ target, e ≠ .link target) :
    t.walk follow links here [name] = .ok (.found (here ++ [name]) e) := by
  cases e with
  | file bytes => exact walk_file hname bytes h
  | directory => rw [walk_directory hname h, walk_nil]
  | link target => exact absurd rfl (hlink target)

end

/-! ## Names without links -/

/-- The names lead to a place in a directory: directories stand along all names but the last. -/
def Reaches (t : Tree) : Place → List String → Prop
  | _, [] => False
  | _, [name] => IsEntryName name
  | here, name :: next :: rest =>
      IsEntryName name ∧ t.entry? (here ++ [name]) = some .directory ∧
        t.Reaches (here ++ [name]) (next :: rest)

instance decidableReaches (t : Tree) : (here : Place) → (names : List String) →
    Decidable (t.Reaches here names)
  | _, [] => inferInstanceAs (Decidable False)
  | _, [name] => inferInstanceAs (Decidable (IsEntryName name))
  | here, name :: next :: rest =>
      have := decidableReaches t (here ++ [name]) (next :: rest)
      inferInstanceAs (Decidable (_ ∧ _ ∧ _))

namespace Reaches

variable {t : Tree} {follow : Bool} {links : Nat} {here directory : Place} {names : List String}
  {name : String}

theorem walk (h : t.Reaches here names) {e : Entry} (hentry : t.entry? (here ++ names) = some e)
    (hlink : ∀ target, e ≠ .link target) :
    t.walk follow links here names = .ok (.found (here ++ names) e) := by
  fun_induction Reaches t here names with
  | case1 => exact h.elim
  | case2 => exact walk_entry h hentry hlink
  | case3 here name next rest ih =>
      obtain ⟨hname, hdirectory, hrest⟩ := h
      rw [List.append_cons] at hentry ⊢
      rw [walk_directory hname hdirectory, ih hrest hentry]

theorem walk_absent (h : t.Reaches here names) (hplace : here ++ names = directory ++ [name])
    (hnone : t.entry? (directory ++ [name]) = none) :
    t.walk follow links here names = .ok (.absent directory name) := by
  fun_induction Reaches t here names with
  | case1 => exact h.elim
  | case2 here last =>
      obtain ⟨rfl, hlast⟩ := List.append_inj' hplace rfl
      cases hlast
      exact Tree.walk_absent h hnone
  | case3 here first next rest ih =>
      obtain ⟨hname, hdirectory, hrest⟩ := h
      rw [List.append_cons] at hplace
      rw [walk_directory hname hdirectory, ih hrest hplace]

end Reaches

/-! ## The way of a walk -/

/-- A step of a walk along a name: how many links may still be followed after it, where it leads,
and the names that a link puts before those that come next. -/
inductive Step (t : Tree) (links : Nat) (here : Place) : String → Nat → Place → List String → Prop
  | stay : Step t links here "." links here []
  | up : Step t links here ".." links here.dropLast []
  | down {name : String} (hname : IsEntryName name)
      (hentry : t.entry? (here ++ [name]) = some .directory) :
      Step t links here name links (here ++ [name]) []
  | follow {name target : String} {left : Nat} (hname : IsEntryName name)
      (hentry : t.entry? (here ++ [name]) = some (.link target)) (hlinks : links = left + 1) :
      Step t links here name left (if startsAtRoot target then [] else here) (linkSteps target)

/-- The way of a walk along names, to a directory at which it stands with some links left. -/
inductive Way (t : Tree) : Nat → Place → List String → Nat → Place → Prop
  | nil {links : Nat} {here : Place} : Way t links here [] links here
  | cons {links links' left : Nat} {here here' directory : Place} {name : String}
      {more names : List String} (hstep : Step t links here name links' here' more)
      (hrest : Way t links' here' (more ++ names) left directory) :
      Way t links here (name :: names) left directory

section

variable {t t' : Tree} {follow : Bool} {links links' left : Nat} {here here' directory : Place}
  {name : String} {more names rest : List String} {located : Located}

theorem Step.walk (h : Step t links here name links' here' more)
    (hrest : rest ≠ [] ∨ follow = true) :
    t.walk follow links here (name :: rest) = t.walk follow links' here' (more ++ rest) := by
  cases h with
  | stay => rw [Tree.walk, if_pos rfl, List.nil_append]
  | up => rw [Tree.walk, if_neg (by decide), if_pos rfl, List.nil_append]
  | down hname hentry => exact walk_directory hname hentry rest
  | follow hname hentry hlinks => rw [hlinks, walk_link hname hentry hrest]

/-- A walk that goes on behind a name, or comes to a directory, takes a step along the name. -/
theorem exists_step (hrest : rest ≠ [] ∨ ∃ place, located = .found place .directory)
    (h : t.walk follow links here (name :: rest) = .ok located) :
    ∃ links' here' more, Step t links here name links' here' more := by
  by_cases hdot : name = "."
  · rw [hdot]
    exact ⟨_, _, _, .stay⟩
  by_cases hdotdot : name = ".."
  · rw [hdotdot]
    exact ⟨_, _, _, .up⟩
  by_cases hlong : maxNameBytes < Text.Utf8.byteCount name
  · rw [walk, if_neg hdot, if_neg hdotdot, if_pos hlong] at h
    cases h
  have hname : IsEntryName name := ⟨hdot, hdotdot, Nat.not_lt.1 hlong⟩
  have hdirectory : rest = [] → ∃ place, located = .found place .directory :=
    fun hend => hrest.resolve_left fun hne => hne hend
  cases hentry : t.entry? (here ++ [name]) with
  | none =>
      -- what is absent is where the walk ends, and no directory
      cases rest with
      | nil =>
          rw [walk_absent hname hentry] at h
          cases h
          obtain ⟨_, ⟨⟩⟩ := hdirectory rfl
      | cons next rest =>
          rw [walk_missing hname hentry] at h
          cases h
  | some e =>
      cases e with
      | file bytes =>
          cases rest with
          | nil =>
              rw [walk_file hname bytes hentry] at h
              cases h
              obtain ⟨_, ⟨⟩⟩ := hdirectory rfl
          | cons next rest =>
              rw [walk_through_file hname hentry] at h
              cases h
      | directory => exact ⟨_, _, _, .down hname hentry⟩
      | link target =>
          cases links with
          | succ left => exact ⟨_, _, _, .follow hname hentry rfl⟩
          | zero =>
              -- no link may be followed any more, so the walk ends at this one
              rw [walk, if_neg hdot, if_neg hdotdot, if_neg hlong] at h
              simp only [hentry] at h
              split at h
              · next hend =>
                  cases h
                  obtain ⟨_, ⟨⟩⟩ := hdirectory (List.isEmpty_iff.1 (Bool.and_eq_true_iff.1 hend).1)
              · cases h

theorem Way.walk (h : Way t links here names left directory) (hrest : rest ≠ [] ∨ follow = true) :
    t.walk follow links here (names ++ rest) = t.walk follow left directory rest := by
  induction h with
  | nil => rfl
  | @cons _ _ _ _ _ _ _ more names hstep _ ih =>
      have hnext : names ++ rest ≠ [] ∨ follow = true :=
        hrest.imp_left fun hne e => hne (List.append_eq_nil_iff.1 e).2
      rw [List.cons_append, hstep.walk hnext, ← List.append_assoc, ih]

/-- A walk makes its way along all names from which it goes on, and if it comes to a directory it
makes its way along all there are. -/
theorem exists_way_append (names : List String)
    (hrest : rest ≠ [] ∨ follow = true ∧ ∃ place, located = .found place .directory)
    (h : t.walk follow links here (names ++ rest) = .ok located) :
    ∃ left directory, Way t links here names left directory ∧
      t.walk follow left directory rest = .ok located := by
  -- a link adds names, but then fewer links are left
  induction links using Nat.strongRecOn generalizing here names with
  | ind links ihlinks =>
      induction names generalizing here with
      | nil => exact ⟨links, here, .nil, h⟩
      | cons first names ihnames =>
          have hgoes : names ++ rest ≠ [] ∨
              follow = true ∧ ∃ place, located = .found place .directory :=
            hrest.imp_left fun hne e => hne (List.append_eq_nil_iff.1 e).2
          obtain ⟨links', here', more, hstep⟩ := exists_step (hgoes.imp_right And.right) h
          rw [List.cons_append, hstep.walk (hgoes.imp_right And.left), ← List.append_assoc] at h
          have hway : ∃ left directory, Way t links' here' (more ++ names) left directory ∧
              t.walk follow left directory rest = .ok located := by
            cases hstep with
            | stay => exact ihnames h
            | up => exact ihnames h
            | down hname hentry => exact ihnames h
            | follow hname hentry hlinks => exact ihlinks _ (by omega) _ h
          obtain ⟨left, directory, hway, hlast⟩ := hway
          exact ⟨left, directory, .cons hstep hway, hlast⟩

/-- A walk makes its way along all names before the last. -/
theorem exists_way (names : List String)
    (h : t.walk follow links here (names ++ [name]) = .ok located) :
    ∃ left directory, Way t links here names left directory ∧
      t.walk follow left directory [name] = .ok located :=
  exists_way_append names (.inl (List.cons_ne_nil _ _)) h

/-- A walk that comes to a directory makes its way along all names. -/
theorem exists_way_of_directory {names : List String} {place : Place}
    (h : t.walk true links here names = .ok (.found place .directory)) :
    ∃ left, Way t links here names left place := by
  rw [← List.append_nil names] at h
  obtain ⟨left, directory, hway, hend⟩ := exists_way_append names (.inr ⟨rfl, _, rfl⟩) h
  rw [walk_nil] at hend
  cases hend
  exact ⟨left, hway⟩

end

/-! ## The last step -/

/-- The place to which a walk leads. -/
def Located.place : Located → Place
  | .found place _ => place
  | .absent directory name => directory ++ [name]

/-- What stands at the place to which a walk leads. -/
def Located.entry? : Located → Option Entry
  | .found _ e => some e
  | .absent .. => none

theorem isEntryName_of_walk {t : Tree} {follow : Bool} {links : Nat} {here : Place} {name : String}
    {located : Located} (hdot : name ≠ ".") (hdotdot : name ≠ "..")
    (h : t.walk follow links here [name] = .ok located) : IsEntryName name := by
  refine ⟨hdot, hdotdot, Nat.not_lt.1 fun hlong => ?_⟩
  rw [walk, if_neg hdot, if_neg hdotdot, if_pos hlong] at h
  cases h

/-- The last step of a walk that does not follow a link there. -/
theorem walk_last {t : Tree} {links : Nat} {here : Place} {name : String} {located : Located}
    (hname : IsEntryName name) (h : t.walk false links here [name] = .ok located) :
    located.place = here ++ [name] ∧ t.entry? located.place = located.entry? := by
  cases hentry : t.entry? (here ++ [name]) with
  | none =>
      rw [walk_absent hname hentry] at h
      cases h
      exact ⟨rfl, hentry⟩
  | some e =>
      have hfound : t.walk false links here [name] = .ok (.found (here ++ [name]) e) := by
        cases e with
        | file bytes => exact walk_file hname bytes hentry
        | directory => rw [walk_directory hname hentry, walk_nil]
        | link target => exact walk_link_at_end hname hentry
      rw [hfound] at h
      cases h
      exact ⟨rfl, hentry⟩

/-- A walk that comes to a file comes to it where it stands. -/
theorem entry?_of_walk {t : Tree} {follow : Bool} {links : Nat} {here place : Place}
    {names : List String} {bytes : List UInt8}
    (h : t.walk follow links here names = .ok (.found place (.file bytes))) :
    t.entry? place = some (.file bytes) := by
  fun_induction Tree.walk t follow links here names with
  | case2 _ _ _ ih => exact ih h
  | case3 _ _ _ _ ih => exact ih h
  | case7 _ _ _ _ _ _ _ _ ih => exact ih h
  | case8 _ _ _ _ _ _ _ _ hentry _ =>
      cases h
      exact hentry
  | case12 _ _ _ _ _ _ _ _ _ _ ih => exact ih h
  | _ => cases h

/-! ## Trees that are changed -/

section

variable {t : Tree} {place target : Place} {e : Entry}

theorem lookup_cons_eq (place first : Place) (e : Entry) (entries : List (Place × Entry)) :
    ((first, e) :: entries).lookup place =
      if place = first then some e else entries.lookup place := by
  rw [List.lookup_cons]
  by_cases h : place = first
  · rw [if_pos h, h, beq_self_eq_true]
  · rw [if_neg h, beq_false_of_ne h]

theorem lookup_setIn (place target : Place) (e : Entry) (entries : List (Place × Entry)) :
    (setIn target e entries).lookup place =
      if place = target then some e else entries.lookup place := by
  induction entries with
  | nil => exact lookup_cons_eq ..
  | cons first entries ih =>
      obtain ⟨q, f⟩ := first
      rw [setIn]
      by_cases hq : q = target
      · -- the entry that is changed
        rw [if_pos hq, lookup_cons_eq, lookup_cons_eq, hq]
        split <;> rfl
      · rw [if_neg hq, lookup_cons_eq, lookup_cons_eq, ih]
        by_cases h : place = q
        · rw [if_pos h, if_pos h, if_neg fun e => hq (h.symm.trans e)]
        · rw [if_neg h, if_neg h]

/-- What is put at a place takes the place of what was put there before. -/
theorem set_set (t : Tree) (target : Place) (e f : Entry) :
    (t.set target e).set target f = t.set target f := by
  unfold set
  dsimp only
  congr 1
  induction t.entries with
  | nil => simp [setIn]
  | cons first entries ih =>
      obtain ⟨q, g⟩ := first
      rw [setIn, setIn]
      by_cases hq : q = target
      · rw [if_pos hq, if_pos hq, setIn, if_pos rfl]
      · rw [if_neg hq, if_neg hq, setIn, if_neg hq, ih]

theorem entry?_set_self (h : target ≠ []) : Tree.entry? (t.set target e) target = some e := by
  unfold Tree.entry?
  rw [if_neg (by simpa using h), set, lookup_setIn, if_pos rfl]

theorem entry?_set_of_ne (h : place ≠ target) :
    Tree.entry? (t.set target e) place = t.entry? place := by
  unfold Tree.entry?
  rw [set, lookup_setIn, if_neg h]

theorem entry?_erase_of_ne (h : place ≠ target) :
    Tree.entry? (t.erase target) place = t.entry? place := by
  unfold Tree.entry?
  rw [erase]
  congr 1
  induction t.entries with
  | nil => rfl
  | cons first entries ih =>
      obtain ⟨q, f⟩ := first
      by_cases hq : q = target
      · rw [List.filter_cons_of_neg (by simp [hq]), lookup_cons_eq,
          if_neg fun e => h (e.trans hq), ih]
      · rw [List.filter_cons_of_pos (by simpa using hq), lookup_cons_eq, lookup_cons_eq, ih]

end

/-! ## Names in a directory -/

theorem isSome_entry?_append {t : Tree} {place : Place} {name : String} :
    (t.entry? (place ++ [name])).isSome = true ↔ ∃ e, (place ++ [name], e) ∈ t.entries := by
  unfold entry?
  rw [if_neg (by simp), List.lookup_isSome_iff]
  constructor
  · rintro ⟨⟨q, e⟩, hmem, hq⟩
    exact ⟨e, (eq_of_beq hq) ▸ hmem⟩
  · rintro ⟨e, hmem⟩
    exact ⟨_, hmem, beq_self_eq_true _⟩

/-- The names in a directory are those of the entries right under its place. -/
theorem mem_names_iff {t : Tree} {place : Place} {name : String} :
    name ∈ t.names place ↔ (t.entry? (place ++ [name])).isSome = true := by
  rw [isSome_entry?_append, names, List.mem_filterMap]
  constructor
  · rintro ⟨⟨q, e⟩, hmem, hname⟩
    dsimp only at hname
    by_cases hplace : q.dropLast = place
    · rw [if_pos hplace] at hname
      rw [← hplace, List.dropLast_append_getLast? name hname]
      exact ⟨e, hmem⟩
    · rw [if_neg hplace] at hname
      cases hname
  · rintro ⟨e, hmem⟩
    refine ⟨(place ++ [name], e), hmem, ?_⟩
    simp

end Tree

namespace Disk

/-! ## Paths -/

/-- The text is a path: it has no zero character and is not too long. -/
def IsPath (path : String) : Prop :=
  path.toList.contains '\x00' = false ∧ Text.Utf8.byteCount path ≤ maxPathBytes

instance (path : String) : Decidable (IsPath path) := inferInstanceAs (Decidable (_ ∧ _))

/-- The directory in which the walk along the names of a path starts. -/
def startOf (d : Disk) (path : String) : Place := if Tree.startsAtRoot path then [] else d.cwd

/-- A path leads to where the walk along its names ends. -/
theorem locate_eq_walk {d : Disk} {path : String} (hpath : IsPath path) (follow : Bool) :
    d.locate follow path =
      match d.tree.walk follow Tree.maxLinks (d.startOf path) (Tree.stepsOf path) with
      | .ok located => .ok located
      | .error blocked => .error (faultAt (blockedKind blocked) path) := by
  unfold locate startOf
  exact (if_neg (Bool.eq_false_iff.1 hpath.1)).trans (if_neg (Nat.not_lt.2 hpath.2))

theorem locate_eq_ok_iff {d : Disk} {follow : Bool} {path : String} {located : Tree.Located} :
    d.locate follow path = .ok located ↔ IsPath path ∧
      d.tree.walk follow Tree.maxLinks (d.startOf path) (Tree.stepsOf path) = .ok located := by
  by_cases hpath : IsPath path
  · rw [locate_eq_walk hpath]
    cases d.tree.walk follow Tree.maxLinks (d.startOf path) (Tree.stepsOf path) with
    | error blocked => exact ⟨nofun, fun h => nomatch h.2⟩
    | ok found => simp only [Except.ok.injEq, hpath, true_and]
  · refine ⟨fun h => absurd ?_ hpath, fun h => absurd h.1 hpath⟩
    unfold locate at h
    by_cases hzero : path.toList.contains '\x00' = true
    · rw [if_pos hzero] at h
      cases h
    · by_cases hlong : maxPathBytes < Text.Utf8.byteCount path
      · rw [if_neg hzero, if_pos hlong] at h
        cases h
      · exact ⟨Bool.eq_false_iff.2 hzero, Nat.not_lt.1 hlong⟩

/-- The names of the path lead to the place without links. -/
def Reaches (d : Disk) (path : String) (place : Place) : Prop :=
  IsPath path ∧ d.tree.Reaches (d.startOf path) (Tree.stepsOf path) ∧
    d.startOf path ++ Tree.stepsOf path = place

instance (d : Disk) (path : String) (place : Place) : Decidable (d.Reaches path place) :=
  inferInstanceAs (Decidable (_ ∧ _ ∧ _))

namespace Reaches

variable {d : Disk} {path : String}

theorem locate {place : Place} (h : d.Reaches path place) {e : Entry}
    (hentry : d.tree.entry? place = some e) (hlink : ∀ target, e ≠ .link target) (follow : Bool) :
    d.locate follow path = .ok (.found place e) := by
  obtain ⟨hpath, hnames, rfl⟩ := h
  exact locate_eq_ok_iff.2 ⟨hpath, hnames.walk hentry hlink⟩

theorem locate_absent {directory : Place} {name : String} (h : d.Reaches path (directory ++ [name]))
    (hnone : d.tree.entry? (directory ++ [name]) = none) (follow : Bool) :
    d.locate follow path = .ok (.absent directory name) :=
  locate_eq_ok_iff.2 ⟨h.1, h.2.1.walk_absent h.2.2 hnone⟩

end Reaches

/-! ## What the system refuses -/

/-- The system does not refuse a call at a path. -/
def Grants (d : Disk) (call : Call) (path : String) : Prop := d.refused? call path = none

instance (d : Disk) (call : Call) (path : String) : Decidable (d.Grants call path) :=
  inferInstanceAs (Decidable (_ = _))

/-- The system lets the program see the file at a path and read it. -/
structure GrantsReading (d : Disk) (path : String) : Prop where
  look : d.Grants .look path
  read : d.Grants .read path

section

variable {α : Type} {d d' : Disk} {call : Call} {path : String} {result : Except Fault α} {a : α}
  {fault : Fault}

/-- A disk without refusals refuses nothing. -/
theorem grants_of_refusals_eq_nil (h : d.refusals = []) (call : Call) (path : String) :
    d.Grants call path := by
  unfold Grants refused?
  rw [h, List.lookup_nil, ite_self]

theorem grantsReading_of_refusals_eq_nil (h : d.refusals = []) (path : String) :
    d.GrantsReading path :=
  ⟨grants_of_refusals_eq_nil h _ _, grants_of_refusals_eq_nil h _ _⟩

theorem granted_of_grants (h : d.Grants call path) : d.granted call path result = result := by
  rw [granted, h]

theorem granted_eq_ok_iff :
    d.granted call path result = .ok a ↔ d.Grants call path ∧ result = .ok a := by
  unfold granted Grants
  cases d.refused? call path <;> simp

theorem granted_eq_error_iff :
    d.granted call path result = .error fault ↔
      (∃ kind, d.refused? call path = some kind ∧ fault = faultAt kind path) ∨
        d.Grants call path ∧ result = .error fault := by
  unfold granted Grants
  cases d.refused? call path <;> simp [eq_comm]

/-- What the system refuses does not depend on the tree. -/
theorem refused?_congr (h : d'.refusals = d.refusals) (call : Call) (path : String) :
    d'.refused? call path = d.refused? call path := by
  rw [refused?, refused?, h]

theorem granted_congr (h : d'.refusals = d.refusals) {result' : Except Fault α}
    (hresult : result' = result) :
    d'.granted call path result' = d.granted call path result := by
  rw [granted, granted, refused?_congr h, hresult]

end

/-! ## Questions and answers -/

section

variable {d d' : Disk} {path : String} {place : Place} {bytes : List UInt8} {fault : Fault}

theorem isFile_of_locate (hlook : d.Grants .look path)
    (h : d.locate true path = .ok (.found place (.file bytes))) : d.isFile path = .ok true := by
  rw [isFile, ask, look, granted_of_grants hlook, entry, h]
  rfl

theorem read_of_locate (hread : d.Grants .read path)
    (h : d.locate true path = .ok (.found place (.file bytes))) : d.read path = .ok bytes := by
  rw [read, granted_of_grants hread, entry, h]

/-- What is said to stand at a path is where the path leads. -/
theorem exists_locate_of_look {e : Entry} (h : d.look path = .ok e) :
    d.Grants .look path ∧ ∃ place, d.locate true path = .ok (.found place e) := by
  obtain ⟨hlook, hentry⟩ := granted_eq_ok_iff.1 h
  refine ⟨hlook, ?_⟩
  unfold entry at hentry
  split at hentry
  · next place _ hlocate =>
      cases hentry
      exact ⟨place, hlocate⟩
  · cases hentry
  · cases hentry

/-- A question that is answered with yes is answered by what stands there. -/
theorem exists_locate_of_ask {question : Entry → Bool} (h : d.ask path question = .ok true) :
    d.Grants .look path ∧ ∃ place e, d.locate true path = .ok (.found place e) ∧
      question e = true := by
  unfold ask at h
  split at h
  · next e hlook =>
      obtain ⟨hgrants, place, hlocate⟩ := exists_locate_of_look hlook
      exact ⟨hgrants, place, e, hlocate, Except.ok.inj h⟩
  · split at h <;> cases h
  · cases h
  · cases h

/-- A path at which there is a file leads to it. -/
theorem exists_locate_of_isFile (h : d.isFile path = .ok true) :
    ∃ place bytes, d.locate true path = .ok (.found place (.file bytes)) := by
  obtain ⟨-, place, e, hlocate, hfile⟩ := exists_locate_of_ask h
  cases e with
  | file bytes => exact ⟨place, bytes, hlocate⟩
  | directory => cases hfile
  | link target => cases hfile

/-- A file that is not read is one that the system refuses to read. -/
theorem exists_refused_of_read (hfile : d.isFile path = .ok true)
    (h : d.read path = .error fault) :
    ∃ kind, d.refused? .read path = some kind ∧ fault = faultAt kind path := by
  obtain ⟨place, bytes, hlocate⟩ := exists_locate_of_isFile hfile
  rcases granted_eq_error_iff.1 h with hrefused | ⟨-, hentry⟩
  · exact hrefused
  · rw [entry, hlocate] at hentry
    cases hentry

theorem read_congr (hrefusals : d'.refusals = d.refusals)
    (h : d'.locate true path = d.locate true path) : d'.read path = d.read path := by
  unfold read entry
  rw [granted_congr hrefusals rfl, h]

theorem isDirectory_of_locate (hlook : d.Grants .look path)
    (h : d.locate true path = .ok (.found place .directory)) : d.isDirectory path = .ok true := by
  rw [isDirectory, ask, look, granted_of_grants hlook, entry, h]
  rfl

/-- A question about a path on which something is missing is answered with no. -/
theorem ask_of_missing (hlook : d.Grants .look path) (hpath : IsPath path)
    (h : d.tree.walk true Tree.maxLinks (d.startOf path) (Tree.stepsOf path) = .error .missing)
    (question : Entry → Bool) : d.ask path question = .ok false := by
  rw [ask, look, granted_of_grants hlook, entry, locate_eq_walk hpath, h]
  rfl

theorem list_of_locate (hlist : d.Grants .list path)
    (h : d.locate true path = .ok (.found place .directory)) :
    d.list path = .ok (place, d.tree.names place) := by
  rw [list, granted_of_grants hlist, h]

theorem locate_of_list {names : List String} (h : d.list path = .ok (place, names)) :
    d.locate true path = .ok (.found place .directory) ∧ names = d.tree.names place := by
  obtain ⟨-, h⟩ := granted_eq_ok_iff.1 h
  split at h
  · next hlocate =>
      cases h
      exact ⟨hlocate, rfl⟩
  · cases h
  · cases h
  · cases h

end

end Disk

end TabCompletion
