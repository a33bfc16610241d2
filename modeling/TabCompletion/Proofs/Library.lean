import TabCompletion.Grammar.Library
import TabCompletion.Proofs.Registry

/-!
# The grammars of the library

The registry of a host is built from sources, one after another. A source that yields no grammar
is passed over, and so is one that is not a file; the others take their places in the order of
the sources. Only a fault, which no source should end in, stops the building. The main statement
is that this is all that happens (`registry_eq_ok_iff`).
-/

namespace TabCompletion.Library

/-- The grammar that a source adds to the registry. -/
def grammarOf? (h : Host) (source : String) : Option Grammar :=
  if Source.isLocal source then (Source.load h source).toOption else none

/-- The source is a file whose loading ends in a fault. -/
def IsFaulty (h : Host) (source : String) : Prop :=
  Source.isLocal source = true ∧ ∃ fault, Source.load h source = .error (.fault fault)

theorem not_isFaulty_of_grammarOf? {h : Host} {source : String} {g : Grammar}
    (hg : grammarOf? h source = some g) : ¬ IsFaulty h source := by
  rintro ⟨hlocal, fault, hload⟩
  rw [grammarOf?, if_pos hlocal, hload] at hg
  cases hg

/-- The registry with the grammars that sources add, later ones in the places of earlier ones. -/
def withSources (h : Host) (r : Registry) (sources : List String) : Registry :=
  (sources.filterMap (grammarOf? h)).foldl Registry.insert r

theorem withSources_cons (h : Host) (r : Registry) (source : String) (sources : List String) :
    withSources h r (source :: sources) =
      withSources h ((grammarOf? h source).elim r r.insert) sources := by
  unfold withSources
  cases hg : grammarOf? h source with
  | none => rw [List.filterMap_cons_none hg, Option.elim_none]
  | some g => rw [List.filterMap_cons_some hg, Option.elim_some, List.foldl_cons]

theorem frozen_elim_insert {r : Registry} (hr : r.frozen = false) (g : Option Grammar) :
    (g.elim r r.insert).frozen = false := by
  cases g with
  | none => exact hr
  | some g => exact (Registry.frozen_insert r g).trans hr

/-! ## One source -/

section

variable {load : String → Loading Grammar} {r : Registry} {source : String}

theorem addSource_of_not_isLocal (hlocal : Source.isLocal source = false) :
    addSource load r source = ⟨[skippedRemote source], .ok r⟩ := by
  simp [addSource, hlocal]

theorem addSource_of_failure (hlocal : Source.isLocal source = true) {f : LoadFailure}
    (hload : load source = .error (.failure f)) :
    addSource load r source = ⟨[skippedFailure source f], .ok r⟩ := by
  simp [addSource, hlocal, hload]

theorem addSource_of_fault (hlocal : Source.isLocal source = true) {fault : Fault}
    (hload : load source = .error (.fault fault)) :
    addSource load r source = pure (.error (.fault fault)) := by
  simp [addSource, hlocal, hload]

/-- A grammar is registered, since the registry is not frozen. -/
theorem addSource_of_ok (hlocal : Source.isLocal source = true) {g : Grammar}
    (hload : load source = .ok g) (hr : r.frozen = false) :
    addSource load r source = ⟨(r.register g).records, .ok (r.insert g)⟩ := by
  have hregister : (r.register g).value = .ok (r.insert g) := by
    simp [Registry.register, hr]
  simp only [addSource, hlocal, Bool.not_true, Bool.false_eq_true, if_false, hload]
  show (r.register g).andThen _ = _
  rw [Logged.andThen, hregister]
  exact congrArg (fun records => Logged.mk records _) (List.append_nil _)

end

section

variable {load : Loader} {r r' : Registry} {done : List Record} {source : String}
  {rest : List String}

theorem addSources_cons_of_ok (h : (addSource (load done) r source).value = .ok r') :
    addSources load r done (source :: rest) =
      ⟨(addSource (load done) r source).records ++
          (addSources load r' (done ++ (addSource (load done) r source).records) rest).records,
        (addSources load r' (done ++ (addSource (load done) r source).records) rest).value⟩ := by
  rw [addSources]
  show Logged.andThen _ _ = _
  rw [Logged.andThen, h]

theorem value_addSources_cons_of_fault {fault : Fault}
    (h : (addSource (load done) r source).value = .error (.fault fault)) :
    (addSources load r done (source :: rest)).value = .error (.fault fault) := by
  rw [addSources, Logged.value_bind, h]
  rfl

end

/-- A registry that is not frozen is left so by a source, unless a fault stops it. -/
theorem addSource_cases (load : String → Loading Grammar) {r : Registry} (hr : r.frozen = false)
    (source : String) :
    (∃ r', (addSource load r source).value = .ok r' ∧ r'.frozen = false) ∨
      ∃ fault, (addSource load r source).value = .error (.fault fault) := by
  cases hlocal : Source.isLocal source with
  | false => exact .inl ⟨r, by rw [addSource_of_not_isLocal hlocal], hr⟩
  | true =>
      cases hload : load source with
      | ok g =>
          exact .inl ⟨r.insert g, by rw [addSource_of_ok hlocal hload hr],
            (Registry.frozen_insert r g).trans hr⟩
      | error stop =>
          cases stop with
          | failure f => exact .inl ⟨r, by rw [addSource_of_failure hlocal hload], hr⟩
          | fault fault => exact .inr ⟨fault, by rw [addSource_of_fault hlocal hload]; rfl⟩

/-- Only a fault keeps sources from being added. -/
theorem exists_fault_of_addSources {load : Loader} {r : Registry} (hr : r.frozen = false)
    {done : List Record} {sources : List String} {e : Escape}
    (he : (addSources load r done sources).value = .error e) : ∃ fault, e = .fault fault := by
  induction sources generalizing r done with
  | nil => cases he
  | cons source rest ih =>
      rcases addSource_cases (load done) hr source with ⟨r', hvalue, hfrozen⟩ | ⟨fault, hfault⟩
      · rw [addSources_cons_of_ok hvalue] at he
        exact ih hfrozen he
      · rw [value_addSources_cons_of_fault hfault] at he
        cases he
        exact ⟨fault, rfl⟩

/-- Only a fault keeps a registry from being built. -/
theorem exists_fault_of_registryBy {load : Loader} {h : Host} {s : Settings} {e : Escape}
    (he : (registryBy load h s).value = .error e) : ∃ fault, e = .fault fault := by
  unfold registryBy at he
  split at he
  · cases he
    exact ⟨_, rfl⟩
  · next found _ =>
      rw [Logged.value_bind] at he
      split at he
      · next e' hadd =>
          cases he
          exact exists_fault_of_addSources rfl hadd
      · cases he

/-! ## A host that no record changes -/

/-- A source that ends in no fault adds the grammar that it yields, if any. -/
theorem addSource_of_not_isFaulty {h : Host} {r : Registry} (hr : r.frozen = false)
    {source : String} (hsource : ¬ IsFaulty h source) :
    (addSource (Source.load h) r source).value = .ok ((grammarOf? h source).elim r r.insert) := by
  unfold grammarOf?
  cases hlocal : Source.isLocal source with
  | false => rw [addSource_of_not_isLocal hlocal]; rfl
  | true =>
      cases hload : Source.load h source with
      | ok g => rw [addSource_of_ok hlocal hload hr]; rfl
      | error stop =>
          cases stop with
          | failure f => rw [addSource_of_failure hlocal hload]; rfl
          | fault fault => exact absurd ⟨hlocal, fault, hload⟩ hsource

theorem addSource_of_isFaulty {h : Host} {source : String} (hsource : IsFaulty h source)
    (r : Registry) :
    ∃ fault, (addSource (Source.load h) r source).value = .error (.fault fault) := by
  obtain ⟨hlocal, fault, hload⟩ := hsource
  exact ⟨fault, by rw [addSource_of_fault hlocal hload]; rfl⟩

/-- Sources that end in no fault add the grammars that they yield. -/
theorem addSources_of_not_isFaulty {h : Host} {r : Registry} (hr : r.frozen = false)
    {sources : List String} (hsources : ∀ source ∈ sources, ¬ IsFaulty h source)
    (done : List Record) :
    (addSources (fun _ => Source.load h) r done sources).value = .ok (withSources h r sources) := by
  induction sources generalizing r done with
  | nil => rfl
  | cons source sources ih =>
      have hfirst := addSource_of_not_isFaulty hr (hsources source List.mem_cons_self)
      rw [addSources_cons_of_ok hfirst, withSources_cons]
      exact ih (frozen_elim_insert hr _) (fun s hs => hsources s (List.mem_cons_of_mem _ hs)) _

/-- A source that ends in a fault stops the building, whatever the others yield. -/
theorem addSources_of_isFaulty {h : Host} {r : Registry} (hr : r.frozen = false)
    {sources : List String} {source : String} (hmem : source ∈ sources)
    (hsource : IsFaulty h source) (done : List Record) :
    ∃ fault, (addSources (fun _ => Source.load h) r done sources).value =
      .error (.fault fault) := by
  induction sources generalizing r done with
  | nil => cases hmem
  | cons first sources ih =>
      by_cases hfirst : IsFaulty h first
      · -- the building stops at the first source
        obtain ⟨fault, hfault⟩ := addSource_of_isFaulty hfirst r
        exact ⟨fault, value_addSources_cons_of_fault hfault⟩
      · -- the first source is done with, and the faulty one comes later
        rw [addSources_cons_of_ok (addSource_of_not_isFaulty hr hfirst)]
        rcases List.mem_cons.1 hmem with rfl | hmem
        · exact absurd hsource hfirst
        · exact ih (frozen_elim_insert hr _) hmem _

/-- The sources of the grammars of a host, besides the built-in one. -/
def sourcesOf (found : List Path) (s : Settings) : List String :=
  found.map Path.text ++ s.grammarFiles

/-- The registry of the built-in grammar and of those that sources yield. -/
def registryOf (h : Host) (sources : List String) : Registry :=
  (withSources h start sources).freeze

theorem registry_of_not_isFaulty {h : Host} {s : Settings} {found : List Path}
    (hfiles : files h = .ok found) (hsources : ∀ source ∈ sourcesOf found s, ¬ IsFaulty h source) :
    (registry h s).value = .ok (registryOf h (sourcesOf found s)) := by
  have hadd := addSources_of_not_isFaulty (r := start) rfl hsources []
  rw [sourcesOf] at hadd
  rw [registry, registryBy, hfiles]
  dsimp only
  rw [Logged.value_bind, hadd]
  rfl

theorem registry_of_isFaulty {h : Host} {s : Settings} {found : List Path}
    (hfiles : files h = .ok found) {source : String} (hmem : source ∈ sourcesOf found s)
    (hsource : IsFaulty h source) : ∃ fault, (registry h s).value = .error (.fault fault) := by
  obtain ⟨fault, hadd⟩ := addSources_of_isFaulty (r := start) rfl hmem hsource []
  rw [sourcesOf] at hadd
  refine ⟨fault, ?_⟩
  rw [registry, registryBy, hfiles]
  dsimp only
  rw [Logged.value_bind, hadd]
  rfl

/-- Either no source ends in a fault and the registry knows what they yield, or a fault stops
the building. -/
theorem registry_cases (h : Host) (s : Settings) :
    (∃ found, files h = .ok found ∧ (∀ source ∈ sourcesOf found s, ¬ IsFaulty h source) ∧
      (registry h s).value = .ok (registryOf h (sourcesOf found s))) ∨
    ∃ fault, (registry h s).value = .error (.fault fault) := by
  cases hfiles : files h with
  | error fault =>
      refine .inr ⟨fault, ?_⟩
      rw [registry, registryBy, hfiles]
      rfl
  | ok found =>
      by_cases hfaulty : ∃ source ∈ sourcesOf found s, IsFaulty h source
      · obtain ⟨source, hmem, hsource⟩ := hfaulty
        exact .inr (registry_of_isFaulty hfiles hmem hsource)
      · have hsources : ∀ source ∈ sourcesOf found s, ¬ IsFaulty h source :=
          fun source hmem hsource => hfaulty ⟨source, hmem, hsource⟩
        exact .inl ⟨found, rfl, hsources, registry_of_not_isFaulty hfiles hsources⟩

/-- The registry is built exactly if the files are found and no source ends in a fault; it then
knows the built-in grammar and those that the sources yield. -/
theorem registry_eq_ok_iff {h : Host} {s : Settings} {r : Registry} :
    (registry h s).value = .ok r ↔
      ∃ found, files h = .ok found ∧ (∀ source ∈ sourcesOf found s, ¬ IsFaulty h source) ∧
        r = registryOf h (sourcesOf found s) := by
  constructor
  · intro hr
    rcases registry_cases h s with ⟨found, hfiles, hsources, hvalue⟩ | ⟨fault, hvalue⟩
    · rw [hr, Except.ok.injEq] at hvalue
      exact ⟨found, hfiles, hsources, hvalue⟩
    · rw [hr] at hvalue
      cases hvalue
  · rintro ⟨found, hfiles, hsources, rfl⟩
    exact registry_of_not_isFaulty hfiles hsources

/-! ## A grammar that is saved -/

section

variable {h : Host} {g : Grammar} {disk : Disk}

/-- A grammar is saved by replacing its file. -/
theorem save_eq_ok_iff {path : Path} : save h g = (disk, .ok path) ↔
    fileOf h g = .ok path ∧ h.disk.replace path (fileText g) = (disk, none) := by
  unfold save
  cases hfile : fileOf h g with
  | error fault => simp
  | ok file =>
      dsimp only
      constructor
      · intro hsave
        split at hsave
        · next hreplace =>
            cases hsave
            exact ⟨rfl, hreplace⟩
        · cases hsave
      · rintro ⟨hpath, hreplace⟩
        cases hpath
        rw [hreplace]

end

end TabCompletion.Library
