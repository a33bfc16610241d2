import TabCompletion.Proofs.Library
import TabCompletion.Proofs.UserGrammars

/-!
# The default registry

The registry of a host registers the built-in grammar first, then what its sources yield, one
after another: the grammar files of the user in the order of their names, then the files that
the settings name. So a command has the grammar of the last source that has one for it, and the
commands come in the order in which they are first declared. A source that is passed over leaves
one warning and nothing else. `Library.IsDefault` collects what is true of this registry, and the
main statement is that exactly this registry is built, unless the files cannot be found or a
source ends in a fault (`Library.registry_eq_ok_iff_isDefault`).
-/

namespace TabCompletion

namespace Library

/-- The grammars that are registered: the built-in one and those of the sources. -/
def grammarsOf (h : Host) (sources : List String) : List Grammar :=
  Grammar.peerd :: sources.filterMap (grammarOf? h)

/-- The warning about a source that is passed over. -/
def warningOf? (h : Host) (source : String) : Option Record :=
  if Source.isLocal source then
    match Source.load h source with
    | .error (.failure f) => some (skippedFailure source f)
    | _ => none
  else some (skippedRemote source)

/-- The warnings among records. -/
def warnings (records : List Record) : List Record := records.filter fun r => r.level = .warning

/-- The registry is the default one of the host for the settings, `found` being the grammar
files of the user. -/
structure IsDefault (h : Host) (s : Settings) (found : List Path) (r : Registry) : Prop where
  /-- The files are those of the user. -/
  finds : Finds h found
  /-- The loading of a source ends in a grammar or in a failure. -/
  sound : ∀ source ∈ sourcesOf found s, ¬ IsFaulty h source
  /-- The built-in grammar and those of the sources are registered in this order. -/
  registered : r = Registry.run (Registry.steps (grammarsOf h (sourcesOf found s)))
  /-- No more grammars are registered. -/
  frozen : r.frozen = true
  /-- A command has the grammar of the last source that declares it. -/
  lookup : ∀ command g, r.lookup? command = some g ↔
    g.IsLastOf (grammarsOf h (sourcesOf found s)) command
  /-- The commands come in the order of their first declarations. -/
  names : r.names = ("peerd" :: (sourcesOf found s).filterMap fun source =>
    (grammarOf? h source).map Grammar.command).eraseDups
  /-- Each source that is passed over leaves one warning. -/
  warned : warnings (registry h s).records = (sourcesOf found s).filterMap (warningOf? h)
  /-- No file of the user is passed over for what its path looks like. -/
  files_local : ∀ p ∈ found, Source.isLocal p.text = true

/-! ## Warnings -/

theorem warnings_append (before after : List Record) :
    warnings (before ++ after) = warnings before ++ warnings after := List.filter_append ..

/-- A source that is passed over leaves a warning; another one leaves none. -/
theorem warnings_addSource {h : Host} {r : Registry} (hr : r.frozen = false) {source : String}
    (hsource : ¬ IsFaulty h source) :
    warnings (addSource (Source.load h) r source).records = (warningOf? h source).toList := by
  unfold warningOf?
  cases hlocal : Source.isLocal source with
  | false => rw [addSource_of_not_isLocal hlocal]; rfl
  | true =>
      cases hload : Source.load h source with
      | error stop =>
          cases stop with
          | failure f => rw [addSource_of_failure hlocal hload]; rfl
          | fault fault => exact absurd ⟨hlocal, fault, hload⟩ hsource
      | ok g =>
          -- a grammar that is replaced is no warning
          rw [addSource_of_ok hlocal hload hr, Registry.register, if_neg (by simp [hr])]
          cases r.contains g.command <;> rfl

theorem warnings_addSources {h : Host} {r : Registry} (hr : r.frozen = false)
    {sources : List String} (hsources : ∀ source ∈ sources, ¬ IsFaulty h source)
    (done : List Record) :
    warnings (addSources (fun _ => Source.load h) r done sources).records =
      sources.filterMap (warningOf? h) := by
  induction sources generalizing r done with
  | nil => rfl
  | cons source sources ih =>
      obtain ⟨hsource, hrest⟩ := List.forall_mem_cons.1 hsources
      rw [addSources_cons_of_ok (addSource_of_not_isFaulty hr hsource), warnings_append,
        warnings_addSource hr hsource, ih (frozen_elim_insert hr _) hrest]
      cases hwarning : warningOf? h source with
      | none => rw [List.filterMap_cons_none hwarning]; rfl
      | some w => rw [List.filterMap_cons_some hwarning]; rfl

theorem warnings_registry {h : Host} {s : Settings} {found : List Path}
    (hfiles : files h = .ok found) (hsources : ∀ source ∈ sourcesOf found s, ¬ IsFaulty h source) :
    warnings (registry h s).records = (sourcesOf found s).filterMap (warningOf? h) := by
  have hvalue := addSources_of_not_isFaulty (r := start) rfl hsources []
  have hrecords := warnings_addSources (r := start) rfl hsources []
  rw [sourcesOf] at hvalue hrecords
  rw [registry, registryBy, hfiles]
  dsimp only
  rw [Logged.records_bind, hvalue, warnings_append, hrecords]
  -- the registry is noted at the end, which is no warning
  exact List.append_nil _

/-! ## The registry -/

theorem registryOf_eq_run (h : Host) (sources : List String) :
    registryOf h sources = Registry.run (Registry.steps (grammarsOf h sources)) := by
  rw [Registry.run, Registry.takeAll_steps _ rfl]
  rfl

/-- For a command the registry knows the last of the grammars that are registered. -/
theorem lookup?_registryOf (h : Host) (sources : List String) (command : String) (g : Grammar) :
    (registryOf h sources).lookup? command = some g ↔
      g.IsLastOf (grammarsOf h sources) command := by
  rw [registryOf_eq_run, Registry.lookup?_run, Registry.registrations_steps]

/-- The registry that is built is the default one. It is built unless the search for the files
of the user ends in a fault, or the loading of a source does. -/
theorem registry_eq_ok_iff_isDefault (h : Host) (s : Settings) :
    (∀ r, (registry h s).value = .ok r ↔ ∃ found, IsDefault h s found r) ∧
      ∀ e, (registry h s).value = .error e →
        (∃ fault, files h = .error fault) ∨
          ∃ found, Finds h found ∧ ∃ source ∈ sourcesOf found s, IsFaulty h source := by
  refine ⟨fun r => ?_, fun e he => ?_⟩
  · rw [registry_eq_ok_iff]
    constructor
    · rintro ⟨found, hfiles, hsources, rfl⟩
      have hfinds := files_eq_ok_iff.1 hfiles
      refine ⟨found, hfinds, hsources, registryOf_eq_run h _, rfl, lookup?_registryOf h _, ?_,
        warnings_registry hfiles hsources, isLocal_of_finds hfinds⟩
      rw [registryOf_eq_run, Registry.names_run, Registry.registrations_steps, grammarsOf,
        List.map_cons, List.map_filterMap]
      rfl
    · rintro ⟨found, hdefault⟩
      exact ⟨found, files_eq_ok_iff.2 hdefault.finds, hdefault.sound,
        hdefault.registered.trans (registryOf_eq_run h _).symm⟩
  · cases hfiles : files h with
    | error fault => exact .inl ⟨fault, rfl⟩
    | ok found =>
        refine .inr ⟨found, files_eq_ok_iff.1 hfiles, Classical.byContradiction fun hno => ?_⟩
        have hsources : ∀ source ∈ sourcesOf found s, ¬ IsFaulty h source :=
          fun source hmem hsource => hno ⟨source, hmem, hsource⟩
        rw [registry_of_not_isFaulty hfiles hsources] at he
        cases he

end Library

end TabCompletion
