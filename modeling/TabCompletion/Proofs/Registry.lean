import Mathlib.Data.List.Nodup
import TabCompletion.Grammar.Registry
import TabCompletion.Proofs.Distinct

/-!
# Runs of a registry

A run registers grammars and may freeze the registry at any time; a registration that fails
leaves the registry as it is. `Registry.run` is the registry after a run from nothing, and
`registrations` lists the grammars that were registered before it was frozen. The run lemmas
say what is left of them: the names are the commands in the order of their first registration
(`names_run`), and each command has the grammar that was registered for it last
(`lookup?_run`). `IsAfter` puts together what a registry then tells of itself, which settles
what it is (`run_eq_iff`).
-/

namespace TabCompletion

/-- What may be done to a registry. -/
inductive Registry.Step where
  | register (g : Grammar)
  | freeze

/-- The grammars that the steps register before the first that freezes. -/
def Registry.registrations : List Registry.Step → List Grammar
  | [] => []
  | .freeze :: _ => []
  | .register g :: rest => g :: registrations rest

/-- `g` is the last of the grammars `gs` for its command. -/
def Grammar.IsLastOf (g : Grammar) (gs : List Grammar) (command : String) : Prop :=
  ∃ before after, gs = before ++ g :: after ∧ g.command = command ∧
    ∀ h ∈ after, h.command ≠ command

/-- Of the grammars for a command one is the last. -/
theorem Grammar.exists_isLastOf {gs : List Grammar} {command : String}
    (h : ∃ g ∈ gs, g.command = command) : ∃ g : Grammar, g.IsLastOf gs command := by
  induction gs with
  | nil =>
      obtain ⟨g, hg, -⟩ := h
      cases hg
  | cons first rest ih =>
      -- a later grammar for the command goes before the first one
      by_cases hrest : ∃ g ∈ rest, g.command = command
      · obtain ⟨g, before, after, hgs, hc, hafter⟩ := ih hrest
        exact ⟨g, first :: before, after, by rw [hgs]; rfl, hc, hafter⟩
      · obtain ⟨g, hg, hc⟩ := h
        rcases List.mem_cons.1 hg with rfl | hg
        · exact ⟨g, [], rest, rfl, hc, fun h hh e => hrest ⟨h, hh, e⟩⟩
        · exact absurd ⟨g, hg, hc⟩ hrest

namespace Registry

/-- The registry after a step; a registration that fails changes nothing. -/
def take (r : Registry) : Step → Registry
  | .register g =>
    match (r.register g).value with
    | .ok r => r
    | .error _ => r
  | .freeze => r.freeze

/-- The registry after steps. -/
def takeAll (r : Registry) (steps : List Step) : Registry := steps.foldl take r

/-- The registry after steps from the registry that knows nothing. -/
def run (steps : List Step) : Registry := takeAll empty steps

/-! ## One step -/

theorem take_register_of_frozen {r : Registry} (hr : r.frozen = true) (g : Grammar) :
    r.take (.register g) = r := by
  simp [take, register, hr, Logged.value_pure]

theorem take_register_of_not_frozen {r : Registry} (hr : r.frozen = false) (g : Grammar) :
    r.take (.register g) = r.insert g := by
  simp [take, register, hr]

theorem frozen_insert (r : Registry) (g : Grammar) : (r.insert g).frozen = r.frozen := rfl

theorem nodup_names (r : Registry) : r.names.Nodup := r.nodup

theorem names_freeze (r : Registry) : r.freeze.names = r.names := rfl

theorem lookup?_freeze (r : Registry) (command : String) :
    r.freeze.lookup? command = r.lookup? command := rfl

theorem names_insert (r : Registry) (g : Grammar) :
    (r.insert g).names = if g.command ∈ r.names then r.names else r.names ++ [g.command] :=
  Grammar.map_command_replaceIn g r.grammars

theorem find?_replaceIn (g : Grammar) (command : String) (gs : List Grammar) :
    (g.replaceIn gs).find? (fun h => h.command = command) =
      if g.command = command then some g else gs.find? fun h => h.command = command := by
  induction gs with
  | nil =>
      by_cases hc : g.command = command <;> simp [Grammar.replaceIn, hc]
  | cons h rest ih =>
      by_cases hg : h.command = g.command
      · -- the place of the grammar that is replaced
        by_cases hc : g.command = command <;> simp [Grammar.replaceIn, hg, hc]
      · -- a grammar for another command stays
        rw [Grammar.replaceIn, if_neg hg]
        by_cases hh : h.command = command
        · have hc : ¬ g.command = command := fun e => hg (hh.trans e.symm)
          simp [hh, hc]
        · simp [hh, ih]

theorem lookup?_insert (r : Registry) (g : Grammar) (command : String) :
    (r.insert g).lookup? command = if g.command = command then some g else r.lookup? command :=
  find?_replaceIn g command r.grammars

/-! ## A run -/

theorem takeAll_of_frozen (steps : List Step) {r : Registry} (hr : r.frozen = true) :
    takeAll r steps = r := by
  induction steps with
  | nil => rfl
  | cons s rest ih =>
      have hs : r.take s = r := by
        cases s with
        | register g => exact take_register_of_frozen hr g
        | freeze =>
            show ({ r with frozen := true } : Registry) = r
            rw [← hr]
      show takeAll (r.take s) rest = r
      rw [hs, ih]

/-- The names after steps: those before them and the commands of the registrations, each at
its first place. -/
theorem names_takeAll (steps : List Step) {r : Registry} (hr : r.frozen = false) :
    (takeAll r steps).names =
      (r.names ++ (registrations steps).map Grammar.command).eraseDups := by
  -- only an unfrozen registry takes a step, and a frozen one stays as it is
  induction steps generalizing r with
  | nil =>
      show r.names = (r.names ++ []).eraseDups
      rw [List.append_nil, eraseDups_eq_self r.nodup_names]
  | cons s rest ih =>
      cases s with
      | freeze =>
          show (takeAll r.freeze rest).names = (r.names ++ []).eraseDups
          rw [takeAll_of_frozen rest rfl, names_freeze, List.append_nil,
            eraseDups_eq_self r.nodup_names]
      | register g =>
          show (takeAll (r.take (.register g)) rest).names =
            (r.names ++ g.command :: (registrations rest).map Grammar.command).eraseDups
          rw [take_register_of_not_frozen hr, ih ((frozen_insert r g).trans hr), names_insert,
            eraseDups_append_cons]

/-- The grammar of a command after steps: the last one registered, or else the earlier one. -/
theorem lookup?_takeAll (steps : List Step) (command : String) {r : Registry}
    (hr : r.frozen = false) :
    (takeAll r steps).lookup? command =
      ((registrations steps).reverse.find? fun g => g.command = command).or
        (r.lookup? command) := by
  induction steps generalizing r with
  | nil => rfl
  | cons s rest ih =>
      cases s with
      | freeze =>
          show (takeAll r.freeze rest).lookup? command = r.lookup? command
          rw [takeAll_of_frozen rest rfl, lookup?_freeze]
      | register g =>
          show (takeAll (r.take (.register g)) rest).lookup? command = _
          rw [take_register_of_not_frozen hr, ih ((frozen_insert r g).trans hr), lookup?_insert]
          by_cases hc : g.command = command <;> simp [registrations, List.find?_append, hc]

/-- The commands of a run, in the order of their first registration. -/
theorem names_run (steps : List Step) :
    (run steps).names = ((registrations steps).map Grammar.command).eraseDups :=
  names_takeAll steps rfl

theorem lookup?_run_eq (steps : List Step) (command : String) :
    (run steps).lookup? command =
      (registrations steps).reverse.find? fun g => g.command = command := by
  rw [run, lookup?_takeAll steps command rfl]
  exact Option.or_none

/-- A run leaves a command the grammar that was registered for it last. -/
theorem lookup?_run (steps : List Step) (command : String) (g : Grammar) :
    (run steps).lookup? command = some g ↔ g.IsLastOf (registrations steps) command := by
  rw [lookup?_run_eq, List.find?_eq_some_iff_append]
  constructor
  · rintro ⟨hc, before, after, hgs, hbefore⟩
    refine ⟨after.reverse, before.reverse, ?_, by simpa using hc, fun h hh => ?_⟩
    · simpa using congrArg List.reverse hgs
    · simpa using hbefore h (List.mem_reverse.1 hh)
  · rintro ⟨before, after, hgs, hc, hafter⟩
    refine ⟨by simpa using hc, after.reverse, before.reverse, ?_, fun h hh => ?_⟩
    · simp [hgs]
    · simpa using hafter h (List.mem_reverse.1 hh)

theorem lookup?_run_eq_none_iff (steps : List Step) (command : String) :
    (run steps).lookup? command = none ↔ ∀ g ∈ registrations steps, g.command ≠ command := by
  rw [lookup?_run_eq]
  simp

/-- A registration freezes nothing and unfreezes nothing. -/
theorem frozen_take (r : Registry) (s : Step) :
    (r.take s).frozen = true ↔ r.frozen = true ∨ s = .freeze := by
  cases s with
  | register g =>
      cases hr : r.frozen with
      | true => simp [take_register_of_frozen hr, hr]
      | false => simp [take_register_of_not_frozen hr, frozen_insert, hr]
  | freeze =>
      show (r.freeze.frozen = true ↔ _)
      simp [freeze]

theorem frozen_takeAll (steps : List Step) (r : Registry) :
    (takeAll r steps).frozen = true ↔ r.frozen = true ∨ .freeze ∈ steps := by
  induction steps generalizing r with
  | nil => simp [takeAll]
  | cons s rest ih =>
      show (takeAll (r.take s) rest).frozen = true ↔ _
      rw [ih, frozen_take, List.mem_cons, or_assoc, @eq_comm _ s]

/-- Nothing that comes after the registry was frozen changes it. -/
theorem run_append_freeze (before after : List Step) :
    run (before ++ .freeze :: after) = run (before ++ [.freeze]) := by
  have hfrozen : (run (before ++ [.freeze])).frozen = true :=
    (frozen_takeAll _ _).2 (.inr (by simp))
  have hsteps : before ++ .freeze :: after = (before ++ [.freeze]) ++ after := by simp
  rw [hsteps, run, takeAll, List.foldl_append]
  exact takeAll_of_frozen after hfrozen

/-! ## What a registry tells of itself -/

/-- The grammar at a command is the one that the registry lists for it. -/
theorem lookup?_command_of_mem {r : Registry} {g : Grammar} (hg : g ∈ r.grammars) :
    r.lookup? g.command = some g := by
  cases hfound : r.lookup? g.command with
  | none =>
      have hnone := List.find?_eq_none.1 hfound g hg
      simp at hnone
  | some h =>
      have hmem := List.mem_of_find?_eq_some hfound
      have hcommand : h.command = g.command := by simpa using List.find?_some hfound
      rw [List.inj_on_of_nodup_map r.nodup hmem hg hcommand]

/-- The grammars are those that the names lead to, one after another. -/
theorem map_some_grammars (r : Registry) : r.grammars.map some = r.names.map r.lookup? := by
  rw [names, List.map_map]
  exact List.map_congr_left fun g hg => (lookup?_command_of_mem hg).symm

/-- A registry is settled by its names, what they lead to, and whether it is frozen. -/
theorem eq_of_names_of_lookup? {r r' : Registry} (hnames : r.names = r'.names)
    (hlookup : ∀ command, r.lookup? command = r'.lookup? command)
    (hfrozen : r.frozen = r'.frozen) : r = r' := by
  have hgrammars : r.grammars = r'.grammars := by
    apply List.map_injective_iff.2 fun (g h : Grammar) (hsome : some g = some h) =>
      Option.some.inj hsome
    rw [map_some_grammars, map_some_grammars, hnames, funext hlookup]
  obtain ⟨grammars, frozen, _⟩ := r
  obtain ⟨grammars', frozen', _⟩ := r'
  obtain rfl : grammars = grammars' := hgrammars
  obtain rfl : frozen = frozen' := hfrozen
  rfl

theorem register_eq_error_iff {r : Registry} {g : Grammar} {f : Failure} :
    (r.register g).value = .error f ↔ r.frozen = true ∧ f = frozenFailure g := by
  cases hr : r.frozen with
  | true => simp [register, hr, Logged.value_pure, eq_comm]
  | false => simp [register, hr]

/-- What a registry tells of itself after steps, said from the steps alone. -/
structure IsAfter (steps : List Step) (r : Registry) : Prop where
  nodup_names : r.names.Nodup
  /-- The commands of the registrations, each at the place of the first one for it. -/
  names_eq : r.names = ((registrations steps).map Grammar.command).eraseDups
  /-- Each command has the grammar that was registered for it last. -/
  lookup?_eq_some_iff : ∀ command g,
    r.lookup? command = some g ↔ g.IsLastOf (registrations steps) command
  lookup?_eq_none_iff : ∀ command,
    r.lookup? command = none ↔ ∀ g ∈ registrations steps, g.command ≠ command
  /-- The three ways to ask for a command agree. -/
  contains_iff : ∀ command, r.contains command = true ↔ r.lookup? command ≠ none
  get_eq_ok_iff : ∀ command g, r.get command = .ok g ↔ r.lookup? command = some g
  get_eq_error_iff : ∀ command f,
    r.get command = .error f ↔ r.lookup? command = none ∧ f = .ofUnknownCommand command
  /-- Going through the registry gives the grammars of its names in their order. -/
  map_some_grammars : r.grammars.map some = r.names.map r.lookup?
  command_of_lookup? : ∀ command g, r.lookup? command = some g → g.command = command
  length_grammars : r.grammars.length = r.names.length
  /-- Once frozen, the registry stays frozen and takes no more grammars. -/
  frozen_iff : r.frozen = true ↔ .freeze ∈ steps
  register_eq_error_iff : ∀ g f,
    (r.register g).value = .error f ↔ .freeze ∈ steps ∧ f = frozenFailure g

theorem isAfter_run (steps : List Step) : IsAfter steps (run steps) where
  nodup_names := (run steps).nodup_names
  names_eq := names_run steps
  lookup?_eq_some_iff := lookup?_run steps
  lookup?_eq_none_iff := lookup?_run_eq_none_iff steps
  contains_iff command := Option.isSome_iff_ne_none
  get_eq_ok_iff command g := by
    unfold get
    cases (run steps).lookup? command <;> simp
  get_eq_error_iff command f := by
    unfold get
    cases (run steps).lookup? command <;> simp [eq_comm]
  map_some_grammars := (run steps).map_some_grammars
  command_of_lookup? command g hg := by simpa using List.find?_some hg
  length_grammars := by rw [names, List.length_map]
  frozen_iff := by simp [run, frozen_takeAll, empty]
  register_eq_error_iff g f := by
    rw [Registry.register_eq_error_iff, run, frozen_takeAll]
    simp [empty]

/-- The registry after a run is the one that tells of itself what the steps say; and what follows
a step that freezes it makes no difference to it. -/
theorem run_eq_iff (steps : List Step) :
    (∀ r : Registry, run steps = r ↔ IsAfter steps r) ∧
      ∀ before after, run (before ++ .freeze :: after) = run (before ++ [.freeze]) := by
  refine ⟨fun r => ⟨?_, fun hr => ?_⟩, run_append_freeze⟩
  · rintro rfl
    exact isAfter_run steps
  · have hrun := isAfter_run steps
    apply eq_of_names_of_lookup?
    · exact hrun.names_eq.trans hr.names_eq.symm
    · intro command
      apply Option.ext
      intro g
      exact (hrun.lookup?_eq_some_iff command g).trans (hr.lookup?_eq_some_iff command g).symm
    · rw [Bool.eq_iff_iff]
      exact hrun.frozen_iff.trans hr.frozen_iff.symm

/-! ## Grammars that are registered one after another -/

/-- The steps that register grammars and then freeze the registry. -/
def steps (gs : List Grammar) : List Step := gs.map .register ++ [.freeze]

theorem registrations_steps (gs : List Grammar) : registrations (steps gs) = gs := by
  induction gs with
  | nil => rfl
  | cons g gs ih => exact congrArg (g :: ·) ih

theorem takeAll_steps (gs : List Grammar) {r : Registry} (hr : r.frozen = false) :
    takeAll r (steps gs) = (gs.foldl insert r).freeze := by
  induction gs generalizing r with
  | nil => rfl
  | cons g gs ih =>
      show takeAll (r.take (.register g)) (steps gs) = _
      rw [take_register_of_not_frozen hr]
      exact ih ((frozen_insert r g).trans hr)

end Registry

/-! ## The last grammar for a command -/

theorem Grammar.IsLastOf.unique {gs : List Grammar} {command : String} {a b : Grammar}
    (ha : a.IsLastOf gs command) (hb : b.IsLastOf gs command) : a = b := by
  have hrun := Registry.lookup?_run (Registry.steps gs) command
  rw [Registry.registrations_steps] at hrun
  exact Option.some.inj (((hrun a).2 ha).symm.trans ((hrun b).2 hb))

theorem Grammar.IsLastOf.mem {gs : List Grammar} {command : String} {a : Grammar}
    (ha : a.IsLastOf gs command) : a ∈ gs := by
  obtain ⟨before, after, rfl, -, -⟩ := ha
  exact List.mem_append_right _ List.mem_cons_self

theorem Grammar.IsLastOf.append {gs : List Grammar} {command : String} {a : Grammar}
    (ha : a.IsLastOf gs command) (first : List Grammar) : a.IsLastOf (first ++ gs) command := by
  obtain ⟨before, after, rfl, hcommand, hafter⟩ := ha
  exact ⟨first ++ before, after, (List.append_assoc ..).symm, hcommand, hafter⟩

/-- A grammar is the last for its command unless there is another one behind it. -/
theorem Grammar.isLastOf_append_cons {g : Grammar} {before after : List Grammar} :
    g.IsLastOf (before ++ g :: after) g.command ↔
      ∀ other : Grammar, other.IsLastOf after g.command → other = g := by
  constructor
  · intro hlast other hother
    have hall := (hother.append [g]).append before
    exact hall.unique hlast
  · intro hothers
    by_cases hlater : ∃ other ∈ after, other.command = g.command
    · obtain ⟨other, hother⟩ := exists_isLastOf hlater
      have hsame := hothers other hother
      rw [hsame] at hother
      exact (hother.append [g]).append before
    · exact ⟨before, after, rfl, rfl, fun other hmem hc => hlater ⟨other, hmem, hc⟩⟩

end TabCompletion
