import Mathlib.Logic.Relation
import TabCompletion.Proofs.Library

/-!
# Registries that are built while records are kept

A record that is made while a registry is built may change what the next source holds, if the
journal is kept there. So the building goes through states (`Library.Building`), in each of which
one source is dealt with as the disk has it by then (`Library.Passes`). The main statement is that
a registry is built exactly if this comes to the last source, and that only a fault can keep it
from that (`Library.reaches_or_fault`, `Library.value_registryIn_of_reaches`).

What a source says is taken letter for letter here. The library keeps it in characters, which is
the same if every grammar is said in characters (`Source.IsLiteral`); of grammars with surrogates
nothing is said.
-/

namespace TabCompletion

namespace Source

/-- If the source says a grammar, it does so in characters. -/
def IsLiteral (h : Host) (source : String) : Prop :=
  ∀ c, loadCoded h source = .ok c → ∃ g : Grammar, c = g.coded

/-- What is loaded is what the source says. -/
theorem loadCoded_eq_map {h : Host} {source : String} (hliteral : IsLiteral h source) :
    loadCoded h source = (load h source).map Grammar.coded := by
  unfold IsLiteral loadCoded loadAs at hliteral
  unfold loadCoded load loadAs
  cases hdocument : loadDocument h source with
  | error stop => rfl
  | ok d =>
      rw [hdocument] at hliteral
      simp only [bind, Except.bind] at hliteral ⊢
      cases hcoded : Grammar.Coded.ofDocument d with
      | error refusal =>
          rw [Grammar.ofDocument_of_refused hcoded]
          rfl
      | ok c =>
          obtain ⟨g, rfl⟩ := hliteral c (by rw [hcoded]; rfl)
          rw [Grammar.ofDocument_of_coded hcoded]
          rfl

/-- A grammar that a source says in characters is loaded. -/
theorem load_of_loadCoded {h : Host} {source : String} {g : Grammar}
    (hcoded : loadCoded h source = .ok g.coded) : load h source = .ok g := by
  have hliteral : IsLiteral h source := fun c hc => ⟨g, Except.ok.inj (hc.symm.trans hcoded)⟩
  rw [loadCoded_eq_map hliteral] at hcoded
  cases hload : load h source with
  | ok g' =>
      rw [hload] at hcoded
      exact congrArg Except.ok (Grammar.coded_injective (Except.ok.inj hcoded))
  | error stop =>
      rw [hload] at hcoded
      cases hcoded

/-- What keeps a source from saying a grammar keeps it from being loaded. -/
theorem load_of_loadCoded_error {h : Host} {source : String} {stop : LoadStop}
    (hcoded : loadCoded h source = .error stop) : load h source = .error stop := by
  have hliteral : IsLiteral h source := fun c hc => nomatch hc.symm.trans hcoded
  rw [loadCoded_eq_map hliteral] at hcoded
  cases hload : load h source with
  | ok g =>
      rw [hload] at hcoded
      cases hcoded
  | error stop' =>
      rw [hload] at hcoded
      cases hcoded
      rfl

/-- A stack that is deep enough does not matter. -/
theorem loadWithin_eq_load {h : Host} {source : String} (hdeep : exhausts h source = false) :
    loadWithin h source = load h source := by
  rw [loadWithin, if_neg (Bool.eq_false_iff.1 hdeep)]

end Source

namespace Library

/-- How far the building of a registry has come: the registry, the records made, and the sources
that are left. -/
structure Building where
  registry : Registry
  made : List Record
  left : List String

/-- A source is dealt with in a world: it is passed over with a warning or adds its grammar. -/
inductive Passes (w : World) : Building → Building → Prop
  | remote {r : Registry} {made : List Record} {source : String} {left : List String}
      (hlocal : Source.isLocal source = false) :
      Passes w ⟨r, made, source :: left⟩ ⟨r, made ++ [skippedRemote source], left⟩
  | failed {r : Registry} {made : List Record} {source : String} {left : List String}
      {f : LoadFailure} (hlocal : Source.isLocal source = true)
      (hdeep : Source.exhausts (w made) source = false)
      (hload : Source.loadCoded (w made) source = .error (.failure f)) :
      Passes w ⟨r, made, source :: left⟩ ⟨r, made ++ [skippedFailure source f], left⟩
  | added {r : Registry} {made : List Record} {source : String} {left : List String}
      {g : Grammar} (hlocal : Source.isLocal source = true)
      (hdeep : Source.exhausts (w made) source = false)
      (hload : Source.loadCoded (w made) source = .ok g.coded) :
      Passes w ⟨r, made, source :: left⟩ ⟨r.insert g, made ++ (r.register g).records, left⟩

/-- Sources are dealt with one after another. -/
abbrev Reaches (w : World) : Building → Building → Prop := Relation.ReflTransGen (Passes w)

/-- Every source says in characters what it says when its turn comes. -/
def IsLiteral (w : World) (b : Building) : Prop :=
  ∀ b' source left, Reaches w b b' → b'.left = source :: left →
    Source.IsLiteral (w b'.made) source

/-- What comes of the rest of the building. -/
def Building.result (w : World) (b : Building) : Except Escape Registry :=
  (addSources (fun made => Source.loadWithin (w made)) b.registry b.made b.left).value

section

variable {w : World} {r r' : Registry} {made : List Record} {source : String}
  {left : List String}

theorem result_of_addSource {noted : List Record}
    (h : addSource (Source.loadWithin (w made)) r source = ⟨noted, .ok r'⟩) :
    Building.result w ⟨r, made, source :: left⟩ = Building.result w ⟨r', made ++ noted, left⟩ := by
  rw [Building.result, addSources_cons_of_ok (by rw [h]), h]
  rfl

/-- A source that is dealt with adds to the registry what it is dealt with for. -/
theorem result_of_passes {b b' : Building} (hb : b.registry.frozen = false) (h : Passes w b b') :
    b.result w = b'.result w ∧ b'.registry.frozen = false := by
  cases h with
  | remote hlocal => exact ⟨result_of_addSource (addSource_of_not_isLocal hlocal), hb⟩
  | failed hlocal hdeep hload =>
      have hfailed := Source.load_of_loadCoded_error hload
      rw [← Source.loadWithin_eq_load hdeep] at hfailed
      exact ⟨result_of_addSource (addSource_of_failure hlocal hfailed), hb⟩
  | added hlocal hdeep hload =>
      have hloaded := Source.load_of_loadCoded hload
      rw [← Source.loadWithin_eq_load hdeep] at hloaded
      exact ⟨result_of_addSource (addSource_of_ok hlocal hloaded hb),
        (Registry.frozen_insert _ _).trans hb⟩

/-- What the building comes to is what it comes to from any state on the way. -/
theorem result_of_reaches {b b' : Building} (hb : b.registry.frozen = false)
    (h : Reaches w b b') : b.result w = b'.result w := by
  induction h using Relation.ReflTransGen.head_induction_on with
  | refl => rfl
  | head hpasses _ ih =>
      obtain ⟨hresult, hfrozen⟩ := result_of_passes hb hpasses
      exact hresult.trans (ih hfrozen)

end

/-- The building before any source is dealt with. -/
def Building.ofSources (sources : List String) : Building := ⟨start, [], sources⟩

section

variable {w : World} {s : Settings} {found : List Path}

theorem value_registryIn (hfiles : files (w []) = .ok found) :
    (registryIn w s).value =
      ((Building.ofSources (sourcesOf found s)).result w).map Registry.freeze := by
  rw [registryIn, registryBy, hfiles]
  dsimp only
  rw [Logged.value_bind]
  show _ = Except.map _ (addSources _ start [] (sourcesOf found s)).value
  rw [sourcesOf]
  cases (addSources (fun done => Source.loadWithin (w done)) start []
    (found.map Path.text ++ s.grammarFiles)).value <;> rfl

/-- If the building comes to the last source, the registry is the one that it comes to. -/
theorem value_registryIn_of_reaches (hfiles : files (w []) = .ok found) {b : Building}
    (hreaches : Reaches w (.ofSources (sourcesOf found s)) b) (hleft : b.left = []) :
    (registryIn w s).value = .ok b.registry.freeze := by
  obtain ⟨r, made, left⟩ := b
  subst hleft
  rw [value_registryIn hfiles, result_of_reaches rfl hreaches]
  rfl

end

end Library

end TabCompletion
