import TabCompletion.Engine
import TabCompletion.Proofs.Candidates
import TabCompletion.Proofs.Options
import TabCompletion.Proofs.Registry
import TabCompletion.Proofs.Request

/-!
# What the engine answers

`Engine.Expects` says case by case what is expected at a cursor, from the list of registered
grammars, the source of paths, and three words: the first one, the one before the cursor and
the one under it. `Engine.offeredBy` says which candidates are then offered. The main statement
is that the answer of an engine on a machine is the one that these two say if the words fit there,
and none otherwise, for every run of its registry, all words, every cursor and every source of
paths (`explainIn_eq_iff`).
-/

namespace TabCompletion

/-- The escape only says that there is nothing to offer: a file cannot be used, or a provider is
unavailable. -/
def Escape.isUnavailable : Escape → Bool
  | .failure f => f.kind = .provider
  | .fault (.file _) => true
  | .fault _ => false

namespace Engine

/-- What is expected at the cursor on the word of that index, if an answer can be found. The
grammars `gs` were registered in this order. -/
inductive Expects (gs : List Grammar) (paths : PathSource String) (words : List String) :
    Nat → Option Resolution → Prop
  | commandName :
      Expects gs paths words 0
        (some { state := .expectCommandName
                candidates := (gs.map Grammar.command).eraseDups })
  | unknownCommand {i : Nat} (h : ∀ g ∈ gs, g.command ≠ wordAt words 0) :
      Expects gs paths words (i + 1) (some { state := .expectOptionOrPositional })
  | noOption {i : Nat} {g : Grammar} (hg : g.IsLastOf gs (wordAt words 0))
      (ho : ∀ o ∈ g.options, wordAt words i ∉ o.forms) :
      Expects gs paths words (i + 1)
        (some { state := .expectOptionOrPositional
                candidates := g.options.filterMap OptionSpec.short ++
                  g.options.map OptionSpec.long
                grammar := some g })
  | flag {i : Nat} {g : Grammar} {o : OptionSpec} (hg : g.IsLastOf gs (wordAt words 0))
      (ho : o ∈ g.options) (hf : wordAt words i ∈ o.forms) (hd : o.domain = .none) :
      Expects gs paths words (i + 1)
        (some { state := .expectOptionOrPositional
                candidates := g.options.filterMap OptionSpec.short ++
                  g.options.map OptionSpec.long
                grammar := some g
                option := some o })
  | enumValue {i : Nat} {g : Grammar} {o : OptionSpec} {values : List String}
      (hg : g.IsLastOf gs (wordAt words 0)) (ho : o ∈ g.options)
      (hf : wordAt words i ∈ o.forms) (hd : o.domain = .enum values) :
      Expects gs paths words (i + 1)
        (some { state := .expectOptionValue
                candidates := values
                grammar := some g
                option := some o })
  | path {i : Nat} {g : Grammar} {o : OptionSpec} {offered : List String}
      (hg : g.IsLastOf gs (wordAt words 0)) (ho : o ∈ g.options)
      (hf : wordAt words i ∈ o.forms) (hd : o.domain = .path)
      (hp : (paths (wordAt words (i + 1))).value = .ok offered) :
      Expects gs paths words (i + 1)
        (some { state := .expectOptionValue
                candidates := offered
                grammar := some g
                option := some o })
  | pathUnavailable {i : Nat} {g : Grammar} {o : OptionSpec} {e : Escape}
      (hg : g.IsLastOf gs (wordAt words 0)) (ho : o ∈ g.options)
      (hf : wordAt words i ∈ o.forms) (hd : o.domain = .path)
      (hp : (paths (wordAt words (i + 1))).value = .error e) (he : e.isUnavailable = true) :
      Expects gs paths words (i + 1)
        (some { state := .expectOptionValue
                grammar := some g
                option := some o })
  | aborted {i : Nat} {g : Grammar} {o : OptionSpec} {e : Escape}
      (hg : g.IsLastOf gs (wordAt words 0)) (ho : o ∈ g.options)
      (hf : wordAt words i ∈ o.forms) (hd : o.domain = .path)
      (hp : (paths (wordAt words (i + 1))).value = .error e) (he : e.isUnavailable = false) :
      Expects gs paths words (i + 1) none

/-- The candidates offered for the current word: those of the resolution that begin with it,
each once, at the place where it first comes. -/
def offeredBy (r : Option Resolution) (current : String) : List String :=
  match r with
  | none => []
  | some r => (r.candidates.filter fun c => current.toList.isPrefixOf c.toList).eraseDups

/-! ## The steps of an answer -/

/-- An answer is the resolution of the request, none if that is an escape, and what it offers. -/
theorem value_explain (e : Engine) (words : List String) (cursor : Int) :
    (e.explain words cursor).value =
      ⟨(e.resolve (Request.ofWords words cursor)).value.toOption,
        offeredBy (e.resolve (Request.ofWords words cursor)).value.toOption
          (wordAt words cursor.toNat)⟩ := by
  unfold explain
  simp only [Logged.value_bind]
  cases (e.resolve (Request.ofWords words cursor)).value with
  | error _ => rfl
  | ok r =>
      simp only [Except.toOption, offeredBy, Logged.value_bind, Logged.value_pure,
        Candidates.filter_eq_eraseDups, Request.current_ofWords]
      rfl

theorem resolve_first (e : Engine) {r : Request} (h : r.cursor = 0) :
    (e.resolve r).value =
      .ok { state := .expectCommandName, candidates := e.registry.names } := by
  simp [resolve, h, Logged.value_pure]

theorem resolve_unknown (e : Engine) {r : Request} (h : r.cursor ≠ 0)
    (hg : e.registry.lookup? r.command = none) :
    (e.resolve r).value = .ok { state := .expectOptionOrPositional } := by
  simp [resolve, h, Registry.get, hg, Logged.value_bind, Logged.value_pure]

theorem resolve_noOption (e : Engine) {r : Request} (h : r.cursor ≠ 0) {g : Grammar}
    (hg : e.registry.lookup? r.command = some g) (ho : g.findOption? r.previous = none) :
    (e.resolve r).value =
      .ok { state := .expectOptionOrPositional, candidates := g.optionForms,
            grammar := some g } := by
  simp [resolve, h, Registry.get, hg, Grammar.getOption, ho, Logged.value_bind,
    Logged.value_pure]

theorem resolve_option (e : Engine) {r : Request} (h : r.cursor ≠ 0) {g : Grammar}
    {o : OptionSpec} (hg : e.registry.lookup? r.command = some g)
    (ho : g.findOption? r.previous = some o) :
    (e.resolve r).value =
      if o.domain.takesValue then (e.resolveValue g o r.current).value
      else .ok { state := .expectOptionOrPositional, candidates := g.optionForms,
                 grammar := some g, option := some o } := by
  simp only [resolve, if_neg h, Registry.get, hg, Grammar.getOption, ho]
  split <;> rfl

theorem resolveValue_enum (e : Engine) (g : Grammar) {o : OptionSpec} (current : String)
    {values : List String} (hd : o.domain = .enum values) :
    (e.resolveValue g o current).value =
      .ok { state := .expectOptionValue, candidates := values, grammar := some g,
            option := some o } := by
  cases values with
  | nil =>
      -- without values the provider is unavailable, which leaves no candidates either
      simp [resolveValue, Provider.candidates, hd, Provider.unavailable, Logged.value_bind,
        Logged.value_pure]
  | cons v vs =>
      simp [resolveValue, Provider.candidates, hd, Logged.value_bind, Logged.value_pure]

theorem resolveValue_path (e : Engine) (g : Grammar) {o : OptionSpec} (current : String)
    (hd : o.domain = .path) :
    (e.resolveValue g o current).value =
      match (e.paths current).value with
      | .ok offered => .ok { state := .expectOptionValue, candidates := offered,
                             grammar := some g, option := some o }
      | .error escape =>
        if escape.isUnavailable then
          .ok { state := .expectOptionValue, grammar := some g, option := some o }
        else .error escape := by
  simp only [resolveValue, Provider.candidates, hd, Logged.value_bind]
  cases (e.paths current).value with
  | ok offered => rfl
  | error escape =>
      cases escape with
      | failure f =>
          -- only the failure of a provider is taken for no candidates
          by_cases hf : f.kind = .provider <;>
            simp [Escape.isUnavailable, hf, Logged.value_bind, Logged.value_pure]
      | fault f =>
          -- a file that cannot be used makes the provider unavailable
          cases f <;>
            simp [Escape.isUnavailable, Provider.unavailable, Logged.value_bind,
              Logged.value_pure]

/-! ## Agreement with what is expected -/

section Agreement

variable (steps : List Registry.Step) (paths : PathSource String) (words : List String)
  (cursor : Int)

/-- The engine over a registry that a run leaves. -/
def afterRun : Engine := ⟨Registry.run steps, paths⟩

variable {steps paths words cursor}

theorem lookup?_command {g : Grammar}
    (hg : g.IsLastOf (Registry.registrations steps) (wordAt words 0)) :
    (afterRun steps paths).registry.lookup? (Request.ofWords words cursor).command = some g := by
  rw [Request.command_ofWords]
  exact (Registry.lookup?_run steps _ g).2 hg

theorem findOption?_previous {g : Grammar} {o : OptionSpec} {i : Nat} (hi : cursor.toNat = i + 1)
    (ho : o ∈ g.options) (hf : wordAt words i ∈ o.forms) :
    g.findOption? (Request.ofWords words cursor).previous = some o := by
  rw [Request.previous_ofWords words cursor hi]
  exact (g.findOption?_eq_some_iff _ o).2 ⟨ho, hf⟩

theorem resolve_path {g : Grammar} {o : OptionSpec} {i : Nat} (hi : cursor.toNat = i + 1)
    (hg : g.IsLastOf (Registry.registrations steps) (wordAt words 0)) (ho : o ∈ g.options)
    (hf : wordAt words i ∈ o.forms) (hd : o.domain = .path) :
    ((afterRun steps paths).resolve (Request.ofWords words cursor)).value =
      match (paths (wordAt words (i + 1))).value with
      | .ok offered => .ok { state := .expectOptionValue, candidates := offered,
                             grammar := some g, option := some o }
      | .error escape =>
        if escape.isUnavailable then
          .ok { state := .expectOptionValue, grammar := some g, option := some o }
        else .error escape := by
  have hcursor : (Request.ofWords words cursor).cursor ≠ 0 := by
    rw [Request.cursor_ofWords, hi]
    exact Nat.succ_ne_zero i
  rw [resolve_option _ hcursor (lookup?_command hg) (findOption?_previous hi ho hf), hd,
    ← hi, ← Request.current_ofWords]
  exact resolveValue_path _ g _ hd

/-- The resolution of an engine is the one that is expected. -/
theorem resolve_of_expects {i : Nat} {r : Option Resolution} (hi : cursor.toNat = i)
    (h : Expects (Registry.registrations steps) paths words i r) :
    ((afterRun steps paths).resolve (Request.ofWords words cursor)).value.toOption = r := by
  have hcursor : ∀ n, i = n + 1 → (Request.ofWords words cursor).cursor ≠ 0 := by
    intro n hn
    rw [Request.cursor_ofWords, hi, hn]
    exact Nat.succ_ne_zero n
  -- each way in which a resolution is expected is one branch of the resolver
  cases h with
  | commandName =>
      rw [resolve_first _ hi, ← Registry.names_run]
      rfl
  | unknownCommand h =>
      have hnone : (afterRun steps paths).registry.lookup?
          (Request.ofWords words cursor).command = none := by
        rw [Request.command_ofWords]
        exact (Registry.lookup?_run_eq_none_iff steps _).2 h
      rw [resolve_unknown _ (hcursor _ rfl) hnone]
      rfl
  | @noOption n g hg ho =>
      have hnone : g.findOption? (Request.ofWords words cursor).previous = none := by
        rw [Request.previous_ofWords words cursor hi]
        exact (g.findOption?_eq_none_iff _).2 ho
      rw [resolve_noOption _ (hcursor _ rfl) (lookup?_command hg) hnone]
      rfl
  | flag hg ho hf hd =>
      rw [resolve_option _ (hcursor _ rfl) (lookup?_command hg) (findOption?_previous hi ho hf),
        hd]
      rfl
  | enumValue hg ho hf hd =>
      rw [resolve_option _ (hcursor _ rfl) (lookup?_command hg) (findOption?_previous hi ho hf),
        resolveValue_enum _ _ _ hd, hd]
      rfl
  | path hg ho hf hd hp =>
      rw [resolve_path hi hg ho hf hd, hp]
      rfl
  | pathUnavailable hg ho hf hd hp he =>
      rw [resolve_path hi hg ho hf hd, hp]
      simp [he, Except.toOption]
  | aborted hg ho hf hd hp he =>
      rw [resolve_path hi hg ho hf hd, hp]
      simp [he, Except.toOption]

/-- Something is expected at every cursor. -/
theorem exists_expects (gs : List Grammar) (paths : PathSource String) (words : List String) :
    ∀ i : Nat, ∃ r, Expects gs paths words i r
  | 0 => ⟨_, .commandName⟩
  | i + 1 => by
      by_cases hknown : ∃ g ∈ gs, g.command = wordAt words 0
      · obtain ⟨g, hg⟩ := Grammar.exists_isLastOf hknown
        by_cases hform : ∃ o ∈ g.options, wordAt words i ∈ o.forms
        · obtain ⟨o, ho, hf⟩ := hform
          cases hd : o.domain with
          | none => exact ⟨_, .flag hg ho hf hd⟩
          | enum values => exact ⟨_, .enumValue hg ho hf hd⟩
          | path =>
              cases hp : (paths (wordAt words (i + 1))).value with
              | ok offered => exact ⟨_, .path hg ho hf hd hp⟩
              | error e =>
                  cases he : e.isUnavailable with
                  | true => exact ⟨_, .pathUnavailable hg ho hf hd hp he⟩
                  | false => exact ⟨_, .aborted hg ho hf hd hp he⟩
        · exact ⟨_, .noOption hg fun o ho hf => hform ⟨o, ho, hf⟩⟩
      · exact ⟨_, .unknownCommand fun g hg hc => hknown ⟨g, hg, hc⟩⟩

end Agreement

/-- The answer of an engine is what is expected at the cursor and what that offers for the current
word. -/
theorem explain_of_expects {steps : List Registry.Step} {paths : PathSource String}
    {words : List String} {cursor : Int} {r : Option Resolution}
    (h : Expects (Registry.registrations steps) paths words cursor.toNat r) :
    ((afterRun steps paths).explain words cursor).value =
      ⟨r, offeredBy r (wordAt words cursor.toNat)⟩ := by
  rw [value_explain, resolve_of_expects rfl h]

theorem explainIn_of_fits (e : Engine) {room : Room} {words : List String} {cursor : Int}
    (h : Request.Fits room words cursor) :
    e.explainIn room words cursor = e.explain words cursor := by
  rw [explainIn, Request.ofWordsIn, Request.refusal?_eq_none_iff.2 h]

theorem value_explainIn_of_not_fits (e : Engine) {room : Room} {words : List String} {cursor : Int}
    (h : ¬ Request.Fits room words cursor) :
    (e.explainIn room words cursor).value = ⟨none, []⟩ := by
  rw [explainIn, Request.ofWordsIn, Request.refusal?_of_not_fits h]
  rfl

/-- The answer of an engine is exactly what is expected at the cursor and what that offers for
the current word, if the words fit on the machine. A negative cursor counts as zero. An answer is
found for all words that fit and every cursor; it is then without resolution only if the source of
paths ends in something other than an unusable file or an unavailable provider. Where the words do
not fit nothing is answered. -/
theorem explainIn_eq_iff (steps : List Registry.Step) (paths : PathSource String) (room : Room)
    (words : List String) (cursor : Int) (a : Answer) :
    (explainIn ⟨Registry.run steps, paths⟩ room words cursor).value = a ↔
      (Request.Fits room words cursor ∧
          Expects (Registry.registrations steps) paths words cursor.toNat a.resolution ∧
          a.offered = offeredBy a.resolution (wordAt words cursor.toNat)) ∨
        (¬ Request.Fits room words cursor ∧ a = ⟨none, []⟩) := by
  change ((afterRun steps paths).explainIn room words cursor).value = a ↔ _
  by_cases hfits : Request.Fits room words cursor
  · rw [explainIn_of_fits _ hfits]
    simp only [hfits, true_and, not_true_eq_false, false_and, or_false]
    constructor
    · -- something is expected, and it is what the engine resolves
      rintro rfl
      obtain ⟨r, hr⟩ := exists_expects (Registry.registrations steps) paths words cursor.toNat
      rw [explain_of_expects hr]
      exact ⟨hr, rfl⟩
    · rintro ⟨hr, hoffered⟩
      rw [explain_of_expects hr, ← hoffered]
  · rw [value_explainIn_of_not_fits _ hfits]
    simp only [hfits, false_and, not_false_eq_true, true_and, false_or]
    exact eq_comm

/-- Behind the command the forms of all options are expected, however far the cursor is. No list of
words reaches this one, and nothing is offered. -/
theorem not_expects_farCursor :
    let e := afterRun [.register Grammar.peerd] fun _ => pure (.ok [])
    (e.explainIn .usual ["peerd"] Room.wordEnd).value = ⟨none, []⟩ ∧
      ¬ Expects [Grammar.peerd] e.paths ["peerd"] Room.wordEnd none ∧
      (e.explainIn .usual ["peerd"] 5).value.offered = Grammar.peerd.optionForms := by
  refine ⟨value_explainIn_of_not_fits _ (by decide), ?_, by decide +kernel⟩
  -- nothing but a failing source of paths leaves no resolution, and only behind an option
  intro h
  obtain ⟨i, hi⟩ : ∃ i, i + 1 = Room.wordEnd := ⟨Room.wordEnd - 1, by decide⟩
  rw [← hi] at h
  cases h with
  | aborted _ ho hf _ _ _ =>
      have hbare : wordAt ["peerd"] i = "" := by
        have hpast : ["peerd"].length ≤ i := by
          have hfar : 1 < i + 1 := hi ▸ (by decide)
          exact Nat.le_of_lt_succ hfar
        rw [wordAt, List.getD_eq_getElem?_getD, List.getElem?_eq_none hpast, Option.getD_none]
      rw [hbare] at hf
      exact absurd rfl (OptionSpec.ne_empty_of_mem_forms hf)

end Engine

end TabCompletion
