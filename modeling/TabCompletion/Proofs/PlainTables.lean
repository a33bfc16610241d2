import TabCompletion.Proofs.Completion
import TabCompletion.Proofs.LineProtocol

/-!
# Plain tables

A plain table is printed one row to a line, with a tab between two cells, and `Table.cells` reads
such lines. The rows are read back exactly if no cell holds a line end or a tab
(`Reporter.printsRows_ofTexts_iff`). The table of registered commands is always read back. That of
the options of a command is read back unless one of two things got past the rules of its grammar:
the short form whose letter is the line end, or a value with a line end or a tab
(`Command.printsRows_tables`).
-/

namespace TabCompletion

namespace Table

/-- The cells on the lines of a text, each line cut at its tabs. Behind the last line end there is
no line. -/
def cells (printed : String) : List (List String) :=
  (Text.splitAt '\n' printed.toList).dropLast.map fun line =>
    (Text.splitAt '\t' line).map String.ofList

/-- The text has no line end and no tab in it. -/
def IsCell (text : String) : Prop := '\n' ∉ text.toList ∧ '\t' ∉ text.toList

instance (text : String) : Decidable (IsCell text) := inferInstanceAs (Decidable (_ ∧ _))

/-! ## Rows of texts -/

variable {rows : List (List String)}

/-- What is read from a text are cells, whatever the text. -/
theorem isCell_of_mem_cells {printed : String} {row : List String} {cell : String}
    (hrow : row ∈ cells printed) (hcell : cell ∈ row) : IsCell cell := by
  obtain ⟨line, hline, rfl⟩ := List.mem_map.1 hrow
  obtain ⟨piece, hpiece, rfl⟩ := List.mem_map.1 hcell
  have hclosed : '\n' ∉ line := Text.notMem_of_mem_splitAt (List.dropLast_subset _ hline)
  rw [IsCell, String.toList_ofList]
  exact ⟨fun hend => hclosed (Text.subset_of_mem_splitAt hpiece hend),
    Text.notMem_of_mem_splitAt hpiece⟩

/-- A row of texts on one line. -/
def rowLine (row : List String) : List Char := ['\t'].intercalate (row.map String.toList)

theorem rowLine?_texts (row : List String) :
    rowLine? (row.map .text) = some (String.ofList (rowLine row)) := by
  have hcells : (row.map Document.text).mapM cellText? = some row := by
    induction row with
    | nil => rfl
    | cons cell row ih =>
        rw [List.map_cons, List.mapM_cons, ih]
        rfl
  rw [rowLine?, hcells, Option.map_some]
  refine congrArg some (String.toList_injective ?_)
  rw [String.toList_intercalate, String.toList_ofList, String.toList_ofList, rowLine]

/-- Texts are printed to the last row. -/
theorem plainRows_texts (rows : List (List String)) :
    plainRows (rows.map (·.map .text)) =
      (String.ofList (rows.flatMap fun row => rowLine row ++ ['\n']), none) := by
  induction rows with
  | nil => rfl
  | cons row rows ih =>
      rw [List.map_cons, plainRows, rowLine?_texts, ih]
      simp only [List.flatMap_cons, String.ofList_append]

theorem lineEnd_notMem_rowLine {row : List String} (h : ∀ cell ∈ row, IsCell cell) :
    '\n' ∉ rowLine row := by
  intro hend
  rcases Json.mem_intercalate hend with htab | ⟨piece, hpiece, hend⟩
  · exact absurd htab (by decide)
  · obtain ⟨cell, hcell, rfl⟩ := List.mem_map.1 hpiece
    exact (h cell hcell).1 hend

theorem splitAt_rowLine {row : List String} (hne : row ≠ []) (h : ∀ cell ∈ row, IsCell cell) :
    (Text.splitAt '\t' (rowLine row)).map String.ofList = row := by
  have hclosed : ∀ piece ∈ row.map String.toList, '\t' ∉ piece := by
    intro piece hpiece
    obtain ⟨cell, hcell, rfl⟩ := List.mem_map.1 hpiece
    exact (h cell hcell).2
  rw [rowLine, Text.splitAt_intercalate (by simpa using hne) hclosed, List.map_map]
  simp

theorem splitAt_rows (h : ∀ row ∈ rows, ∀ cell ∈ row, IsCell cell) :
    Text.splitAt '\n' (rows.flatMap fun row => rowLine row ++ ['\n']) =
      rows.map rowLine ++ [[]] := by
  induction rows with
  | nil => rfl
  | cons row rows ih =>
      obtain ⟨hrow, hrows⟩ := List.forall_mem_cons.1 h
      rw [List.flatMap_cons, List.append_assoc, List.singleton_append,
        Text.splitAt_append (lineEnd_notMem_rowLine hrow), ih hrows]
      rfl

/-- Rows with a cell at least are read back from their lines exactly if all their texts are
cells. -/
theorem cells_rows_iff (hne : ∀ row ∈ rows, row ≠ []) :
    cells (String.ofList (rows.flatMap fun row => rowLine row ++ ['\n'])) = rows ↔
      ∀ row ∈ rows, ∀ cell ∈ row, IsCell cell := by
  constructor
  · intro h row hrow cell hcell
    rw [← h] at hrow
    exact isCell_of_mem_cells hrow hcell
  · intro h
    -- behind the last line end stands an empty piece that is no row
    rw [cells, String.toList_ofList, splitAt_rows h, List.dropLast_concat, List.map_map]
    refine (List.map_congr_left fun row hrow => ?_).trans (List.map_id rows)
    exact splitAt_rowLine (hne row hrow) (h row hrow)

end Table

namespace Reporter

/-- The table is printed so that these rows are read from its lines. -/
def PrintsRows (r : Reporter) (t : Table) (rows : List (List String)) : Prop :=
  ∃ printed, r.table t = (printed, none) ∧ Table.cells printed = rows

theorem table_ofTexts {r : Reporter} (hplain : r.format = .plain) (headers : List String)
    (rows : List (List String)) (title : String) :
    r.table (.ofTexts headers rows title) =
      (String.ofList ((headers :: rows).flatMap fun row => Table.rowLine row ++ ['\n']), none) := by
  rw [table, hplain]
  exact Table.plainRows_texts (headers :: rows)

/-- A plain table of texts is read back, the headers first, exactly if all texts are cells. -/
theorem printsRows_ofTexts_iff {r : Reporter} (hplain : r.format = .plain) {headers : List String}
    {rows : List (List String)} (title : String) (hne : ∀ row ∈ headers :: rows, row ≠ []) :
    r.PrintsRows (.ofTexts headers rows title) (headers :: rows) ↔
      ∀ row ∈ headers :: rows, ∀ cell ∈ row, Table.IsCell cell := by
  rw [← Table.cells_rows_iff hne, PrintsRows, table_ofTexts hplain]
  simp

end Reporter

/-! ## Cells of grammars -/

theorem Table.isCell_of_isBlank {text : String} (h : ∀ c ∈ text.toList, Text.isBlank c = false) :
    IsCell text := by
  refine ⟨lineEnd_notMem_of_isBlank h, fun htab => ?_⟩
  have hblank : Text.isBlank '\t' = true := by decide
  rw [h '\t' htab] at hblank
  cases hblank

theorem Table.isCell_toString (n : Nat) : IsCell (toString n) := by
  have hdigit : ∀ c ∈ (toString n).toList, c.isDigit = true := by
    intro c hc
    rw [Nat.toString_eq_repr, Nat.toList_repr] at hc
    exact Nat.isDigit_of_mem_toDigits (by decide) (by decide) hc
  constructor
  · exact fun hend => absurd (hdigit _ hend) (by decide)
  · exact fun htab => absurd (hdigit _ htab) (by decide)

/-- The cell of values that are listed one after another. -/
theorem Table.isCell_intercalate_iff (texts : List String) :
    IsCell (String.intercalate ", " texts) ↔ ∀ text ∈ texts, IsCell text := by
  have hmem : ∀ c ∉ [',', ' '],
      (c ∉ (String.intercalate ", " texts).toList ↔ ∀ text ∈ texts, c ∉ text.toList) := by
    intro c hsep
    rw [String.toList_intercalate]
    constructor
    · intro h text htext hc
      exact h (Text.subset_intercalate (List.mem_map_of_mem htext) hc)
    · intro h hc
      rcases Json.mem_intercalate hc with hc | ⟨form, hform, hc⟩
      · exact hsep hc
      · obtain ⟨text, htext, rfl⟩ := List.mem_map.1 hform
        exact h text htext hc
  rw [IsCell, hmem '\n' (by decide), hmem '\t' (by decide)]
  exact forall₂_and.symm

namespace OptionSpec

/-- No word that the option lists has a line end or a tab in it. -/
structure IsCellSafe (o : OptionSpec) : Prop where
  short_ne : o.short ≠ some "-\n"
  values_cells : ∀ v ∈ o.domain.values, Table.IsCell v

variable {o : OptionSpec}

theorem isCell_long (o : OptionSpec) : Table.IsCell o.long := by
  obtain ⟨-, -, hblank⟩ := (isLongForm_iff o.long).1 o.long_form
  exact Table.isCell_of_isBlank hblank

/-- The short form is a cell, and so is the dash in its place, unless its letter is the line end. -/
theorem isCell_short_iff (o : OptionSpec) :
    Table.IsCell (o.short.getD "-") ↔ o.short ≠ some "-\n" := by
  cases hshort : o.short with
  | none => exact iff_of_true (by decide) nofun
  | some t =>
      have hform : t ∈ o.forms := mem_forms.2 (.inr hshort)
      obtain ⟨c, hc, -, -, htab⟩ := (isShortForm_iff t).1 (o.short_form t (Option.mem_def.2 hshort))
      rw [Option.getD_some]
      constructor
      · intro hcell heq
        rw [Option.some.inj heq] at hcell
        exact hcell.1 (by decide)
      · intro hne
        -- a tab is refused as a letter, but a line end is not
        refine ⟨fun hend => ?_, ?_⟩
        · exact hne (congrArg some (eq_of_lineEnd_mem hform hend).1)
        · rw [hc]
          simpa using Ne.symm htab

theorem isCell_kind (k : Domain.Kind) : Table.IsCell k.name := by
  cases k <;> decide

/-- The last cell of a row lists the values, and stays empty if there are none. -/
theorem optionRow_eq (o : OptionSpec) :
    Command.optionRow o = [o.long, o.short.getD "-", o.domain.kind.name,
      String.intercalate ", " o.domain.values] := by
  cases hd : o.domain <;> simp [Command.optionRow, hd, Domain.kind, Domain.values]

/-- A row of the table of options is made of cells. -/
theorem isCellSafe_iff (o : OptionSpec) :
    (∀ cell ∈ Command.optionRow o, Table.IsCell cell) ↔ o.IsCellSafe := by
  have hlong := o.isCell_long
  have hkind := isCell_kind o.domain.kind
  rw [optionRow_eq]
  simp only [List.forall_mem_cons, List.not_mem_nil, false_implies, implies_true, and_true, hlong,
    hkind, true_and, isCell_short_iff, Table.isCell_intercalate_iff]
  exact ⟨fun h => ⟨h.1, h.2⟩, fun h => ⟨h.short_ne, h.values_cells⟩⟩

end OptionSpec

/-- No word that the grammar lists has a line end or a tab in it. -/
def Grammar.IsCellSafe (g : Grammar) : Prop := ∀ o ∈ g.options, o.IsCellSafe

namespace Command

/-- The rows of the table of registered commands, the headers first. -/
def registryRows (registry : Registry) : List (List String) :=
  ["Command", "Options"] ::
    registry.grammars.map fun g => [g.command, toString g.options.length]

/-- The rows of the table of the options of a command, the headers first. -/
def grammarRows (g : Grammar) : List (List String) :=
  ["Long", "Short", "Domain", "Values"] :: g.options.map optionRow

variable {r : Reporter}

theorem printsRows_registryTable (hplain : r.format = .plain) (registry : Registry) :
    r.PrintsRows (registryTable registry) (registryRows registry) := by
  refine (Reporter.printsRows_ofTexts_iff hplain _ ?_).2 ?_
  · simp
  · refine List.forall_mem_cons.2 ⟨by decide, fun row hrow => ?_⟩
    obtain ⟨g, -, rfl⟩ := List.mem_map.1 hrow
    have hcommand := Table.isCell_of_isBlank ((isCommandName_iff g.command).1 g.command_name).2
    simpa using ⟨hcommand, Table.isCell_toString g.options.length⟩

theorem printsRows_grammarTable_iff (hplain : r.format = .plain) (g : Grammar) :
    r.PrintsRows (grammarTable g) (grammarRows g) ↔ g.IsCellSafe := by
  have hheaders : ∀ cell ∈ ["Long", "Short", "Domain", "Values"], Table.IsCell cell := by decide
  refine (Reporter.printsRows_ofTexts_iff hplain _ ?_).trans ?_
  · simp [optionRow]
  · rw [List.forall_mem_cons, List.forall_mem_map, Grammar.IsCellSafe]
    simp only [OptionSpec.isCellSafe_iff, and_iff_right hheaders]

end Command

/-! ## Commands that print a table -/

/-- Whatever is done before, the plan prints the table and no other data, and it ends well. -/
def Stage.Prints (stage : Stage) (plan : Plan) (t : Table) : Prop :=
  ∀ p, ∃ p', stage.carryOut p plan = (p', .ok 0) ∧ p'.out = p.out ++ (stage.reporter.table t).1

theorem Stage.prints_following {stage : Stage} {α : Type} {x : Logged (Except Escape α)} {a : α}
    (hx : x.value = .ok a) {next : α → Plan} {t : Table} (hnext : next a = .ofSteps [.table t])
    (ht : (stage.reporter.table t).2 = none) : stage.Prints (.following x next) t := by
  intro p
  have hout := stage.out_noted p x.records
  refine ⟨(stage.noted p x.records).print (stage.reporter.table t).1, ?_, ?_⟩
  · simp only [Plan.following, hx, hnext, Plan.ofSteps, Plan.after, carryOut, takeAll_records,
      takeAll, take, ht]
  · rw [Progress.print, hout]

namespace Command

variable {stage : Stage} {w : World} {s : Settings} {engine : Engine}

theorem prints_listGrammars (hplain : stage.reporter.format = .plain)
    (hengine : (Engine.inWorld w s).value = .ok engine) :
    stage.Prints (Command.listGrammars.plan w s) (registryTable engine.registry) := by
  refine Stage.prints_following hengine rfl ?_
  rw [registryTable, Reporter.table_ofTexts hplain]

theorem prints_showGrammar (hplain : stage.reporter.format = .plain)
    (hengine : (Engine.inWorld w s).value = .ok engine) {g : Grammar}
    (hg : g ∈ engine.registry.grammars) :
    stage.Prints ((Command.showGrammar g.command).plan w s) (grammarTable g) := by
  have hget : engine.registry.get g.command = .ok g := by
    rw [Registry.get, Registry.lookup?_command_of_mem hg]
  refine Stage.prints_following hengine (by rw [hget]) ?_
  rw [grammarTable, Reporter.table_ofTexts hplain]

/-- With plain tables, the two commands that list print their table and nothing else. For every
registry, the table of its commands is read back; that of the options of a command is read back
exactly if all words of its grammar are fit for a cell. -/
theorem printsRows_tables (hplain : stage.reporter.format = .plain) :
    (∀ registry : Registry,
      stage.reporter.PrintsRows (registryTable registry) (registryRows registry) ∧
        ∀ g ∈ registry.grammars,
          stage.reporter.PrintsRows (grammarTable g) (grammarRows g) ↔ g.IsCellSafe) ∧
      ∀ (w : World) (s : Settings) (engine : Engine), (Engine.inWorld w s).value = .ok engine →
        stage.Prints (Command.listGrammars.plan w s) (registryTable engine.registry) ∧
          ∀ g ∈ engine.registry.grammars,
            stage.Prints ((Command.showGrammar g.command).plan w s) (grammarTable g) := by
  refine ⟨fun registry => ⟨printsRows_registryTable hplain registry, fun g _ => ?_⟩,
    fun w s engine hengine => ⟨prints_listGrammars hplain hengine, fun g hg => ?_⟩⟩
  · exact printsRows_grammarTable_iff hplain g
  · exact prints_showGrammar hplain hengine hg

/-- A stage on which tables are plain. -/
def plainStage : Stage where
  reporter := { format := .plain, colorless := true }
  outlets := { threshold := .warning, terminal := .warning }
  stamp := ""

/-- The world of a host that no record changes. -/
def bareWorld : World := fun _ => Run.bareHost

/-- The engine of a host that knows one command. -/
def bareEngine : Engine := Run.engineOf Run.bareHost {} Library.start

/-- Its tables. -/
theorem printsRows_tables_peerd :
    (plainStage.reporter.format = .plain ∧
      (Engine.inWorld bareWorld {}).value = .ok bareEngine) ∧
      (∃ p, plainStage.carryOut { disk := Run.bareHost.disk }
          (Command.listGrammars.plan bareWorld {}) = (p, .ok 0) ∧
        Table.cells p.out = [["Command", "Options"], ["peerd", "18"]]) ∧
      Grammar.peerd.IsCellSafe ∧
        plainStage.reporter.PrintsRows (grammarTable Grammar.peerd)
          (grammarRows Grammar.peerd) := by
  have hengine : (Engine.inWorld bareWorld {}).value = .ok bareEngine :=
    Run.value_inWorld (w := bareWorld) Run.files_bareHost .refl rfl
  have hrows : registryRows bareEngine.registry =
      [["Command", "Options"], ["peerd", "18"]] := by decide
  have hmem : Grammar.peerd ∈ bareEngine.registry.grammars := by decide
  have hsafe : Grammar.peerd.IsCellSafe := by
    have hcells : ∀ o ∈ Grammar.peerd.options, ∀ cell ∈ optionRow o, Table.IsCell cell := by
      decide
    exact fun o ho => o.isCellSafe_iff.1 (hcells o ho)
  have htables := @printsRows_tables plainStage rfl
  obtain ⟨⟨printed, hprinted, hcells⟩, hgrammars⟩ :=
    htables.1 bareEngine.registry
  obtain ⟨p, hdone, hout⟩ := (htables.2 _ _ _ hengine).1 { disk := Run.bareHost.disk }
  rw [hprinted] at hout
  refine ⟨⟨rfl, hengine⟩, ⟨p, hdone, ?_⟩, hsafe, (hgrammars _ hmem).2 hsafe⟩
  rw [hout]
  exact hcells.trans hrows

/-- A command with a value that is a tab. -/
def columnGrammar : Grammar where
  command := "column"
  options := [⟨"--separator", none, .enum [",", "\t"], by decide, isShortForm_of_mem_none⟩]
  command_name := by decide
  long_nodup := by decide
  short_nodup := by decide

/-- Two options take a line more each, and a tab makes a cell more. -/
theorem not_printsRows_samples :
    (Engine.pasteGrammar ∈ Engine.pasteEngine.registry.grammars ∧
      plainStage.reporter.table (grammarTable Engine.pasteGrammar) =
          ("Long\tShort\tDomain\tValues\n--line-end\t-\n\tnone\t\n" ++
            "--delimiter\t-\tenum\t,\n\n--suffix\t-\tenum\t\n", none) ∧
      ¬ plainStage.reporter.PrintsRows (grammarTable Engine.pasteGrammar)
          (grammarRows Engine.pasteGrammar)) ∧
      plainStage.reporter.table (grammarTable columnGrammar) =
        ("Long\tShort\tDomain\tValues\n--separator\t-\tenum\t,, \t\n", none) ∧
        ¬ plainStage.reporter.PrintsRows (grammarTable columnGrammar)
          (grammarRows columnGrammar) := by
  refine ⟨⟨by decide, by decide, ?_⟩, by decide, ?_⟩
  · rintro ⟨printed, hprinted, hcells⟩
    obtain rfl := congrArg Prod.fst hprinted
    exact absurd hcells (by decide)
  · rintro ⟨printed, hprinted, hcells⟩
    obtain rfl := congrArg Prod.fst hprinted
    exact absurd hcells (by decide)

end Command

end TabCompletion
