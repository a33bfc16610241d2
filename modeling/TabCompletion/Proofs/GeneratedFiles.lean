import TabCompletion.Grammar.Library
import TabCompletion.Proofs.Path
import TabCompletion.Shell.Glue

/-!
# Where generated files go

Files are generated for a command in four directories: its grammar is kept in the directory of the
user's grammars, and each shell has a directory for the scripts that hook commands up
(`Product.directory`). A file is named for its command, and its path is that of the directory with
the name put behind it. The name of a command is one word, but it may hold slashes and dots, and
then the path may lead elsewhere. A file stands right in its directory, under the name that is meant
for it, exactly if there is no slash in the name of the command and the file is not called `.` or
`..`; such commands never share a file (`Product.isChildOf_file_iff`). Other names of commands lead
out of the directory, and to files of other commands (`Product.not_isChildOf_dotted`).
-/

namespace TabCompletion

namespace Path

/-! ## Paths without `..` -/

/-- The names with one more. The name `..` takes the last name away. Where none is left it has
no effect at a root; a path that is seen from the working directory keeps it. -/
def ascend (anchor : Anchor) (names : List String) (name : String) : List String :=
  if name != ".." then names ++ [name]
  else if names.all (· = "..") then (if anchor = .here then names ++ [name] else names)
  else names.dropLast

/-- The path with `..` worked out on the names alone. -/
def resolved (p : Path) : Path := ⟨p.anchor, p.parts.foldl (ascend p.anchor) []⟩

/-- The path leads to an entry right in the directory once `..` is worked out. -/
def IsChildOf (p directory : Path) : Prop :=
  p.resolved.parent = directory.resolved ∧ p.resolved.name ≠ "" ∧ p.resolved.name ≠ ".."

instance (p directory : Path) : Decidable (p.IsChildOf directory) :=
  inferInstanceAs (Decidable (_ ∧ _))

variable {p directory : Path} {name : String}

theorem ascend_of_ne {anchor : Anchor} {names : List String} (h : name ≠ "..") :
    ascend anchor names name = names ++ [name] := by
  simp [ascend, h]

theorem mem_of_mem_ascend {anchor : Anchor} {names : List String} {last : String}
    (h : name ∈ ascend anchor names last) : name ∈ names ∨ name = last := by
  unfold ascend at h
  split at h
  · simpa using h
  · split at h
    · split at h
      · simpa using h
      · exact .inl h
    · exact .inl ((List.dropLast_subset _) h)

/-- No names are new when `..` is worked out. -/
theorem mem_of_mem_foldl_ascend {anchor : Anchor} {names done : List String}
    (h : name ∈ names.foldl (ascend anchor) done) : name ∈ done ∨ name ∈ names := by
  induction names generalizing done with
  | nil => exact .inl h
  | cons first names ih =>
      rcases ih h with hdone | hnames
      · rcases mem_of_mem_ascend hdone with hdone | rfl
        · exact .inl hdone
        · exact .inr List.mem_cons_self
      · exact .inr (List.mem_cons_of_mem _ hnames)

theorem isProper_resolved (hp : p.IsProper) : p.resolved.IsProper := by
  intro name hname
  rcases mem_of_mem_foldl_ascend hname with hnone | hname
  · cases hnone
  · exact hp name hname

/-- A name that is put behind a path is put behind its resolved form. -/
theorem resolved_join (p : Path) (hname : IsName name) (hup : name ≠ "..") :
    (p.join name).resolved = ⟨p.resolved.anchor, p.resolved.parts ++ [name]⟩ := by
  rw [join_of_isName p hname, resolved, List.foldl_append]
  simp [ascend_of_ne hup, resolved]

theorem name_append (anchor : Anchor) (names : List String) (name : String) :
    Path.name ⟨anchor, names ++ [name]⟩ = name := by
  simp [Path.name]

theorem name_mem_parts (h : p.name ≠ "") : p.name ∈ p.parts := by
  unfold Path.name at h ⊢
  cases hlast : p.parts.getLast? with
  | none => simp [hlast] at h
  | some last => exact List.mem_of_getLast? hlast

/-- What is put behind a directory stands right in it, under that very name, exactly if it is a
name other than `..`. -/
theorem isChildOf_join_iff (hproper : directory.IsProper) :
    (directory.join name).IsChildOf directory ∧ (directory.join name).resolved.name = name ↔
      IsName name ∧ name ≠ ".." := by
  constructor
  · rintro ⟨⟨-, hempty, hup⟩, hname⟩
    -- the last name of a proper path is a name
    have hmem := name_mem_parts hempty
    have hlast := isProper_resolved (hproper.join name) _ hmem
    rw [hname] at hlast hup
    exact ⟨hlast, hup⟩
  · rintro ⟨hname, hup⟩
    unfold IsChildOf
    rw [resolved_join directory hname hup, name_append]
    refine ⟨⟨?_, hname.1, hup⟩, rfl⟩
    simp [parent]

/-! ## Names around a text -/

variable {front back : String}

theorem toList_around (front s back : String) :
    (front ++ s ++ back).toList = front.toList ++ s.toList ++ back.toList := by
  simp

/-- With more than dots around it a text without slashes makes a name. -/
theorem isName_around_iff (s : String) (hslash : '/' ∉ front.toList ++ back.toList)
    (hmore : ∃ c ∈ front.toList ++ back.toList, c ≠ '.') :
    IsName (front ++ s ++ back) ∧ front ++ s ++ back ≠ ".." ↔ '/' ∉ s.toList := by
  obtain ⟨c, hc, hdot⟩ := hmore
  have hmem : c ∈ (front ++ s ++ back).toList := by
    rw [toList_around]
    simp only [List.mem_append] at hc ⊢
    rcases hc with hc | hc
    · exact .inl (.inl hc)
    · exact .inr hc
  -- a text of dots does not hold that character
  have hne : ∀ dots : String, (∀ d ∈ dots.toList, d = '.') → front ++ s ++ back ≠ dots := by
    intro dots hdots heq
    rw [heq] at hmem
    exact hdot (hdots c hmem)
  have hiff : '/' ∉ (front ++ s ++ back).toList ↔ '/' ∉ s.toList := by
    rw [toList_around]
    simp only [List.mem_append, not_or] at hslash ⊢
    exact ⟨fun h => h.1.2, fun h => ⟨⟨hslash.1, h⟩, hslash.2⟩⟩
  constructor
  · rintro ⟨⟨-, -, hname⟩, -⟩
    exact hiff.1 hname
  · intro hs
    exact ⟨⟨hne "" (by simp), hne "." (by simp), hiff.2 hs⟩, hne ".." (by simp)⟩

theorem around_injective {s t : String} (h : front ++ s ++ back = front ++ t ++ back) : s = t := by
  have hlist := congrArg String.toList h
  rw [toList_around, toList_around] at hlist
  apply String.toList_injective
  simpa using hlist

end Path

/-! ## Files for a command -/

/-- What a file is generated for: to keep the grammar of a command, or to hook the command up in
a shell. -/
inductive Product where
  | grammar
  | script (shell : Shell)
  deriving DecidableEq, Repr

/-- The directory of a home in which a shell looks for scripts. -/
def Shell.scriptDirectory (shell : Shell) (home : Path) : Path :=
  match shell with
  | bash => home.join ".bash_completion.d"
  | zsh => home.join ".zfunc"
  | fish => ((home.join ".config").join "fish").join "completions"

namespace Product

/-- The directory in which files are generated. -/
def directory (h : Host) (home : Path) : Product → Except Fault Path
  | .grammar => h.environment.grammarsDirectory
  | .script shell => .ok (shell.scriptDirectory home)

/-- The path of the file that is generated for the command of a grammar. -/
def file (h : Host) (home : Path) (g : Grammar) : Product → Except Fault Path
  | .grammar => Library.fileOf h g
  | .script shell => .ok (shell.installPath g.command home)

/-- What stands before and behind the command in the name of its file. -/
def affixes : Product → String × String
  | .grammar => ("", ".json")
  | .script .bash => ("", "")
  | .script .zsh => ("_", "")
  | .script .fish => ("", ".fish")

/-- The name of the file of a command. -/
def fileName (p : Product) (command : String) : String :=
  p.affixes.1 ++ command ++ p.affixes.2

/-- The command has no slash in it, and its file is not called `.` or `..`. -/
def Suits (p : Product) (command : String) : Prop :=
  '/' ∉ command.toList ∧ (p = .script .bash → command ≠ "." ∧ command ≠ "..")

instance (p : Product) (command : String) : Decidable (p.Suits command) :=
  inferInstanceAs (Decidable (_ ∧ _))

variable {h : Host} {home : Path} {g : Grammar} {p : Product}

theorem file_eq (h : Host) (home : Path) (g : Grammar) (p : Product) :
    p.file h home g = (p.directory h home).map fun d => d.join (p.fileName g.command) := by
  cases p with
  | grammar =>
      show Library.fileOf h g = _
      simp [Library.fileOf, directory, fileName, affixes]
  | script shell =>
      cases shell <;>
        simp [file, directory, fileName, affixes, Shell.installPath, Shell.scriptDirectory,
          Except.map]

theorem isProper_directory (hhome : home.IsProper) {d : Path}
    (hd : p.directory h home = .ok d) : d.IsProper := by
  cases p with
  | grammar => exact Environment.isProper_grammarsDirectory hd
  | script shell =>
      cases hd
      cases shell with
      | bash => exact hhome.join _
      | zsh => exact hhome.join _
      | fish => exact ((hhome.join _).join _).join _

theorem command_ne_empty (g : Grammar) : g.command ≠ "" := by
  intro hempty
  have hname := g.command_name
  rw [hempty] at hname
  exact absurd hname (by decide)

theorem isName_fileName_iff (p : Product) (g : Grammar) :
    Path.IsName (p.fileName g.command) ∧ p.fileName g.command ≠ ".." ↔ p.Suits g.command := by
  unfold fileName Suits
  cases p with
  | grammar =>
      have h := @Path.isName_around_iff "" ".json" g.command (by decide) ⟨'j', by decide, by decide⟩
      simpa [affixes] using h
  | script shell =>
      cases shell with
      | bash =>
          -- nothing is put around the command, which may consist of dots
          have hne := command_ne_empty g
          simp only [affixes, String.empty_append, String.append_empty, Path.IsName, true_implies]
          tauto
      | zsh =>
          have h := @Path.isName_around_iff "_" "" g.command (by decide) ⟨'_', by decide, by decide⟩
          simpa [affixes] using h
      | fish =>
          have h := @Path.isName_around_iff "" ".fish" g.command (by decide)
            ⟨'f', by decide, by decide⟩
          simpa [affixes] using h

/-- The file of a command stands right in its directory, under the name that is meant for it,
exactly if the command suits; the files of two such commands are the same only if the commands
are. -/
theorem isChildOf_file_iff (hhome : home.IsProper) {d path : Path}
    (hd : p.directory h home = .ok d) (hfile : p.file h home g = .ok path) :
    (path.IsChildOf d ∧ path.resolved.name = p.fileName g.command ↔ p.Suits g.command) ∧
      ∀ (other : Grammar) (path' : Path), p.file h home other = .ok path' →
        p.Suits g.command → p.Suits other.command → path.resolved = path'.resolved →
          g.command = other.command := by
  have hproper := isProper_directory hhome hd
  have hjoin : ∀ {g : Grammar} {path : Path}, p.file h home g = .ok path →
      path = d.join (p.fileName g.command) := by
    intro g path hpath
    rw [file_eq, hd] at hpath
    cases hpath
    rfl
  have hnamed : ∀ {g : Grammar} {path : Path}, p.file h home g = .ok path →
      (path.IsChildOf d ∧ path.resolved.name = p.fileName g.command ↔ p.Suits g.command) := by
    intro g path hpath
    rw [hjoin hpath, Path.isChildOf_join_iff hproper, isName_fileName_iff]
  refine ⟨hnamed hfile, ?_⟩
  intro other path' hother hg hsuits hsame
  -- both files have the name that is meant for them
  have hname := ((hnamed hfile).2 hg).2
  have hname' := ((hnamed hother).2 hsuits).2
  rw [hsame, hname'] at hname
  exact (Path.around_injective hname).symm

/-! ## A command that suits, and commands that do not -/

/-- The grammar of a command without options. -/
def bareGrammar (command : String) (hname : isCommandName command = true) : Grammar where
  command := command
  options := []
  command_name := hname
  long_nodup := List.nodup_nil
  short_nodup := List.nodup_nil

/-- A host whose user keeps settings in `/config`. -/
def configHost : Host where
  environment :=
    { values := [("XDG_CONFIG_HOME", "/config")], users := [], ownHome := none,
      platform := "Linux" }
  disk := { tree := Tree.empty, cwd := [] }

/-- The directory of the grammars of that user. -/
def configGrammars : Path := ⟨.root, ["config", "peercomp", "grammars"]⟩

/-- The home of a user. -/
def sampleHome : Path := ⟨.root, ["home", "user"]⟩

theorem isChildOf_swapCli :
    sampleHome.IsProper ∧ Product.grammar.directory configHost sampleHome = .ok configGrammars ∧
      Product.grammar.file configHost sampleHome (bareGrammar "swap-cli" (by decide)) =
        .ok (configGrammars.join "swap-cli.json") ∧
      (configGrammars.join "swap-cli.json").IsChildOf configGrammars ∧
      (configGrammars.join "swap-cli.json").resolved.name = "swap-cli.json" := by
  have hhome : sampleHome.IsProper := by
    show ∀ name ∈ ["home", "user"], Path.IsName name
    decide
  have hd : Product.grammar.directory configHost sampleHome = .ok configGrammars := by decide
  have hfile : Product.grammar.file configHost sampleHome (bareGrammar "swap-cli" (by decide)) =
      .ok (configGrammars.join "swap-cli.json") := by decide
  have hchild := (isChildOf_file_iff hhome hd hfile).1.2 (by decide)
  exact ⟨hhome, hd, hfile, hchild.1, hchild.2⟩

/-- A command that starts with `..` leads out of the directories, both of grammars and of scripts;
and a command that starts with `.` has the files of the command that it is without. -/
theorem not_isChildOf_dotted :
    Library.fileOf configHost (bareGrammar "../evil" (by decide)) =
        .ok (configGrammars.join "../evil.json") ∧
      (configGrammars.join "../evil.json").resolved = ⟨.root, ["config", "peercomp", "evil.json"]⟩ ∧
      ¬ (configGrammars.join "../evil.json").IsChildOf configGrammars ∧
      (Shell.bash.installPath "../evil" sampleHome).resolved = ⟨.root, ["home", "user", "evil"]⟩ ∧
      ¬ (Shell.bash.installPath "../evil" sampleHome).IsChildOf
        (Shell.bash.scriptDirectory sampleHome) ∧
      Library.fileOf configHost (bareGrammar "./evil" (by decide)) =
        Library.fileOf configHost (bareGrammar "evil" (by decide)) := by
  decide

end Product

end TabCompletion
