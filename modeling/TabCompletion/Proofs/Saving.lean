import TabCompletion.Proofs.DefaultRegistry
import TabCompletion.Proofs.FilesOnly
import TabCompletion.Proofs.Replacing
import TabCompletion.Proofs.SavedGrammar

/-!
# Grammars that take effect

A saved grammar is kept in the file that is named for its command, and is loaded from it
(`Library.finds_afterSaving`). The registry then knows the grammar unless a file whose name comes
after that of its file has another grammar for the same command
(`Library.lookup?_registry_afterSaving`): the grammar of a command may be overridden by a document
that was there before it was saved (`Library.lookup?_sharedHost`).
-/

namespace TabCompletion.Library

open Json

variable {g : Grammar}

/-! ## The file of a grammar -/

theorem toList_fileName (g : Grammar) :
    (g.command ++ ".json").toList = g.command.toList ++ ['.', 'j', 's', 'o', 'n'] :=
  String.toList_append

theorem fileName_ne (g : Grammar) {s : String} (h : s.toList.length < 5) :
    g.command ++ ".json" ≠ s := by
  rintro rfl
  rw [toList_fileName, List.length_append] at h
  exact absurd h (by simp)

theorem isName_fileName (h : '/' ∉ g.command.toList) :
    Path.IsName (g.command ++ ".json") := by
  refine ⟨fileName_ne g (by decide), fileName_ne g (by decide), ?_⟩
  rw [toList_fileName, List.mem_append, not_or]
  exact ⟨h, by decide⟩

/-- The file of a grammar is known to hold JSON. -/
theorem suffix_join (h : '/' ∉ g.command.toList) (directory : Path) :
    (directory.join (g.command ++ ".json")).suffix = ".json" := by
  have hne : g.command.toList ≠ [] := by
    intro e
    have hcommand := g.command_name
    rw [isCommandName, e] at hcommand
    cases hcommand
  rw [Path.join_of_isName _ (isName_fileName h), Path.suffix, Path.name, List.getLast?_concat,
    Option.getD_some, toList_fileName, Path.suffixOf_append hne (by decide) (by decide)]

theorem isGrammarName_of_suffix {p : Path} (h : p.suffix = ".json") : isGrammarName p = true := by
  rw [isGrammarName, h]
  decide

theorem not_isBlankText_fileText (g : Grammar) :
    Text.isBlankText (fileText g) = false := by
  -- a mapping starts with a brace, which is not blank
  obtain ⟨entries, hmap⟩ : ∃ entries, g.toDocument = .map entries := by
    unfold Grammar.toDocument
    split <;> exact ⟨_, rfl⟩
  have hmem : '\x7b' ∈ (fileText g).toList := by
    rw [toList_fileText, hmap, form, Layout.enclose]
    split <;> simp
  rw [Text.isBlankText, List.all_eq_false]
  exact ⟨_, hmem, by decide⟩

/-- A grammar is loaded from a file to which a path from the root leads, if it may be read. -/
theorem grammarOf?_of_locate {h : Host} {path : Path} {place : Place} {bytes : List UInt8}
    {content : String} {d : Document} (hproper : path.IsProper) (hroot : path.anchor ≠ .here)
    (hgrants : h.disk.GrantsReading path.text)
    (hlocate : h.disk.locate true path.text = .ok (.found place (.file bytes)))
    (hcontent : Source.textOf bytes = .ok content) (hblank : Text.isBlankText content = false)
    (hparse : Source.parse content (Source.hintOfSuffix path.suffix) = .ok d)
    (hgrammar : Grammar.ofDocument d = .ok g) : grammarOf? h path.text = some g := by
  have hlocal : Source.isLocal path.text = true := by
    rw [Path.isLocal_text_iff hproper]
    rintro rfl
    exact hroot rfl
  have hpath : h.environment.expandPath (Path.ofText path.text) = .ok path := by
    rw [Path.ofText_text hproper, Environment.expandPath_of_anchor hroot]
  have hload := Source.load_eq_ok_of_read h hlocal hpath
    (Disk.isFile_of_locate hgrants.look hlocate) (Disk.read_of_locate hgrants.read hlocate) hcontent
    hblank hparse hgrammar
  rw [grammarOf?, if_pos hlocal, hload]
  rfl

/-- A grammar is loaded from its file, wherever that is. -/
theorem grammarOf?_of_saved {h : Host} {path : Path} {place : Place} (hproper : path.IsProper)
    (hroot : path.anchor ≠ .here) (hsuffix : path.suffix = ".json")
    (hgrants : h.disk.GrantsReading path.text)
    (hlocate : h.disk.locate true path.text =
      .ok (.found place (.file (Text.Utf8.encode (fileText g))))) :
    grammarOf? h path.text = some g := by
  have hhint : Source.hintOfSuffix path.suffix = .json := by
    rw [hsuffix]
    decide
  exact grammarOf?_of_locate hproper hroot hgrants hlocate (textOf_fileText g)
    (not_isBlankText_fileText g) (hhint ▸ parse_fileText g (by decide)) g.ofDocument_toDocument

/-! ## What is saved -/

/-- The host after a grammar is saved. -/
def afterSaving (h : Host) (g : Grammar) : Host := { h with disk := (save h g).1 }

/-- The grammar counts that was saved in the file: none of the files of the user that come after
its file yields another grammar for its command. If the directory of the files is lost, only the
built-in grammar counts. If the system does not let the program read the file, then the grammar
counts that the others yield. -/
inductive TakesEffect (h : Host) (g : Grammar) (path : Path) : Prop
  | last {earlier later : List Path} (hfinds : Finds h (earlier ++ path :: later))
      (hgrants : h.disk.GrantsReading path.text)
      (hlast : ∀ other : Grammar,
        other.IsLastOf ((later.map Path.text).filterMap (grammarOf? h)) g.command → other = g)
  | lost (hfinds : Finds h []) (hbuiltin : g = Grammar.peerd)
  | unread {found : List Path} (hfinds : Finds h found)
      (hrefused : ¬ h.disk.GrantsReading path.text)
      (hothers : g.IsLastOf (grammarsOf h (found.map Path.text)) g.command)

/-- The registry of a host knows for a command the last of the grammars that are registered. -/
theorem lookup?_of_finds {h : Host} {s : Settings} {found : List Path} {r : Registry}
    (hfinds : Finds h found) (hregistry : (registry h s).value = .ok r) (command : String)
    (g : Grammar) :
    r.lookup? command = some g ↔ g.IsLastOf (grammarsOf h (sourcesOf found s)) command := by
  obtain ⟨found', hfiles, -, rfl⟩ := registry_eq_ok_iff.1 hregistry
  rw [finds_unique hfinds (files_eq_ok_iff.1 hfiles)]
  exact lookup?_registryOf ..

theorem exists_directory_of_save {h : Host} {path : Path} (hsave : (save h g).2 = .ok path) :
    ∃ directory, h.environment.grammarsDirectory = .ok directory ∧
      path = directory.join (g.command ++ ".json") ∧
      h.disk.replace path (fileText g) = ((afterSaving h g).disk, none) := by
  obtain ⟨hfile, hreplace⟩ := save_eq_ok_iff.1 (Prod.ext rfl hsave : save h g = (_, .ok path))
  obtain ⟨directory, hdirectory, rfl⟩ := Environment.map_eq_ok_iff.1 hfile
  exact ⟨directory, hdirectory, rfl, hreplace⟩

section

variable {h : Host} {s : Settings} {config path : Path} {found : List Path} {r : Registry}

/-- After a grammar is saved its file is found and yields the grammar, unless no file is found any
more or the system does not let the program read it. -/
theorem finds_afterSaving (hgrants : (afterSaving h g).disk.GrantsReading path.text)
    (hcommand : '/' ∉ g.command.toList)
    (hconfig : h.environment.configDirectory = .ok config) (hroot : config.anchor ≠ .here)
    (hsave : (save h g).2 = .ok path) (hfinds : Finds (afterSaving h g) found) :
    found = [] ∨ (∃ earlier later, found = earlier ++ path :: later) ∧
      grammarOf? (afterSaving h g) path.text = some g := by
  obtain ⟨directory, hdirectory, rfl, hreplace⟩ := exists_directory_of_save hsave
  have hanchor : directory.anchor ≠ .here := by
    obtain ⟨config', hconfig', rfl⟩ := Environment.grammarsDirectory_eq_ok_iff.1 hdirectory
    obtain rfl : config' = config := Except.ok.inj (hconfig'.symm.trans hconfig)
    exact hroot
  have hproper := Environment.isProper_grammarsDirectory hdirectory
  have hname := isName_fileName hcommand
  cases hfinds with
  | nowhere hdirectory' hnone => exact .inl rfl
  | @inDirectory directory' place names chosen hdirectory' hthere hlist hask hchosen hsorted =>
      obtain rfl : directory' = directory := Except.ok.inj (hdirectory'.symm.trans hdirectory)
      obtain ⟨hmem, hlocate⟩ := Disk.mem_list_of_replace hproper hanchor hname
        (fileName_ne g (by decide)) hreplace hlist
      have hanchorJoin : (directory'.join (g.command ++ ".json")).anchor ≠ .here := by
        rw [Path.join_of_isName _ hname]
        exact hanchor
      have hsuffix := suffix_join hcommand directory'
      have hfile := Disk.isFile_of_locate hgrants.look hlocate
      have hholds := holdsGrammar_of_isFile hfile (isGrammarName_of_suffix hsuffix)
      have hkept := List.mem_filter.2 ⟨hmem, hholds⟩
      have hin : g.command ++ ".json" ∈ chosen := hchosen.mem_iff.2 hkept
      exact .inr ⟨List.append_of_mem (List.mem_map.2 ⟨_, hin, rfl⟩),
        grammarOf?_of_saved (hproper.join _) hanchorJoin hsuffix hgrants hlocate⟩

/-- After a grammar is saved the registry knows it exactly if it takes effect. -/
theorem lookup?_registry_afterSaving (hcommand : '/' ∉ g.command.toList)
    (hconfig : h.environment.configDirectory = .ok config) (hroot : config.anchor ≠ .here)
    (hsave : (save h g).2 = .ok path) (hsettings : s.grammarFiles = [])
    (hregistry : (registry (afterSaving h g) s).value = .ok r) :
    r.lookup? g.command = some g ↔ TakesEffect (afterSaving h g) g path := by
  -- without sources in the settings only the files that are found count
  have hlast : ∀ {found}, Finds (afterSaving h g) found → (r.lookup? g.command = some g ↔
      g.IsLastOf (grammarsOf (afterSaving h g) (found.map Path.text)) g.command) := by
    intro found hfinds
    rw [lookup?_of_finds hfinds hregistry, sourcesOf, hsettings, List.append_nil]
  -- among them the saved file yields the grammar, so only those behind it can take its place
  have hfile : (afterSaving h g).disk.GrantsReading path.text → ∀ {earlier later},
      Finds (afterSaving h g) (earlier ++ path :: later) →
      (r.lookup? g.command = some g ↔ ∀ other : Grammar,
        other.IsLastOf ((later.map Path.text).filterMap (grammarOf? (afterSaving h g))) g.command →
          other = g) := by
    intro hgrants earlier later hfinds
    rcases finds_afterSaving hgrants hcommand hconfig hroot hsave hfinds with hnil | ⟨-, hload⟩
    · exact absurd hnil (by simp)
    · rw [hlast hfinds, grammarsOf, List.map_append, List.map_cons, List.filterMap_append,
        List.filterMap_cons_some hload, ← List.cons_append, Grammar.isLastOf_append_cons]
  constructor
  · intro hlookup
    obtain ⟨found, hfiles, -, -⟩ := registry_eq_ok_iff.1 hregistry
    have hfinds := files_eq_ok_iff.1 hfiles
    by_cases hgrants : (afterSaving h g).disk.GrantsReading path.text
    · rcases finds_afterSaving hgrants hcommand hconfig hroot hsave hfinds with
        rfl | ⟨⟨earlier, later, rfl⟩, -⟩
      · -- nothing is registered besides the built-in grammar
        have hbuiltin : g.IsLastOf [Grammar.peerd] g.command := (hlast hfinds).1 hlookup
        exact .lost hfinds (List.mem_singleton.1 hbuiltin.mem)
      · exact .last hfinds hgrants ((hfile hgrants hfinds).1 hlookup)
    · exact .unread hfinds hgrants ((hlast hfinds).1 hlookup)
  · rintro (⟨hfinds, hgrants, hothers⟩ | ⟨hfinds, hbuiltin⟩ | ⟨hfinds, -, hothers⟩)
    · exact (hfile hgrants hfinds).2 hothers
    · have hno : ∀ other ∈ ([] : List Grammar), other.command ≠ g.command :=
        fun other hother => absurd hother List.not_mem_nil
      exact (hlast hfinds).2 ⟨[], [], by rw [hbuiltin]; rfl, rfl, hno⟩
    · exact (hlast hfinds).2 hothers

end

/-! ## A grammar that is overridden, and one that is not -/

/-- An environment whose directory of settings is found from the root. -/
def rootedEnvironment : Environment where
  values := [("XDG_CONFIG_HOME", "/config")]
  users := []
  ownHome := none
  platform := "Linux"

/-- The place of the user's grammars. -/
def rootedPlace : Place := ["config", "peercomp", "grammars"]

/-- The directory of the user's grammars. -/
def rootedDirectory : Path := ⟨.root, rootedPlace⟩

theorem isCommandName_swapCli : isCommandName "swap-cli" = true := by decide

theorem isLongForm_help : isLongForm "--help" = true := by decide

/-- The grammar of a command with one option. -/
def helpGrammar : Grammar where
  command := "swap-cli"
  options := [⟨"--help", none, .none, isLongForm_help, isShortForm_of_mem_none⟩]
  command_name := isCommandName_swapCli
  long_nodup := List.nodup_singleton "--help"
  short_nodup := List.nodup_nil

/-- Another grammar of that command, without options. -/
def plainGrammar : Grammar where
  command := "swap-cli"
  options := []
  command_name := isCommandName_swapCli
  long_nodup := List.nodup_nil
  short_nodup := List.nodup_nil

/-- A document of the grammar without options. -/
def plainDocument : String := "command: swap-cli\n"

/-- Entries of a tree: the directories that lead to the user's grammars, and the document in a
file of that name. -/
def sharedEntries (name : String) : List (Place × Entry) :=
  [(["config"], .directory), (["config", "peercomp"], .directory), (rootedPlace, .directory),
    (rootedPlace ++ [name], .file (Text.Utf8.encode plainDocument))]

/-- A host that has the document in a file of that name. -/
def sharedHost (name : String) : Host where
  environment := rootedEnvironment
  disk := { tree := ⟨sharedEntries name⟩, cwd := [] }

/-- The names of the document: one comes before that of the file of the saved grammar, the other
one after it. -/
def documentNames : List String := ["plain.yaml", "swap-cli.yaml"]

/-- The disk on which that grammar is saved besides the document. -/
def sharedDisk (name : String) : Disk :=
  { tree := ⟨sharedEntries name ++
      [(rootedPlace ++ ["swap-cli.json"], .file (Text.Utf8.encode (fileText helpGrammar)))]⟩,
    cwd := [] }

/-- The name of the temporary file. -/
def draftName : String := Disk.temporaryName "swap-cli.json" 0

/-- What the temporary file holds, and then the file of the grammar. -/
def helpEntry : Entry := .file (Text.Utf8.encode (fileText helpGrammar))

/-- The tree with the temporary file. -/
def draftTree (name : String) : Tree :=
  (sharedHost name).disk.tree.set (rootedPlace ++ [draftName]) helpEntry

section

variable {name : String}

theorem locate_sharedHost (hname : name ∈ documentNames) (follow : Bool) :
    (sharedHost name).disk.locate follow rootedDirectory.text =
      .ok (.found rootedPlace .directory) := by
  have hreaches : ∀ name ∈ documentNames,
      (sharedHost name).disk.Reaches rootedDirectory.text rootedPlace ∧
        (sharedHost name).disk.tree.entry? rootedPlace = some .directory := by decide
  obtain ⟨hreaches, hentry⟩ := hreaches name hname
  exact hreaches.locate hentry (by simp) follow

/-- Nothing stands where the temporary file is put. -/
theorem locate_draftName (hname : name ∈ documentNames) :
    (sharedHost name).disk.locate true (rootedDirectory.text ++ "/" ++ draftName) =
      .ok (.absent rootedPlace draftName) := by
  have hreaches : ∀ name ∈ documentNames,
      (sharedHost name).disk.Reaches (rootedDirectory.text ++ "/" ++ draftName)
        (rootedPlace ++ [draftName]) ∧
      (sharedHost name).disk.tree.entry? (rootedPlace ++ [draftName]) = none := by decide
  obtain ⟨hreaches, hnone⟩ := hreaches name hname
  exact hreaches.locate_absent hnone true

/-- Nothing stands where the file of the grammar is put. -/
theorem locate_draftTree (hname : name ∈ documentNames) :
    ((sharedHost name).disk.withTree (draftTree name)).locate false
      (rootedDirectory.join "swap-cli.json").text = .ok (.absent rootedPlace "swap-cli.json") := by
  have hreaches : ∀ name ∈ documentNames,
      ((sharedHost name).disk.withTree (draftTree name)).Reaches
        (rootedDirectory.join "swap-cli.json").text (rootedPlace ++ ["swap-cli.json"]) ∧
      Tree.entry? (draftTree name) (rootedPlace ++ ["swap-cli.json"]) = none := by decide
  obtain ⟨hreaches, hnone⟩ := hreaches name hname
  exact hreaches.locate_absent hnone false

/-- The grammar is saved besides the document. -/
theorem save_sharedHost (hname : name ∈ documentNames) :
    save (sharedHost name) helpGrammar =
      (sharedDisk name, .ok (rootedDirectory.join "swap-cli.json")) := by
  have hfile : ∀ name ∈ documentNames, fileOf (sharedHost name) helpGrammar =
      .ok (rootedDirectory.join "swap-cli.json") := by decide
  have habsolute : ∀ name ∈ documentNames,
      (sharedHost name).disk.absolute rootedDirectory.text = rootedDirectory := by decide
  have hfree : ∀ name ∈ documentNames,
      (sharedHost name).disk.freeName? rootedPlace "swap-cli.json" = some draftName := by
    decide
  have hdisk : ∀ name ∈ documentNames, (sharedHost name).disk.withTree
      (((draftTree name).erase (rootedPlace ++ [draftName])).set (rootedPlace ++ ["swap-cli.json"])
        helpEntry) = sharedDisk name := by decide
  have hreplace : (sharedHost name).disk.replace (rootedDirectory.join "swap-cli.json")
      (fileText helpGrammar) = _ :=
    Disk.replace_of_absent (Disk.grants_of_refusals_eq_nil rfl) (by decide) (by decide)
      (habsolute name hname) (locate_sharedHost hname) (locate_draftName hname) (hfree name hname)
      (locate_draftTree hname)
  rw [save, hfile name hname]
  dsimp only
  rw [hreplace, ← hdisk name hname]
  rfl

/-- Nothing is refused there. -/
theorem grants_sharedDisk (call : Call) (path : String) : (sharedDisk name).Grants call path :=
  Disk.grants_of_refusals_eq_nil rfl call path

theorem locate_sharedDisk (hname : name ∈ documentNames) :
    (sharedDisk name).locate true rootedDirectory.text = .ok (.found rootedPlace .directory) := by
  have hreaches : ∀ name ∈ documentNames,
      (sharedDisk name).Reaches rootedDirectory.text rootedPlace ∧
        (sharedDisk name).tree.entry? rootedPlace = some .directory := by decide
  obtain ⟨hreaches, hentry⟩ := hreaches name hname
  exact hreaches.locate hentry (by simp) true

/-- The document is still there. -/
theorem locate_document (hname : name ∈ documentNames) :
    (sharedDisk name).locate true (rootedDirectory.join name).text =
      .ok (.found (rootedPlace ++ [name]) (.file (Text.Utf8.encode plainDocument))) := by
  have hreaches : ∀ name ∈ documentNames,
      (sharedDisk name).Reaches (rootedDirectory.join name).text (rootedPlace ++ [name]) ∧
        (sharedDisk name).tree.entry? (rootedPlace ++ [name]) =
          some (.file (Text.Utf8.encode plainDocument)) := by decide
  obtain ⟨hreaches, hentry⟩ := hreaches name hname
  exact hreaches.locate hentry (by simp) true

/-- The file of the grammar is there. -/
theorem locate_saved (hname : name ∈ documentNames) :
    (sharedDisk name).locate true (rootedDirectory.join "swap-cli.json").text =
      .ok (.found (rootedPlace ++ ["swap-cli.json"])
        (.file (Text.Utf8.encode (fileText helpGrammar)))) := by
  have hreaches : ∀ name ∈ documentNames,
      (sharedDisk name).Reaches (rootedDirectory.join "swap-cli.json").text
        (rootedPlace ++ ["swap-cli.json"]) ∧
      (sharedDisk name).tree.entry? (rootedPlace ++ ["swap-cli.json"]) =
        some (.file (Text.Utf8.encode (fileText helpGrammar))) := by decide
  obtain ⟨hreaches, hentry⟩ := hreaches name hname
  exact hreaches.locate hentry (by simp) true

theorem afterSaving_sharedHost (hname : name ∈ documentNames) :
    afterSaving (sharedHost name) helpGrammar =
      { sharedHost name with disk := sharedDisk name } := by
  rw [afterSaving, save_sharedHost hname]

/-- The files of the user are the document and the file of the grammar, by their names. -/
theorem finds_sharedHost (hname : name ∈ documentNames) {chosen : List String}
    (hchosen : chosen.Perm [name, "swap-cli.json"]) (hsorted : chosen.Pairwise (· ≤ ·)) :
    Finds (afterSaving (sharedHost name) helpGrammar) (chosen.map rootedDirectory.join) := by
  rw [afterSaving_sharedHost hname]
  have hnames : ∀ name ∈ documentNames,
      (sharedDisk name).tree.names rootedPlace = [name, "swap-cli.json"] := by decide
  have hlist : (sharedDisk name).list rootedDirectory.text =
      .ok (rootedPlace, [name, "swap-cli.json"]) := by
    rw [← hnames name hname]
    exact Disk.list_of_locate (grants_sharedDisk _ _) (locate_sharedDisk hname)
  have hfile : ∀ file ∈ [name, "swap-cli.json"],
      (sharedDisk name).isFile (rootedDirectory.join file).text = .ok true := by
    intro file hmem
    rcases List.mem_pair.1 hmem with rfl | rfl
    · exact Disk.isFile_of_locate (grants_sharedDisk _ _) (locate_document hname)
    · exact Disk.isFile_of_locate (grants_sharedDisk _ _) (locate_saved hname)
  have hnamed : ∀ name ∈ documentNames, ∀ file ∈ [name, "swap-cli.json"],
      isGrammarName (rootedDirectory.join file) = true := by decide
  have hholds : ∀ file ∈ [name, "swap-cli.json"],
      holdsGrammar { sharedHost name with disk := sharedDisk name } rootedDirectory file = true :=
    fun file hmem => holdsGrammar_of_isFile (hfile file hmem) (hnamed name hname file hmem)
  have hdirectory : rootedEnvironment.grammarsDirectory = .ok rootedDirectory := by decide
  have hthere := Disk.isDirectory_of_locate (grants_sharedDisk _ _) (locate_sharedDisk hname)
  refine .inDirectory hdirectory hthere hlist (fun file hmem => ⟨true, hfile file hmem⟩) ?_ hsorted
  rwa [List.filter_eq_self.2 hholds]

theorem isProper_rootedDirectory : rootedDirectory.IsProper := by
  unfold Path.IsProper rootedDirectory rootedPlace
  decide

theorem parse_plainDocument :
    ∃ d, Source.parse plainDocument .yaml = .ok d ∧ Grammar.ofDocument d = .ok plainGrammar := by
  -- documents have no decidable equality, but the grammars in them do
  have hread : (Source.parse plainDocument .yaml).map Grammar.ofDocument =
      .ok (.ok plainGrammar) := by decide +kernel
  exact Environment.map_eq_ok_iff.1 hread

theorem grammarOf?_document (hname : name ∈ documentNames) :
    grammarOf? (afterSaving (sharedHost name) helpGrammar) (rootedDirectory.join name).text =
      some plainGrammar := by
  rw [afterSaving_sharedHost hname]
  obtain ⟨d, hparse, hgrammar⟩ := parse_plainDocument
  have hpath : ∀ name ∈ documentNames, (rootedDirectory.join name).anchor ≠ .here ∧
      Source.hintOfSuffix (rootedDirectory.join name).suffix = .yaml := by decide
  obtain ⟨hroot, hhint⟩ := hpath name hname
  have hcontent : Source.textOf (Text.Utf8.encode plainDocument) = .ok plainDocument := by
    decide +kernel
  exact grammarOf?_of_locate (isProper_rootedDirectory.join name) hroot
    (Disk.grantsReading_of_refusals_eq_nil rfl _) (locate_document hname) hcontent (by decide)
    (hhint.symm ▸ hparse) hgrammar

theorem grammarOf?_saved (hname : name ∈ documentNames) :
    grammarOf? (afterSaving (sharedHost name) helpGrammar)
      (rootedDirectory.join "swap-cli.json").text = some helpGrammar := by
  rw [afterSaving_sharedHost hname]
  exact grammarOf?_of_saved (isProper_rootedDirectory.join _) (by decide) (by decide)
    (Disk.grantsReading_of_refusals_eq_nil rfl _) (locate_saved hname)

/-- The registry is built: the document and the file of the grammar can both be loaded. -/
theorem exists_registry_sharedHost (hname : name ∈ documentNames) {chosen : List String}
    (hchosen : chosen.Perm [name, "swap-cli.json"]) (hsorted : chosen.Pairwise (· ≤ ·)) :
    ∃ r, (registry (afterSaving (sharedHost name) helpGrammar) {}).value = .ok r := by
  refine ⟨_, registry_eq_ok_iff.2 ⟨_, files_eq_ok_iff.2 (finds_sharedHost hname hchosen hsorted),
    fun source hsource => ?_, rfl⟩⟩
  rw [sourcesOf, List.append_nil, List.map_map] at hsource
  obtain ⟨file, hmem, rfl⟩ := List.mem_map.1 hsource
  rcases List.mem_pair.1 (hchosen.mem_iff.1 hmem) with rfl | rfl
  · exact not_isFaulty_of_grammarOf? (grammarOf?_document hname)
  · exact not_isFaulty_of_grammarOf? (grammarOf?_saved hname)

end

/-- A grammar is saved, and still the registry knows the grammar of a document that was there
before: the name of the document comes after that of the file of the grammar. -/
theorem lookup?_sharedHost :
    '/' ∉ helpGrammar.command.toList ∧
      (sharedHost "swap-cli.yaml").environment.configDirectory =
        .ok ⟨.root, ["config", "peercomp"]⟩ ∧
      (save (sharedHost "swap-cli.yaml") helpGrammar).2 =
        .ok (rootedDirectory.join "swap-cli.json") ∧
      ∃ r, (registry (afterSaving (sharedHost "swap-cli.yaml") helpGrammar) {}).value = .ok r ∧
        r.lookup? helpGrammar.command = some plainGrammar ∧ plainGrammar ≠ helpGrammar := by
  have hname : "swap-cli.yaml" ∈ documentNames := by decide
  have hchosen : ["swap-cli.json", "swap-cli.yaml"].Perm ["swap-cli.yaml", "swap-cli.json"] :=
    .swap ..
  have hsorted : ["swap-cli.json", "swap-cli.yaml"].Pairwise (· ≤ ·) := by decide
  obtain ⟨r, hregistry⟩ := exists_registry_sharedHost hname hchosen hsorted
  refine ⟨by decide, by decide, by rw [save_sharedHost hname], r, hregistry, ?_,
    by decide⟩
  rw [lookup?_of_finds (finds_sharedHost hname hchosen hsorted) hregistry]
  refine ⟨[Grammar.peerd, helpGrammar], [], ?_, rfl, nofun⟩
  rw [grammarsOf, sourcesOf, List.append_nil, List.map_map]
  simp only [List.map_cons, List.map_nil, Function.comp_apply]
  rw [List.filterMap_cons_some (grammarOf?_saved hname),
    List.filterMap_cons_some (grammarOf?_document hname)]
  rfl

/-- The saved grammar takes effect if the name of the document comes before that of its file. -/
theorem takesEffect_sharedHost :
    '/' ∉ helpGrammar.command.toList ∧
      (sharedHost "plain.yaml").environment.configDirectory =
        .ok ⟨.root, ["config", "peercomp"]⟩ ∧
      (save (sharedHost "plain.yaml") helpGrammar).2 =
        .ok (rootedDirectory.join "swap-cli.json") ∧
      ∃ r, (registry (afterSaving (sharedHost "plain.yaml") helpGrammar) {}).value = .ok r ∧
        r.lookup? helpGrammar.command = some helpGrammar := by
  have hname : "plain.yaml" ∈ documentNames := by decide
  have hchosen : ["plain.yaml", "swap-cli.json"].Perm ["plain.yaml", "swap-cli.json"] := .refl _
  have hsorted : ["plain.yaml", "swap-cli.json"].Pairwise (· ≤ ·) := by decide
  have hcommand : '/' ∉ helpGrammar.command.toList := by decide
  have hconfig : (sharedHost "plain.yaml").environment.configDirectory =
      .ok ⟨.root, ["config", "peercomp"]⟩ := by decide
  have hsave : (save (sharedHost "plain.yaml") helpGrammar).2 =
      .ok (rootedDirectory.join "swap-cli.json") := by rw [save_sharedHost hname]
  have hfinds : Finds (afterSaving (sharedHost "plain.yaml") helpGrammar)
      ([rootedDirectory.join "plain.yaml"] ++ rootedDirectory.join "swap-cli.json" :: []) :=
    finds_sharedHost hname hchosen hsorted
  obtain ⟨r, hregistry⟩ := exists_registry_sharedHost hname hchosen hsorted
  refine ⟨hcommand, hconfig, hsave, r, hregistry, ?_⟩
  refine (lookup?_registry_afterSaving hcommand hconfig (by decide) hsave rfl hregistry).2 ?_
  have hgrants : (afterSaving (sharedHost "plain.yaml") helpGrammar).disk.GrantsReading
      (rootedDirectory.join "swap-cli.json").text := by
    rw [afterSaving_sharedHost hname]
    exact Disk.grantsReading_of_refusals_eq_nil rfl _
  exact .last hfinds hgrants fun other hother => absurd hother.mem nofun

end TabCompletion.Library
