import TabCompletion.Proofs.Saving

/-!
# Listed grammars

A grammar file of the user is found by its path as the environment writes it, but it is loaded by
the text of this path, and loading expands a `~` in front of it. So the file that is loaded may be
another one than the file that is listed, or missing. `Source.ReadsAt` says where the file stands
that is loaded. If that is the place of the listed file, what is loaded is the grammar in its bytes
(`Source.grammarIn`), whatever they are; and if it is another place, there are bytes for which it is
not (`Library.load_listed_iff`). A path without `~` in front always comes to its own place.
-/

namespace TabCompletion

/-! ## Files with other bytes -/

namespace Tree

/-- Where a walk ends if the file at that place has other bytes. -/
def Located.refilled (place : Place) (bytes : List UInt8) : Located → Located
  | .found q (.file old) => .found q (.file (if q = place then bytes else old))
  | located => located

section

variable {t : Tree} {place q : Place} {old bytes : List UInt8}

theorem entry?_set_file (h : t.entry? place = some (.file old)) {found : List UInt8}
    (hq : t.entry? q = some (.file found)) :
    Tree.entry? (t.set place (.file bytes)) q =
      some (.file (if q = place then bytes else found)) := by
  by_cases hplace : q = place
  · have hne : place ≠ [] := by
      rintro rfl
      cases h
    rw [if_pos hplace, hplace, entry?_set_self hne]
  · rw [if_neg hplace, entry?_set_of_ne hplace, hq]

/-- A walk goes the same way when a file has other bytes. -/
theorem walk_set_file (h : t.entry? place = some (.file old)) (follow : Bool) (links : Nat)
    (here : Place) (names : List String) :
    (t.set place (.file bytes)).walk follow links here names =
      (t.walk follow links here names).map (Located.refilled place bytes) := by
  have hkept : ∀ {q o}, t.entry? q = o → o.any Entry.isFile = false →
      Tree.entry? (t.set place (.file bytes)) q = o := by
    rintro q o rfl hq
    refine entry?_set_of_ne fun hplace => ?_
    rw [hplace, h] at hq
    cases hq
  fun_induction Tree.walk t follow links here names with
  | case1 => exact walk_nil
  | case2 _ _ _ ih => rw [← ih, walk, if_pos rfl]
  | case3 _ _ _ _ ih => rw [← ih, walk, if_neg (by decide), if_pos rfl]
  | case4 _ _ _ _ hdot hup hlong =>
      rw [walk, if_neg hdot, if_neg hup, if_pos hlong]
      rfl
  | case5 _ _ _ _ hdot hup hshort hentry hend | case6 _ _ _ _ hdot hup hshort hentry hend
  | case10 _ _ _ _ hdot hup hshort _ hentry hend | case11 _ _ _ hdot hup hshort _ hentry hend =>
      -- the walk ends at something that is no file
      rw [walk, if_neg hdot, if_neg hup, if_neg hshort]
      simp only [hkept hentry rfl, hend, if_true]
      rfl
  | case8 _ _ _ _ hdot hup hshort _ hentry hend | case9 _ _ _ _ hdot hup hshort _ hentry hend =>
      -- the walk ends at a file
      rw [walk, if_neg hdot, if_neg hup, if_neg hshort]
      simp only [entry?_set_file h hentry, hend, if_true]
      rfl
  | case7 _ _ _ _ hdot hup hshort hentry ih =>
      rw [walk, if_neg hdot, if_neg hup, if_neg hshort]
      simp only [hkept hentry rfl, ih]
  | case12 _ _ _ hdot hup hshort _ hentry hend _ ih =>
      rw [walk, if_neg hdot, if_neg hup, if_neg hshort]
      simp only [hkept hentry rfl, if_neg hend]
      exact ih

end

end Tree

namespace Disk

variable {d : Disk} {path : String} {place : Place} {old bytes : List UInt8}

/-- The disk with other bytes in the file at a place. -/
def refill (d : Disk) (place : Place) (bytes : List UInt8) : Disk :=
  d.withTree (d.tree.set place (.file bytes))

theorem write_of_locate (h : d.locate true path = .ok (.found place (.file old)))
    (bytes : List UInt8) : d.write path bytes = .ok (d.refill place bytes) := by
  rw [write, filePlace, h]
  rfl

theorem locate_refill (h : d.tree.entry? place = some (.file old)) (follow : Bool)
    (path : String) :
    (d.refill place bytes).locate follow path =
      (d.locate follow path).map (Tree.Located.refilled place bytes) := by
  unfold locate refill withTree
  simp only [Tree.walk_set_file h]
  split
  · rfl
  · split
    · rfl
    · cases d.tree.walk follow Tree.maxLinks _ (Tree.stepsOf path) <;> rfl

/-- The bytes that are written are at the end of each path that leads to the place. -/
theorem locate_refill_self (h : d.locate true path = .ok (.found place (.file old))) :
    (d.refill place bytes).locate true path = .ok (.found place (.file bytes)) := by
  have hentry := Tree.entry?_of_walk (locate_eq_ok_iff.1 h).2
  rw [locate_refill hentry, h]
  exact congrArg (fun b => Except.ok (Tree.Located.found place (.file b))) (if_pos rfl)

/-- Where files stand does not depend on their bytes. -/
theorem isFile_refill (h : d.tree.entry? place = some (.file old)) :
    (d.refill place bytes).isFile path = d.isFile path := by
  have hrefused : (d.refill place bytes).refused? .look path = d.refused? .look path := rfl
  unfold isFile ask look granted entry
  rw [hrefused]
  cases d.refused? .look path with
  | some kind => rfl
  | none =>
      dsimp only
      rw [locate_refill h]
      cases d.locate true path with
      | error fault => rfl
      | ok located =>
          cases located with
          | absent directory name => rfl
          | found q e => cases e <;> rfl

/-- A path that leads elsewhere leads there as before. -/
theorem locate_refill_of_ne (h : d.tree.entry? place = some (.file old))
    (hne : ∀ found, d.locate true path ≠ .ok (.found place (.file found))) (bytes : List UInt8) :
    (d.refill place bytes).locate true path = d.locate true path := by
  rw [locate_refill h]
  cases hpath : d.locate true path with
  | error fault => rfl
  | ok located =>
      refine congrArg Except.ok ?_
      cases located with
      | absent directory name => rfl
      | found q e =>
          cases e with
          | directory => rfl
          | link target => rfl
          | file found =>
              have hq : q ≠ place := by
                rintro rfl
                exact hne found hpath
              exact congrArg (fun b => Tree.Located.found q (.file b)) (if_neg hq)

end Disk

/-! ## What a file holds -/

namespace Source

/-- The grammar in a file of these bytes. The file is known by the text of its path and by the end
of its name. -/
def grammarIn (source suffix : String) (bytes : List UInt8) : Loading Grammar :=
  match textOf bytes with
  | .error e => fail (.unreadableFile source e.message)
  | .ok content =>
    if Text.isBlankText content then fail (.emptyFile source)
    else do
      let d ← parse content (hintOfSuffix suffix)
      match Grammar.ofDocument d with
      | .ok g => return g
      | .error refusal => fail (.invalid source refusal)

/-- The file that is loaded for the source stands at the place, and the system lets it be read. -/
def ReadsAt (h : Host) (source : String) (place : Place) : Prop :=
  ∃ q bytes, h.environment.expandPath (Path.ofText source) = .ok q ∧
    h.disk.GrantsReading q.text ∧ h.disk.locate true q.text = .ok (.found place (.file bytes))

section

variable {h : Host} {source : String} {q : Path} {bytes : List UInt8}

/-- A file is loaded as what its bytes hold. -/
theorem load_of_read (hlocal : isLocal source = true)
    (hpath : h.environment.expandPath (Path.ofText source) = .ok q)
    (hfile : h.disk.isFile q.text = .ok true) (hbytes : h.disk.read q.text = .ok bytes) :
    load h source = grammarIn source q.suffix bytes := by
  unfold load loadAs loadDocument grammarIn
  rw [readText_of_isLocal h hlocal, readFile]
  simp only [hpath, hfile, hbytes]
  cases textOf bytes with
  | error e => rfl
  | ok content =>
      by_cases hblank : Text.isBlankText content = true
      · simp only [hblank, if_true, fail, bind, Except.bind]
      · cases hparse : parse content (hintOfSuffix q.suffix) with
        | error stop =>
            simp only [hblank, Bool.false_eq_true, if_false, bind, Except.bind, hparse]
        | ok d =>
            cases hgrammar : Grammar.ofDocument d <;>
              simp only [hblank, Bool.false_eq_true, if_false, bind, Except.bind, hparse, hgrammar]

/-- Two contents of a file that are told apart whatever its name is. -/
theorem grammarIn_ne (source suffix : String) :
    grammarIn source suffix [] ≠ grammarIn source suffix [0xFF] := by
  have hempty : textOf [] = .ok "" := by
    rw [textOf, Text.Utf8.decode, Text.Utf8.decodeFrom]
    rfl
  have hones : textOf [0xFF] = .error ⟨0, 1, 0xFF, .startByte⟩ := by
    rw [textOf, Text.Utf8.decode, Text.Utf8.decodeFrom]
    rfl
  unfold grammarIn
  rw [hempty, hones]
  intro heq
  cases heq

end

end Source

/-! ## Paths that are expanded -/

/-- A `~` stands in front of the path. -/
def Path.HasTilde (p : Path) : Prop :=
  p.anchor = .here ∧ ∃ first ∈ p.parts.head?, first.toList.head? = some '~'

namespace Environment

variable {env : Environment} {p q : Path}

theorem expandPath_of_not_hasTilde (h : ¬ p.HasTilde) : env.expandPath p = .ok p := by
  unfold expandPath
  split
  · next first rest hanchor hparts =>
      rw [if_neg]
      exact fun htilde => h ⟨hanchor, first, by rw [hparts]; rfl, htilde⟩
  · rfl

/-- The last name stays, unless it is the one that is expanded. -/
theorem suffix_expandPath (hlength : p.HasTilde → 1 < p.parts.length)
    (h : env.expandPath p = .ok q) : q.suffix = p.suffix := by
  by_cases htilde : p.HasTilde
  · have hmore := hlength htilde
    obtain ⟨hanchor, first, hfirst, hhead⟩ := htilde
    obtain ⟨rest, hparts⟩ := List.head?_eq_some_iff.1 hfirst
    rw [hparts, List.length_cons, Nat.lt_add_left_iff_pos, List.length_pos_iff] at hmore
    unfold expandPath at h
    simp only [hanchor, hparts, hhead, if_true] at h
    split at h
    · cases h
    · split at h
      · cases h
      · cases h
        rw [Path.suffix, Path.suffix, Path.name, Path.name, hparts,
          List.getLast?_append_of_ne_nil _ hmore, List.getLast?_cons_of_ne_nil hmore]
  · rw [expandPath_of_not_hasTilde htilde] at h
    cases h
    rfl

/-- The last name of the directory has no `~`, so there is another one in front of it if the path of
a file there has one. -/
theorem length_of_hasTilde_join {directory : Path} {name : String}
    (hdirectory : env.grammarsDirectory = .ok directory)
    (htilde : (directory.join name).HasTilde) : 1 < (directory.join name).parts.length := by
  obtain ⟨q, -, rfl⟩ := grammarsDirectory_eq_ok_iff.1 hdirectory
  unfold Path.join Path.append at htilde ⊢
  split at htilde
  · next hhere =>
      rw [if_pos hhere]
      cases hparts : q.parts with
      | nil =>
          obtain ⟨-, first, hfirst, hhead⟩ := htilde
          rw [hparts] at hfirst
          cases hfirst
          exact absurd hhead (by decide)
      | cons first rest =>
          simp only [List.length_append, List.length_cons]
          omega
  · next hanchor => exact absurd htilde.1 hanchor

end Environment

/-! ## Listed files -/

/-- A file that stands elsewhere, or may not be read, is loaded as before. -/
theorem Source.load_refill {h : Host} {source : String} {place : Place} {old : List UInt8}
    (hlocal : isLocal source = true) (hentry : h.disk.tree.entry? place = some (.file old))
    (hnot : ¬ ReadsAt h source place) (bytes : List UInt8) :
    load { h with disk := h.disk.refill place bytes } source = load h source := by
  have hread : readFile { h with disk := h.disk.refill place bytes } source =
      readFile h source := by
    unfold readFile
    dsimp only
    cases hpath : h.environment.expandPath (Path.ofText source) with
    | error fault => rfl
    | ok q =>
        dsimp only
        rw [Disk.isFile_refill hentry]
        cases hfile : h.disk.isFile q.text with
        | error fault => rfl
        | ok isFile =>
            cases isFile with
            | false => rfl
            | true =>
                -- the file is seen, so it stands elsewhere unless the system refuses to read it
                have hsame : (h.disk.refill place bytes).read q.text = h.disk.read q.text := by
                  by_cases hread : h.disk.Grants .read q.text
                  · have hgrants : h.disk.GrantsReading q.text :=
                      ⟨(Disk.exists_locate_of_ask hfile).1, hread⟩
                    exact Disk.read_congr rfl (Disk.locate_refill_of_ne hentry
                      (fun found hfound => hnot ⟨q, found, hpath, hgrants, hfound⟩) bytes)
                  · obtain ⟨kind, hkind⟩ := Option.ne_none_iff_exists'.1 hread
                    have hrefused : ∀ {d : Disk}, d.refused? .read q.text = some kind →
                        d.read q.text = .error (Disk.faultAt kind q.text) :=
                      fun hd => Disk.granted_eq_error_iff.2 (.inl ⟨kind, hd, rfl⟩)
                    rw [hrefused hkind, hrefused (d := h.disk.refill place bytes) hkind]
                dsimp only
                rw [hsame]
  rw [load, loadAs, loadAs, loadDocument, loadDocument, readText_of_isLocal _ hlocal,
    readText_of_isLocal _ hlocal, hread]

namespace Library

/-- What the listing of the user's grammars says of the path of a file. -/
structure IsListed (h : Host) (p : Path) : Prop where
  proper : p.IsProper
  isLocal : Source.isLocal p.text = true
  length : p.HasTilde → 1 < p.parts.length
  isFile : h.disk.isFile p.text = .ok true

variable {h : Host} {found : List Path} {p : Path}

theorem isFile_of_holdsGrammar {directory : Path} {name : String}
    (h' : holdsGrammar h directory name = true) :
    h.disk.isFile (directory.join name).text = .ok true := by
  unfold holdsGrammar at h'
  split at h'
  · next isFile hisFile => rw [hisFile, (Bool.and_eq_true_iff.1 h').1]
  · cases h'

theorem isListed_of_files (hfiles : files h = .ok found) (hp : p ∈ found) : IsListed h p := by
  have hfinds := files_eq_ok_iff.1 hfiles
  have hlocal := isLocal_of_finds hfinds p hp
  cases hfinds with
  | nowhere hdirectory hnone => cases hp
  | inDirectory hdirectory hthere hlist hask hchosen hsorted =>
      obtain ⟨name, hname, rfl⟩ := List.mem_map.1 hp
      have hproper := Environment.isProper_grammarsDirectory hdirectory
      have hholds := (List.mem_filter.1 (hchosen.mem_iff.1 hname)).2
      exact ⟨hproper.join name, hlocal, Environment.length_of_hasTilde_join hdirectory,
        isFile_of_holdsGrammar hholds⟩

/-- If the path that is expanded leads to a file that may be read, the grammar in it is loaded. -/
theorem IsListed.load_eq {q : Path} {place : Place} {bytes : List UInt8} (hlisted : IsListed h p)
    (hpath : h.environment.expandPath (Path.ofText p.text) = .ok q)
    (hgrants : h.disk.GrantsReading q.text)
    (hlocate : h.disk.locate true q.text = .ok (.found place (.file bytes))) :
    Source.load h p.text = Source.grammarIn p.text p.suffix bytes := by
  have hexpand := hpath
  rw [Path.ofText_text hlisted.proper] at hexpand
  rw [Source.load_of_read hlisted.isLocal hpath (Disk.isFile_of_locate hgrants.look hlocate)
      (Disk.read_of_locate hgrants.read hlocate),
    Environment.suffix_expandPath hlisted.length hexpand]

/-- What is loaded for a file that is listed is the grammar in it, whatever its bytes are, exactly
if its path with the home directory expanded comes to the place of the file, and the system lets it
be read there. It does without a `~` in front. -/
theorem load_listed_iff (h : Host) (hfiles : files h = .ok found) (hp : p ∈ found) :
    ∃ place bytes, h.disk.locate true p.text = .ok (.found place (.file bytes)) ∧
      (Source.ReadsAt h p.text place →
        Source.load h p.text = Source.grammarIn p.text p.suffix bytes) ∧
      (Source.ReadsAt h p.text place ↔ ∀ content, ∃ disk, h.disk.write p.text content = .ok disk ∧
        Source.load { h with disk } p.text = Source.grammarIn p.text p.suffix content) ∧
      (¬ p.HasTilde → h.disk.Grants .read p.text → Source.ReadsAt h p.text place) := by
  have hlisted := isListed_of_files hfiles hp
  obtain ⟨place, bytes, hlocate⟩ := Disk.exists_locate_of_isFile hlisted.isFile
  have hentry := Tree.entry?_of_walk (Disk.locate_eq_ok_iff.1 hlocate).2
  refine ⟨place, bytes, hlocate, ?_, ⟨fun hreads content => ?_, fun hall => ?_⟩,
    fun htilde hread => ?_⟩
  · rintro ⟨q, stored, hpath, hgrants, hstored⟩
    have hsame := (Tree.entry?_of_walk (Disk.locate_eq_ok_iff.1 hstored).2).symm.trans hentry
    cases hsame
    exact hlisted.load_eq hpath hgrants hstored
  · -- the path still leads to the place when other bytes are there
    obtain ⟨q, stored, hpath, hgrants, hstored⟩ := hreads
    have hwrite := Disk.write_of_locate hlocate content
    have hwritten : IsListed { h with disk := h.disk.refill place content } p :=
      { hlisted with isFile := (Disk.isFile_refill hentry).trans hlisted.isFile }
    exact ⟨_, hwrite,
      hwritten.load_eq hpath ⟨hgrants.look, hgrants.read⟩ (Disk.locate_refill_self hstored)⟩
  · -- what is loaded from elsewhere does not depend on the bytes
    refine Classical.byContradiction fun hnot => Source.grammarIn_ne p.text p.suffix ?_
    have hsame : ∀ content,
        Source.grammarIn p.text p.suffix content = Source.load h p.text := by
      intro content
      obtain ⟨disk, hwrite, hload⟩ := hall content
      rw [Disk.write_of_locate hlocate] at hwrite
      cases hwrite
      rw [← hload, Source.load_refill hlisted.isLocal hentry hnot]
    rw [hsame, hsame]
  · have hlook := (Disk.exists_locate_of_ask hlisted.isFile).1
    refine ⟨p, bytes, ?_, ⟨hlook, hread⟩, hlocate⟩
    rw [Path.ofText_text hlisted.proper, Environment.expandPath_of_not_hasTilde htilde]

/-! ## A directory of settings behind a `~` -/

/-- The directory of the user's grammars, where that of settings is set to a path with a `~` in
front. -/
def tildeDirectory : Path := ⟨.here, ["~", ".config", "peercomp", "grammars"]⟩

/-- The file of a grammar there. -/
def tildeFile : Path := ⟨.here, ["~", ".config", "peercomp", "grammars", "swap-cli.yaml"]⟩

/-- A host with that file and a home directory. -/
def tildeHost (home : String) : Host where
  environment :=
    { values := [("XDG_CONFIG_HOME", "~/.config"), ("HOME", home)], users := [], ownHome := none,
      platform := "Linux" }
  disk :=
    { tree := ⟨[(["~"], .directory), (["~", ".config"], .directory),
        (["~", ".config", "peercomp"], .directory), (tildeDirectory.parts, .directory),
        (tildeFile.parts, .file (Text.Utf8.encode plainDocument))]⟩,
      cwd := [] }

section

variable (home : String)

/-- Nothing is refused there. -/
theorem grants_tildeHost (call : Call) (path : String) : (tildeHost home).disk.Grants call path :=
  Disk.grants_of_refusals_eq_nil rfl call path

theorem walk_tildeHost (names : List String) :
    (tildeHost home).disk.tree.walk true Tree.maxLinks [] (tildeDirectory.parts ++ names) =
      (tildeHost home).disk.tree.walk true Tree.maxLinks tildeDirectory.parts names := by
  simp only [tildeDirectory, List.cons_append, List.nil_append]
  rw [Tree.walk_directory (by decide) rfl, Tree.walk_directory (by decide) rfl,
    Tree.walk_directory (by decide) rfl, Tree.walk_directory (by decide) rfl]
  rfl

theorem walk_tildeFile :
    (tildeHost home).disk.tree.walk true Tree.maxLinks [] tildeFile.parts =
      .ok (.found tildeFile.parts (.file (Text.Utf8.encode plainDocument))) :=
  (walk_tildeHost home ["swap-cli.yaml"]).trans (Tree.walk_file (by decide) _ rfl)

theorem locate_tildeFile :
    (tildeHost home).disk.locate true tildeFile.text =
      .ok (.found tildeFile.parts (.file (Text.Utf8.encode plainDocument))) := by
  have hsteps : Tree.stepsOf tildeFile.text = tildeFile.parts := by decide
  exact Disk.locate_eq_ok_iff.2 ⟨by decide, hsteps ▸ walk_tildeFile home⟩

theorem files_tildeHost : files (tildeHost home) = .ok [tildeFile] := by
  have hsteps : Tree.stepsOf tildeDirectory.text = tildeDirectory.parts := by decide
  have hlocate : (tildeHost home).disk.locate true tildeDirectory.text =
      .ok (.found tildeDirectory.parts .directory) :=
    Disk.locate_eq_ok_iff.2
      ⟨by decide, hsteps ▸ (walk_tildeHost home []).trans Tree.walk_nil⟩
  have hlist : (tildeHost home).disk.list tildeDirectory.text =
      .ok (tildeDirectory.parts, ["swap-cli.yaml"]) :=
    Disk.list_of_locate (grants_tildeHost home _ _) hlocate
  have hthere := Disk.isDirectory_of_locate (grants_tildeHost home _ _) hlocate
  have hjoin : tildeDirectory.join "swap-cli.yaml" = tildeFile := by decide
  have hfile : (tildeHost home).disk.isFile (tildeDirectory.join "swap-cli.yaml").text = .ok true :=
    hjoin ▸ Disk.isFile_of_locate (grants_tildeHost home _ _) (locate_tildeFile home)
  rw [← hjoin]
  have hdirectory : (tildeHost home).environment.grammarsDirectory = .ok tildeDirectory := rfl
  refine files_eq_ok_iff.2
    (.inDirectory hdirectory hthere hlist ?_ ?_ (List.pairwise_singleton _ _))
  · rintro name hname
    rw [List.mem_singleton.1 hname]
    exact ⟨true, hfile⟩
  · rw [List.filter_cons_of_pos (holdsGrammar_of_isFile hfile (by decide)), List.filter_nil]

end

theorem grammarIn_tildeFile :
    Source.grammarIn tildeFile.text tildeFile.suffix (Text.Utf8.encode plainDocument) =
      .ok plainGrammar := by
  obtain ⟨d, hparse, hgrammar⟩ := parse_plainDocument
  have hcontent : Source.textOf (Text.Utf8.encode plainDocument) = .ok plainDocument := by
    decide +kernel
  have hhint : Source.hintOfSuffix tildeFile.suffix = .yaml := by decide
  have hblank : ¬ Text.isBlankText plainDocument = true := by decide
  rw [Source.grammarIn, hcontent, hhint]
  simp only [hblank, bind, Except.bind, hparse, hgrammar]
  rfl

/-- The file is listed and holds a grammar, but it is looked for in the home directory, where there
is none. -/
theorem not_load_listed_tildeHost :
    files (tildeHost "home") = .ok [tildeFile] ∧
      (tildeHost "home").disk.read tildeFile.text = .ok (Text.Utf8.encode plainDocument) ∧
        Source.grammarIn tildeFile.text tildeFile.suffix (Text.Utf8.encode plainDocument) =
            .ok plainGrammar ∧
          Source.load (tildeHost "home") tildeFile.text =
            .error (.failure (.noFile tildeFile.text)) := by
  refine ⟨files_tildeHost "home",
    Disk.read_of_locate (grants_tildeHost _ _ _) (locate_tildeFile "home"), grammarIn_tildeFile, ?_⟩
  have hpath : (tildeHost "home").environment.expandPath (Path.ofText tildeFile.text) =
      .ok ⟨.here, "home" :: tildeFile.parts.tail⟩ := by decide
  have hsteps : Tree.stepsOf (Path.mk .here ("home" :: tildeFile.parts.tail)).text =
      "home" :: tildeFile.parts.tail := by decide
  have hfile : (tildeHost "home").disk.isFile
      (Path.mk .here ("home" :: tildeFile.parts.tail)).text = .ok false := by
    refine Disk.ask_of_missing (grants_tildeHost _ _ _) (by decide) ?_ _
    rw [hsteps, tildeFile, List.tail_cons]
    exact Tree.walk_missing (by decide) rfl _ _
  rw [Source.load, Source.loadAs, Source.loadDocument, Source.readText_of_isLocal _ (by decide),
    Source.readFile]
  simp only [hpath, hfile]
  rfl

/-- If the working directory is the one that holds the home directory, the file is found there. -/
theorem load_listed_tildeHost :
    files (tildeHost "/~") = .ok [tildeFile] ∧
      Source.load (tildeHost "/~") tildeFile.text = .ok plainGrammar := by
  have hfiles := files_tildeHost "/~"
  refine ⟨hfiles, ?_⟩
  obtain ⟨place, bytes, hlocate, hload, -⟩ :=
    load_listed_iff (tildeHost "/~") hfiles List.mem_cons_self
  rw [locate_tildeFile] at hlocate
  cases hlocate
  have hsteps : Tree.stepsOf (Path.mk .root tildeFile.parts).text = tildeFile.parts := by decide
  have hreads : Source.ReadsAt (tildeHost "/~") tildeFile.text tildeFile.parts := by
    refine ⟨⟨.root, tildeFile.parts⟩, Text.Utf8.encode plainDocument, by decide,
      Disk.grantsReading_of_refusals_eq_nil rfl _, ?_⟩
    refine Disk.locate_eq_ok_iff.2 ⟨by decide, ?_⟩
    rw [hsteps]
    exact walk_tildeFile "/~"
  rw [hload hreads, grammarIn_tildeFile]

end Library

end TabCompletion
