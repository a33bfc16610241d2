import TabCompletion.Journal.Logger
import TabCompletion.Proofs.AppendedFiles

/-!
# Set-ups of a logger

A set-up discards all handlers that it finds (`Session.discardAll_eq`), so what it comes to depends
on the machine alone: `SetUp.comesTo_setUp` lists the ways in which it may end, and
`Session.setUp_fst` says what the logger is then. Its records go where `Outlets` says, in which a
run of the program sets up its only logger (`Session.setUp_of_outlets`, `Session.note_of_outlets`):
to the end of the file that was opened, each of the program's once, and to no other file
(`Session.entry?_noted_setUp`).
-/

namespace TabCompletion

/-- The logger whose records go where `o` says. -/
def Outlets.logger (o : Outlets) : Logger where
  handlers := ⟨.terminal, o.terminal⟩ :: (o.file.map fun place => ⟨.file place, .debug⟩).toList
  level := some o.threshold
  propagates := false

namespace SetUp

variable {c : SetUp} {h h' : Host} {place : Place}

/-- The place of the file that a set-up opens: its path names one that can be opened. -/
def file? (c : SetUp) (h : Host) : Option Place :=
  c.path?.bind fun path => (Outlets.openFile h path).toOption.map Prod.snd

/-- Where records go after a set-up. -/
def outlets (c : SetUp) (h : Host) : Outlets where
  threshold := c.level
  terminal := c.terminalLevel
  file := c.file? h

theorem path?_eq_some_iff {path : String} :
    c.path? = some path ↔ c.path = some path ∧ path ≠ "" := by
  rw [path?, Option.filter_eq_some_iff, bne_iff_ne]

/-- A file is opened at the place to which its path leads, and is there from then on. -/
theorem openFile_eq_ok_iff {path : String} {disk : Disk} :
    Outlets.openFile h path = .ok (disk, place) ↔
      ∃ expanded, h.environment.expandHome path = .ok expanded ∧
        h.disk.openPlace (h.disk.absolute expanded).text = .ok place ∧
        disk = h.disk.appendAt place [] := by
  unfold Outlets.openFile
  cases h.environment.expandHome path with
  | error fault => simp [bind, Except.bind]
  | ok expanded =>
      cases hplace : h.disk.openPlace (h.disk.absolute expanded).text with
      | error fault => simp [bind, Except.bind, hplace]
      | ok found =>
          simp only [bind, Except.bind, pure, Except.pure, Except.ok.injEq, Prod.mk.injEq, hplace,
            exists_eq_left']
          constructor
          · rintro ⟨rfl, rfl⟩
            exact ⟨rfl, rfl⟩
          · rintro ⟨rfl, rfl⟩
            exact ⟨rfl, rfl⟩

theorem file?_eq_some_iff : c.file? h = some place ↔
    ∃ path disk, c.path = some path ∧ path ≠ "" ∧
      Outlets.openFile h path = .ok (disk, place) := by
  unfold file?
  rw [Option.bind_eq_some_iff]
  constructor
  · rintro ⟨path, hpath, hopen⟩
    cases hfile : Outlets.openFile h path with
    | error fault =>
        rw [hfile] at hopen
        cases hopen
    | ok opened =>
        rw [hfile] at hopen
        cases hopen
        exact ⟨path, opened.1, (path?_eq_some_iff.1 hpath).1, (path?_eq_some_iff.1 hpath).2, hfile⟩
  · rintro ⟨path, disk, hpath, hne, hopen⟩
    refine ⟨path, path?_eq_some_iff.2 ⟨hpath, hne⟩, ?_⟩
    rw [hopen]
    rfl

theorem file?_eq_some_iff_openPlace : c.file? h = some place ↔
    ∃ path expanded, c.path = some path ∧ path ≠ "" ∧
      h.environment.expandHome path = .ok expanded ∧
      h.disk.openPlace (h.disk.absolute expanded).text = .ok place := by
  rw [file?_eq_some_iff]
  constructor
  · rintro ⟨path, disk, hpath, hne, hopen⟩
    obtain ⟨expanded, hexpanded, hplace, -⟩ := openFile_eq_ok_iff.1 hopen
    exact ⟨path, expanded, hpath, hne, hexpanded, hplace⟩
  · rintro ⟨path, expanded, hpath, hne, hexpanded, hplace⟩
    exact ⟨path, _, hpath, hne, openFile_eq_ok_iff.2 ⟨expanded, hexpanded, hplace, rfl⟩⟩

theorem isFilePlace_of_file? (hfile : c.file? h = some place) : h.disk.IsFilePlace place := by
  obtain ⟨path, expanded, -, -, -, hplace⟩ := file?_eq_some_iff_openPlace.1 hfile
  exact Disk.isFilePlace_of_filePlace (Disk.openPlace_eq_ok_iff.1 hplace).2

/-- Where paths open the same files, a set-up opens the same file. -/
theorem file?_congr (henvironment : h'.environment = h.environment)
    (hdisk : h.disk.OpensAlike h'.disk) (c : SetUp) : c.file? h' = c.file? h := by
  have habsolute : ∀ path, h'.disk.absolute path = h.disk.absolute path := by
    intro path
    rw [Disk.absolute, hdisk.cwd, Disk.absolute]
  apply Option.ext
  intro place
  simp only [file?_eq_some_iff_openPlace, henvironment, habsolute, hdisk.openPlace_iff]

/-! ## What a set-up comes to -/

theorem level_of_path?_eq_none (hpath : c.path? = none) : c.level = c.terminalLevel := by
  simp [level, terminalLevel, hpath]

theorem level_of_path?_eq_some {path : String} (hpath : c.path? = some path) :
    c.level = .debug := by
  simp [level, hpath]

/-- What comes of a set-up: no file is named; or one is named, and it is opened, or it cannot be
opened, or a fault that is none of files stops the set-up. -/
inductive ComesTo (c : SetUp) (h : Host) : Except Fault (Disk × Logged Outlets) → Prop
  | unnamed (hpath : c.path? = none) :
      ComesTo c h (.ok (h.disk, pure { threshold := c.level, terminal := c.terminalLevel }))
  | opened {path : String} {place : Place} (hpath : c.path? = some path)
      (hopen : Outlets.openFile h path = .ok (h.disk.appendAt place [], place)) :
      ComesTo c h (.ok (h.disk.appendAt place [],
        pure { threshold := c.level, terminal := c.terminalLevel, file := some place }))
  | unopened {path : String} {fault : FileFault} (hpath : c.path? = some path)
      (hopen : Outlets.openFile h path = .error (.file fault)) :
      ComesTo c h (.ok (h.disk, ⟨[Outlets.unopened path fault],
        { threshold := c.level, terminal := c.terminalLevel }⟩))
  | stopped {path : String} {fault : Fault} (hpath : c.path? = some path)
      (hopen : Outlets.openFile h path = .error fault) (hother : ∀ f, fault ≠ .file f) :
      ComesTo c h (.error fault)

theorem comesTo_setUp (c : SetUp) (h : Host) :
    c.ComesTo h (Outlets.setUp h c.verbose c.path) := by
  unfold Outlets.setUp
  dsimp only
  split
  · next hpath =>
      have hcomes := ComesTo.unnamed (c := c) (h := h) hpath
      rwa [level_of_path?_eq_none hpath] at hcomes
  · next path hpath =>
      have hlevel := level_of_path?_eq_some (c := c) hpath
      split
      · next disk place hopen =>
          obtain ⟨expanded, -, -, rfl⟩ := openFile_eq_ok_iff.1 hopen
          have hcomes := ComesTo.opened (c := c) hpath hopen
          rwa [hlevel] at hcomes
      · next fault hopen =>
          have hcomes := ComesTo.unopened (c := c) hpath hopen
          rwa [hlevel] at hcomes
      · next fault hother hopen => exact .stopped hpath hopen hother

theorem file?_of_path? {path : String} (hpath : c.path? = some path) :
    c.file? h = (Outlets.openFile h path).toOption.map Prod.snd := by
  rw [file?, hpath]
  rfl

/-- What a set-up that comes to its end has set up. -/
theorem setUp_eq_ok {disk : Disk} {outlets : Logged Outlets}
    (hsetUp : Outlets.setUp h c.verbose c.path = .ok (disk, outlets)) :
    outlets.value = c.outlets h ∧ disk = (c.file? h).elim h.disk (h.disk.appendAt · []) := by
  have hcomes := c.comesTo_setUp h
  rw [hsetUp] at hcomes
  unfold SetUp.outlets
  cases hcomes with
  | unnamed hpath =>
      rw [file?, hpath]
      exact ⟨rfl, rfl⟩
  | opened hpath hopen | unopened hpath hopen =>
      rw [file?_of_path? hpath, hopen]
      exact ⟨rfl, rfl⟩

/-- A fault opens no file. -/
theorem file?_of_setUp_eq_error {fault : Fault}
    (hsetUp : Outlets.setUp h c.verbose c.path = .error fault) : c.file? h = none := by
  have hcomes := c.comesTo_setUp h
  rw [hsetUp] at hcomes
  cases hcomes with
  | stopped hpath hopen hother =>
      rw [file?_of_path? hpath, hopen]
      rfl

end SetUp

namespace Session

variable {s : Session} {c : SetUp} {h : Host} {o : Outlets} {place : Place} {r : Record}

/-! ## Handlers that are discarded -/

/-- The files that are held open are those of the handlers. -/
def HoldsItsFiles (s : Session) : Prop :=
  s.opened = s.logger.handlers.filterMap Handler.place?

theorem foldl_erase_self {α : Type} [BEq α] [LawfulBEq α] (l : List α) :
    l.foldl List.erase l = [] := by
  induction l with
  | nil => rfl
  | cons a l ih =>
      rw [List.foldl_cons, List.erase_cons_head]
      exact ih

theorem foldl_discard (handlers : List Handler) (s : Session) :
    handlers.foldl discard s =
      { s with
        logger.handlers := handlers.foldl List.erase s.logger.handlers
        opened := (handlers.filterMap Handler.place?).foldl List.erase s.opened } := by
  induction handlers generalizing s with
  | nil => rfl
  | cons handler handlers ih =>
      rw [List.foldl_cons, ih]
      cases hplace : handler.place? with
      | none => simp [discard, Logger.detach, hplace]
      | some place => simp [discard, Logger.detach, hplace]

/-- All handlers are taken off, and their files are closed. -/
theorem discardAll_eq (hs : s.HoldsItsFiles) :
    s.discardAll = { s with logger.handlers := [], opened := [] } := by
  -- each handler is found by what it is; which of two alike goes first makes no difference
  unfold discardAll
  rw [foldl_discard, foldl_erase_self, hs, foldl_erase_self]

/-! ## Records -/

theorem debug_rank_le (level : Level) : Level.debug.rank ≤ level.rank := by
  cases level <;> decide

theorem deliver_terminal (r : Record) (s : Session) (level : Level) :
    deliver r s ⟨.terminal, level⟩ =
      { s with
        shown := s.shown ++ if level.rank ≤ r.level.rank then Outlets.terminalText r else "" } := by
  unfold deliver
  split
  · rfl
  · rw [String.append_empty]

theorem deliver_file (r : Record) (s : Session) (place : Place) :
    deliver r s ⟨.file place, .debug⟩ =
      { s with
        host.disk := s.host.disk.appendAt place
          (Text.Utf8.encode (Outlets.fileText s.host.stamp r)) } :=
  if_pos (debug_rank_le r.level)

/-- Where `o` says where records go, the logger brings them there. -/
theorem note_of_outlets (hs : s.logger = o.logger) (r : Record) :
    s.note r =
      { s with
        host.disk := o.filed s.host.stamp s.host.disk r
        shown := s.shown ++ o.shown r } := by
  obtain ⟨host, logger, opened, shown⟩ := s
  obtain rfl : logger = o.logger := hs
  -- the handler of a file takes all that the logger takes, that of the terminal may not
  have htakes : o.logger.takes r = o.keeps r := rfl
  unfold note Outlets.filed Outlets.shown
  rw [htakes]
  cases hkeeps : o.keeps r with
  | false => cases o.file <;> simp
  | true =>
      rw [if_pos rfl]
      cases hfile : o.file with
      | none => simp [Outlets.logger, hfile, deliver_terminal]
      | some place => simp [Outlets.logger, hfile, deliver_terminal, deliver_file]

theorem logger_note (hs : s.logger = o.logger) : (s.note r).logger = o.logger := by
  rw [note_of_outlets hs]
  exact hs

theorem opened_note (hs : s.logger = o.logger) : (s.note r).opened = s.opened := by
  rw [note_of_outlets hs]

theorem shown_note (hs : s.logger = o.logger) : (s.note r).shown = s.shown ++ o.shown r := by
  rw [note_of_outlets hs]

theorem host_note (hs : s.logger = o.logger) :
    (s.note r).host = { s.host with disk := o.filed s.host.stamp s.host.disk r } := by
  rw [note_of_outlets hs]

/-! ## A set-up -/

/-- The session in which the terminal alone gets records. -/
def bare (s : Session) (c : SetUp) : Session :=
  { s with
    logger := Outlets.logger { threshold := c.level, terminal := c.terminalLevel }
    opened := [] }

theorem host_bare (s : Session) (c : SetUp) : (s.bare c).host = s.host := rfl

theorem setUp_eq (hs : s.HoldsItsFiles) (c : SetUp) :
    s.setUp c =
      match c.path? with
      | none => (s.bare c, none)
      | some path => (s.bare c).attachFile path := by
  unfold setUp
  rw [discardAll_eq hs]
  rfl

theorem setUp_of_path? (hs : s.HoldsItsFiles) {path : String} (hpath : c.path? = some path) :
    s.setUp c = (s.bare c).attachFile path := by
  rw [setUp_eq hs, hpath]

/-- After a set-up that comes to its end the logger brings records where `Outlets` says. -/
theorem setUp_of_outlets (hs : s.HoldsItsFiles) {disk : Disk} {outlets : Logged Outlets}
    (hsetUp : Outlets.setUp s.host c.verbose c.path = .ok (disk, outlets)) :
    s.setUp c =
      ({ s with
         host.disk := disk
         logger := outlets.value.logger
         opened := outlets.value.file.toList
         shown := s.shown ++ String.join (outlets.records.map outlets.value.shown) }, none) := by
  have hcomes := c.comesTo_setUp s.host
  rw [hsetUp] at hcomes
  cases hcomes with
  | unnamed hpath =>
      rw [setUp_eq hs, hpath]
      simp [bare, Logged.value_pure, Logged.records_pure]
  | opened hpath hopen =>
      rw [setUp_of_path? hs hpath, attachFile, host_bare, hopen]
      simp [bare, Logged.value_pure, Logged.records_pure, Outlets.logger, Logger.attach]
  | unopened hpath hopen =>
      rw [setUp_of_path? hs hpath, attachFile, host_bare, hopen]
      dsimp only
      rw [note_of_outlets (s := s.bare c) rfl]
      simp [bare, Outlets.filed]

/-- A fault stops a set-up when the handler of the terminal is put on. -/
theorem setUp_of_fault (hs : s.HoldsItsFiles) {fault : Fault}
    (hsetUp : Outlets.setUp s.host c.verbose c.path = .error fault) :
    s.setUp c = (s.bare c, some fault) := by
  have hcomes := c.comesTo_setUp s.host
  rw [hsetUp] at hcomes
  cases hcomes with
  | stopped hpath hopen hother =>
      rw [setUp_of_path? hs hpath, attachFile, host_bare, hopen]
      cases fault with
      | file f => exact absurd rfl (hother f)
      | _ => rfl

/-- The logger after a set-up, the machine, and the files that are held open. -/
theorem setUp_fst (hs : s.HoldsItsFiles) (c : SetUp) :
    (s.setUp c).1.logger = (c.outlets s.host).logger ∧
      (s.setUp c).1.host =
        { s.host with
          disk := (c.file? s.host).elim s.host.disk (s.host.disk.appendAt · []) } ∧
      (s.setUp c).1.opened = (c.file? s.host).toList := by
  cases hsetUp : Outlets.setUp s.host c.verbose c.path with
  | ok outcome =>
      obtain ⟨disk, outlets⟩ := outcome
      obtain ⟨houtlets, rfl⟩ := SetUp.setUp_eq_ok hsetUp
      rw [setUp_of_outlets hs hsetUp, houtlets]
      exact ⟨rfl, rfl, rfl⟩
  | error fault =>
      rw [setUp_of_fault hs hsetUp, SetUp.outlets, SetUp.file?_of_setUp_eq_error hsetUp]
      exact ⟨rfl, rfl, rfl⟩

theorem logger_setUp (hs : s.HoldsItsFiles) (c : SetUp) :
    (s.setUp c).1.logger = (c.outlets s.host).logger :=
  (setUp_fst hs c).1

theorem host_setUp (hs : s.HoldsItsFiles) (c : SetUp) :
    (s.setUp c).1.host =
      { s.host with disk := (c.file? s.host).elim s.host.disk (s.host.disk.appendAt · []) } :=
  (setUp_fst hs c).2.1

theorem opened_setUp (hs : s.HoldsItsFiles) (c : SetUp) :
    (s.setUp c).1.opened = (c.file? s.host).toList :=
  (setUp_fst hs c).2.2

/-- A set-up changes no file, but the one that it opens is there from then on. -/
theorem entry?_setUp (hs : s.HoldsItsFiles) (c : SetUp) (q : Place) :
    (s.setUp c).1.host.disk.tree.entry? q =
      if c.file? s.host = some q then some (.file (s.host.disk.bytesAt q))
      else s.host.disk.tree.entry? q := by
  rw [host_setUp hs]
  cases hfile : c.file? s.host with
  | none => rw [if_neg nofun, Option.elim_none]
  | some place =>
      have hentry := Disk.entry?_appendAt (d := s.host.disk)
        (SetUp.isFilePlace_of_file? hfile).ne_nil [] q
      rw [List.append_nil] at hentry
      refine hentry.trans ?_
      by_cases hq : q = place
      · rw [if_pos hq, if_pos (congrArg some hq.symm), hq]
      · rw [if_neg hq, if_neg fun hsome => hq (Option.some.inj hsome).symm]

/-! ## Records after a set-up -/

/-- What records take up in a file: those of the program, each once. -/
def filedBytes (stamp : String) (records : List Record) : List UInt8 :=
  (records.filter fun r => Outlets.isOwn r.source).flatMap fun r =>
    Text.Utf8.encode (Outlets.fileText stamp r)

theorem filedBytes_cons (stamp : String) (r : Record) (records : List Record) :
    filedBytes stamp (r :: records) =
      (if Outlets.isOwn r.source then Text.Utf8.encode (Outlets.fileText stamp r) else []) ++
        filedBytes stamp records := by
  cases hown : Outlets.isOwn r.source <;> simp [filedBytes, hown]

theorem logger_foldl_note (hs : s.logger = o.logger) (records : List Record) :
    (records.foldl note s).logger = o.logger := by
  induction records generalizing s with
  | nil => exact hs
  | cons r records ih =>
      rw [List.foldl_cons]
      exact ih (logger_note hs)

theorem shown_foldl_note (hs : s.logger = o.logger) (records : List Record) :
    (records.foldl note s).shown = s.shown ++ String.join (records.map o.shown) := by
  induction records generalizing s with
  | nil => simp
  | cons r records ih =>
      rw [List.foldl_cons, ih (logger_note hs), shown_note hs, String.append_assoc, List.map_cons,
        String.join_cons]

/-- If no file is open, records leave the machine as it is. -/
theorem host_foldl_note (hs : s.logger = o.logger) (hfile : o.file = none)
    (records : List Record) : (records.foldl note s).host = s.host := by
  induction records generalizing s with
  | nil => rfl
  | cons r records ih =>
      rw [List.foldl_cons, ih (logger_note hs), host_note hs, Outlets.filed, hfile]

/-- If a file is open, records go to its end, and nothing else changes. -/
theorem entry?_foldl_note (hs : s.logger = o.logger) (hfile : o.file = some place)
    (hlevel : o.threshold = .debug) {old : List UInt8}
    (hold : s.host.disk.tree.entry? place = some (.file old)) (records : List Record) (q : Place) :
    (records.foldl note s).host.disk.tree.entry? q =
      if q = place then some (.file (old ++ filedBytes s.host.stamp records))
      else s.host.disk.tree.entry? q := by
  induction records generalizing s old with
  | nil =>
      rw [show filedBytes s.host.stamp [] = [] from rfl, List.append_nil, ← hold]
      split
      · next hq => rw [hq]; rfl
      · rfl
  | cons r records ih =>
      have hkeeps : o.keeps r = Outlets.isOwn r.source := by
        rw [Outlets.keeps, hlevel, decide_eq_true (debug_rank_le _), Bool.and_true]
      have hstamp : (s.note r).host.stamp = s.host.stamp := by rw [host_note hs]
      have hdisk : (s.note r).host.disk =
          if Outlets.isOwn r.source then
            s.host.disk.appendAt place (Text.Utf8.encode (Outlets.fileText s.host.stamp r))
          else s.host.disk := by
        rw [host_note hs, Outlets.filed, hfile, ← hkeeps]
      rw [List.foldl_cons, filedBytes_cons]
      split at hdisk
      · next hown =>
          have hentry := Disk.entry?_appendAt_of_file hold
            (Text.Utf8.encode (Outlets.fileText s.host.stamp r))
          rw [← hdisk] at hentry
          rw [ih (logger_note hs) ((hentry place).trans (if_pos rfl)), hentry, hstamp,
            if_pos hown, List.append_assoc]
          split <;> rfl
      · next hown =>
          -- a record of somebody else
          rw [ih (logger_note hs) (hdisk ▸ hold), hdisk, hstamp, if_neg hown, List.nil_append]

/-- After a set-up that opened a file, records of the program go to its end, each once; nothing
else changes. -/
theorem entry?_noted_setUp (hs : s.HoldsItsFiles) (c : SetUp) (records : List Record) (q : Place) :
    (records.foldl note (s.setUp c).1).host.disk.tree.entry? q =
      if c.file? s.host = some q then
        some (.file ((s.setUp c).1.host.disk.bytesAt q ++
          filedBytes (s.setUp c).1.host.stamp records))
      else (s.setUp c).1.host.disk.tree.entry? q := by
  have hlogger := logger_setUp hs c
  cases hfile : c.file? s.host with
  | none => rw [host_foldl_note hlogger hfile, if_neg nofun]
  | some place =>
      obtain ⟨path, -, hpath, hne, -⟩ := SetUp.file?_eq_some_iff.1 hfile
      have hlevel : c.level = .debug :=
        SetUp.level_of_path?_eq_some (SetUp.path?_eq_some_iff.2 ⟨hpath, hne⟩)
      have hthere := (entry?_setUp hs c place).trans (if_pos hfile)
      have hbytes : (s.setUp c).1.host.disk.bytesAt place = s.host.disk.bytesAt place := by
        rw [Disk.bytesAt, hthere]
      rw [entry?_foldl_note hlogger hfile hlevel hthere]
      by_cases hq : q = place
      · rw [if_pos hq, if_pos (congrArg some hq.symm), hq, hbytes]
      · rw [if_neg hq, if_neg fun hsome => hq (Option.some.inj hsome).symm]

end Session

end TabCompletion
