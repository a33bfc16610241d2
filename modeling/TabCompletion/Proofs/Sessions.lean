import TabCompletion.Proofs.Logger

/-!
# Sessions

A process may set up its logger as often as it likes and note records in between. After a set-up
nothing is left of what was before (`Session.isSetUp_run`): the logger is as if it had been set up
for the first time, no file is held open but the one that the set-up opened, and records go to
that file once and to no other. What the process did before does not even decide which file can be
opened, since it only appended to files.
-/

namespace TabCompletion

namespace Session

variable {s : Session} {c : SetUp} {h : Host} {o : Outlets} {place : Place} {r : Record}

/-! ## What a set-up leaves behind -/

/-- What a set-up on a machine leaves behind. -/
structure IsSetUp (c : SetUp) (h : Host) (s : Session) : Prop where
  /-- The logger is as it would be in a process that has just started. -/
  logger_eq : s.logger = ((start h).setUp c).1.logger
  /-- The first handler is the terminal's, and the second that of the file, if there is one. -/
  handlers_eq : s.logger.handlers =
    ⟨.terminal, if c.verbose then .debug else .warning⟩ ::
      (c.file? h).toList.map fun place => ⟨.file place, .debug⟩
  /-- There is one exactly if the path names a file that can be opened. -/
  file?_eq_some_iff : ∀ place, c.file? h = some place ↔
    ∃ path disk, c.path = some path ∧ path ≠ "" ∧ Outlets.openFile h path = .ok (disk, place)
  level_eq : s.logger.level =
    some (if c.verbose || c.path?.isSome then .debug else .warning)
  propagates_eq : s.logger.propagates = false
  /-- No other file is held open. -/
  opened_eq : s.opened = (c.file? h).toList
  /-- No other file was changed. -/
  entry?_eq : ∀ q, c.file? h ≠ some q →
    s.host.disk.tree.entry? q = h.disk.tree.entry? q
  /-- Records leave the logger as it is. -/
  logger_noted : ∀ records : List Record, (records.foldl note s).logger = s.logger
  /-- Records of the program go to the end of the file, each once, and to no other file. -/
  entry?_noted : ∀ (records : List Record) q,
    (records.foldl note s).host.disk.tree.entry? q =
      if c.file? h = some q then
        some (.file (s.host.disk.bytesAt q ++ filedBytes s.host.stamp records))
      else s.host.disk.tree.entry? q
  /-- The terminal shows a record once at most. -/
  shown_noted : ∀ records : List Record,
    (records.foldl note s).shown = s.shown ++ String.join (records.map (c.outlets h).shown)

theorem isSetUp_setUp (hs : s.HoldsItsFiles) (c : SetUp) : IsSetUp c s.host (s.setUp c).1 where
  logger_eq := (logger_setUp hs c).trans (logger_setUp (s := start s.host) rfl c).symm
  handlers_eq := by
    rw [logger_setUp hs, Outlets.logger, SetUp.outlets]
    cases c.file? s.host <;> rfl
  file?_eq_some_iff place := SetUp.file?_eq_some_iff
  level_eq := by
    rw [logger_setUp hs]
    rfl
  propagates_eq := by
    rw [logger_setUp hs]
    rfl
  opened_eq := opened_setUp hs c
  entry?_eq q hq := (entry?_setUp hs c q).trans (if_neg hq)
  logger_noted records :=
    (logger_foldl_note (logger_setUp hs c) records).trans (logger_setUp hs c).symm
  entry?_noted := entry?_noted_setUp hs c
  shown_noted := shown_foldl_note (logger_setUp hs c)

/-! ## Runs -/

/-- What a process does with its logger. -/
inductive Event where
  /-- It sets it up, on the machine as others have left it if they changed it. -/
  | setUp (found : Option Host) (c : SetUp)
  /-- It notes a record. -/
  | note (r : Record)

/-- Nobody else has changed the machine. -/
def Event.isOwn : Event → Bool
  | .setUp (some _) _ => false
  | _ => true

/-- The session after an event; a fault that stops a set-up does not end it. -/
def take (s : Session) : Event → Session
  | .setUp found c => (setUp { s with host := found.getD s.host } c).1
  | .note r => s.note r

/-- The session after events, from that of a process that has just started. -/
def run (h : Host) (events : List Event) : Session := events.foldl take (start h)

theorem run_concat (h : Host) (events : List Event) (e : Event) :
    run h (events ++ [e]) = (run h events).take e :=
  List.foldl_concat ..

/-- Records go where `o` says, or nowhere if the logger was not set up yet. -/
structure SendsTo (s : Session) (o : Option Outlets) : Prop where
  logger_eq : s.logger = o.elim {} Outlets.logger
  opened_eq : s.opened = (o.bind Outlets.file).toList

theorem SendsTo.holdsItsFiles {o : Option Outlets} (hs : s.SendsTo o) : s.HoldsItsFiles := by
  rw [HoldsItsFiles, hs.opened_eq, hs.logger_eq]
  cases o with
  | none => rfl
  | some o =>
      show o.file.toList = o.logger.handlers.filterMap Handler.place?
      rw [Outlets.logger]
      cases o.file <;> rfl

theorem note_of_fresh (hs : s.logger = {}) (r : Record) : s.note r = s := by
  rw [note, hs]
  exact ite_self s

theorem SendsTo.note {o : Option Outlets} (hs : s.SendsTo o) (r : Record) :
    (s.note r).SendsTo o := by
  cases o with
  | none => rwa [note_of_fresh hs.logger_eq]
  | some o => exact ⟨logger_note hs.logger_eq, (opened_note hs.logger_eq).trans hs.opened_eq⟩

theorem sendsTo_setUp (hs : s.HoldsItsFiles) (c : SetUp) :
    (s.setUp c).1.SendsTo (c.outlets s.host) :=
  ⟨logger_setUp hs c, opened_setUp hs c⟩

/-- Each event leaves a session whose records go somewhere known. -/
theorem exists_sendsTo_take {o : Option Outlets} (hs : s.SendsTo o) (e : Event) :
    ∃ o, (s.take e).SendsTo o := by
  cases e with
  | note r => exact ⟨o, hs.note r⟩
  | setUp found c =>
      have hfound : SendsTo { s with host := found.getD s.host } o := ⟨hs.1, hs.2⟩
      exact ⟨_, sendsTo_setUp hfound.holdsItsFiles c⟩

theorem exists_sendsTo_foldl_take {o : Option Outlets} (hs : s.SendsTo o) (events : List Event) :
    ∃ o, (events.foldl take s).SendsTo o := by
  induction events generalizing s o with
  | nil => exact ⟨o, hs⟩
  | cons e events ih =>
      obtain ⟨o', hs'⟩ := exists_sendsTo_take hs e
      exact ih hs'

theorem exists_sendsTo_run (h : Host) (events : List Event) : ∃ o, (run h events).SendsTo o :=
  exists_sendsTo_foldl_take (o := none) ⟨rfl, rfl⟩ events

/-! ## Runs of a process alone -/

/-- The machine of the session is `h`, with files that were appended to. -/
structure HasAppended (s : Session) (h : Host) : Prop where
  environment_eq : s.host.environment = h.environment
  opensAlike : h.disk.OpensAlike s.host.disk
  files : ∀ place ∈ s.opened, s.host.disk.IsFilePlace place

theorem opensAlike_filed {d : Disk} (hfile : ∀ place, o.file = some place → d.IsFilePlace place)
    (stamp : String) (r : Record) : d.OpensAlike (o.filed stamp d r) := by
  unfold Outlets.filed
  split
  · next place hplace =>
      split
      · exact Disk.opensAlike_appendAt (hfile place hplace) _
      · exact .refl d
  · exact .refl d

theorem isFilePlace_filed {d : Disk} (hfile : o.file = some place) (hplace : d.IsFilePlace place)
    (stamp : String) (r : Record) : (o.filed stamp d r).IsFilePlace place := by
  rw [Outlets.filed, hfile]
  dsimp only
  split
  · exact hplace.appendAt hplace.ne_nil _
  · exact hplace

theorem HasAppended.note {o : Option Outlets} (hh : s.HasAppended h) (hs : s.SendsTo o)
    (r : Record) : (s.note r).HasAppended h := by
  cases o with
  | none => rwa [note_of_fresh hs.logger_eq]
  | some o =>
      have hopened : s.opened = o.file.toList := hs.opened_eq
      have hfile : ∀ place, o.file = some place → s.host.disk.IsFilePlace place := by
        intro place hplace
        exact hh.files place (by rw [hopened, hplace]; exact List.mem_cons_self)
      have hhost := host_note (r := r) hs.logger_eq
      constructor
      · rw [hhost]
        exact hh.environment_eq
      · rw [hhost]
        exact hh.opensAlike.trans (opensAlike_filed hfile _ r)
      · intro place hplace
        rw [opened_note hs.logger_eq, hopened, Option.mem_toList] at hplace
        rw [hhost]
        exact isFilePlace_filed hplace (hfile place hplace) _ r

theorem HasAppended.setUp (hh : s.HasAppended h) (hs : s.HoldsItsFiles) (c : SetUp) :
    (s.setUp c).1.HasAppended h where
  environment_eq := by
    rw [host_setUp hs]
    exact hh.environment_eq
  opensAlike := by
    rw [host_setUp hs]
    cases hfile : c.file? s.host with
    | none => exact hh.opensAlike
    | some place =>
        exact hh.opensAlike.trans
          (Disk.opensAlike_appendAt (SetUp.isFilePlace_of_file? hfile) [])
  files place hplace := by
    rw [opened_setUp hs, Option.mem_toList] at hplace
    have hfree := SetUp.isFilePlace_of_file? hplace
    rw [host_setUp hs, hplace]
    exact hfree.appendAt hfree.ne_nil []

theorem HasAppended.take {o : Option Outlets} (hh : s.HasAppended h) (hs : s.SendsTo o)
    {e : Event} (he : e.isOwn = true) : (s.take e).HasAppended h := by
  cases e with
  | note r => exact hh.note hs r
  | setUp found c =>
      cases found with
      | none => exact hh.setUp hs.holdsItsFiles c
      | some other => cases he

theorem HasAppended.foldl_take {o : Option Outlets} (hh : s.HasAppended h) (hs : s.SendsTo o)
    {events : List Event} (hevents : ∀ e ∈ events, e.isOwn = true) :
    (events.foldl Session.take s).HasAppended h := by
  induction events generalizing s o with
  | nil => exact hh
  | cons e events ih =>
      obtain ⟨he, hrest⟩ := List.forall_mem_cons.1 hevents
      obtain ⟨o', hs'⟩ := exists_sendsTo_take hs e
      exact ih (hh.take hs he) hs' hrest

theorem hasAppended_run (h : Host) {events : List Event}
    (hevents : ∀ e ∈ events, e.isOwn = true) : (run h events).HasAppended h :=
  HasAppended.foldl_take (s := start h) (o := none) ⟨rfl, .refl _, nofun⟩ ⟨rfl, rfl⟩ hevents

/-! ## What is left of a run -/

/-- Whatever a process has done with its logger, a set-up leaves of it what it leaves of a process
that has just started, on the machine as the set-up finds it; and if nobody else has changed the
machine, on the machine as the process found it. -/
theorem isSetUp_run (h : Host) (before : List Event) (found : Option Host) (c : SetUp) :
    IsSetUp c (found.getD (run h before).host) (run h (before ++ [.setUp found c])) ∧
      ((∀ e ∈ before ++ [.setUp found c], e.isOwn = true) →
        (run h (before ++ [.setUp found c])).logger = ((start h).setUp c).1.logger) := by
  obtain ⟨o, hs⟩ := exists_sendsTo_run h before
  have hfound : SendsTo { run h before with host := found.getD (run h before).host } o :=
    ⟨hs.logger_eq, hs.opened_eq⟩
  rw [run_concat]
  refine ⟨isSetUp_setUp hfound.holdsItsFiles c, fun hown => ?_⟩
  obtain ⟨hbefore, hlast⟩ := List.forall_mem_append.1 hown
  have hh := hasAppended_run h hbefore
  cases found with
  | some other => cases hlast _ List.mem_cons_self
  | none =>
      have hfile := SetUp.file?_congr hh.environment_eq hh.opensAlike c
      show ((run h before).setUp c).1.logger = _
      rw [logger_setUp hs.holdsItsFiles, logger_setUp (s := start h) rfl, SetUp.outlets,
        SetUp.outlets, hfile]
      rfl

/-! ## A run on a machine -/

/-- A machine with a home directory in which there is a log. -/
def journalHost : Host where
  environment :=
    { values := [("HOME", "/home")], users := [], ownHome := none, platform := "Linux" }
  disk := { tree := ⟨[(["home"], .directory), (["home", "old.log"], .file [])]⟩, cwd := ["home"] }

/-- A file is opened and written to, and another one cannot be opened. -/
def journalEvents : List Event :=
  [.setUp none { verbose := true, path := some "old.log" },
    .note { source := "peercomp", level := .error, message := "no room" },
    .setUp none { path := some "missing/new.log" }]

/-- A file is named that is not there yet. -/
def journalSetUp : SetUp := { path := some "~/new.log" }

theorem file?_journalHost : journalSetUp.file? journalHost = some ["home", "new.log"] := by
  have hreaches : journalHost.disk.Reaches "/home/new.log" (["home"] ++ ["new.log"]) := by decide
  have hplace := hreaches.locate_absent (by decide) true
  refine SetUp.file?_eq_some_iff_openPlace.2 ⟨"~/new.log", "/home/new.log", rfl, by decide,
    by decide, ?_⟩
  have habsolute : (journalHost.disk.absolute "/home/new.log").text = "/home/new.log" := by decide
  rw [habsolute]
  exact Disk.openPlace_eq_ok_iff.2
    ⟨Disk.grants_of_refusals_eq_nil rfl _ _, Disk.filePlace_eq_ok_iff.2 ⟨_, hplace, rfl⟩⟩

theorem isSetUp_run_journalHost :
    (∀ e ∈ journalEvents ++ [.setUp none journalSetUp], e.isOwn = true) ∧
      (run journalHost (journalEvents ++ [.setUp none journalSetUp])).logger =
        { handlers := [⟨.terminal, .warning⟩, ⟨.file ["home", "new.log"], .debug⟩]
          level := some .debug
          propagates := false } := by
  have hown : ∀ e ∈ journalEvents ++ [.setUp none journalSetUp], e.isOwn = true := by decide
  refine ⟨hown, ((isSetUp_run journalHost journalEvents none journalSetUp).2 hown).trans ?_⟩
  have hfile : journalSetUp.file? (start journalHost).host = some ["home", "new.log"] :=
    file?_journalHost
  rw [logger_setUp (s := start journalHost) rfl, SetUp.outlets, hfile]
  rfl

end Session

end TabCompletion
