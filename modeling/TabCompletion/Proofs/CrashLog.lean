import TabCompletion.Command.Run
import TabCompletion.Proofs.ListedGrammars
import TabCompletion.Proofs.MadeDirectories

/-!
# Crash logs

A run that meets a fault leaves a crash log behind. Nothing else is changed for it: apart from the
log itself all that was there stays as it is, and all that is new are directories on the way to the
log (`Crash.logging_write`). If the log cannot be written, this is as true. When it can is said by
`Crash.write_eq_ok_iff`, and what bars it on a tree by `Crash.Barred`.
-/

namespace TabCompletion

namespace Disk

/-! ## A file that is written -/

/-- On the second disk a path leads to a file of those bytes. No directory stood at its place.
Everything else is as it was. -/
structure Writes (d d' : Disk) (path : String) (place : Place) (bytes : List UInt8) : Prop where
  cwd : d'.cwd = d.cwd
  free : d.tree.entry? place ≠ some .directory
  arrives : d'.locate true path = .ok (.found place (.file bytes))
  kept : ∀ q, q ≠ place → d'.tree.entry? q = d.tree.entry? q

/-- Writing to a path makes a new file, or replaces the bytes of the one to which it leads. -/
theorem write_eq_ok_iff {d d' : Disk} {path : String} {bytes : List UInt8} :
    d.write path bytes = .ok d' ↔
      (∃ directory name, d.locate true path = .ok (.absent directory name) ∧
        d' = d.withTree (d.tree.set (directory ++ [name]) (.file bytes))) ∨
      ∃ place old, d.locate true path = .ok (.found place (.file old)) ∧
        d' = d.refill place bytes := by
  unfold write filePlace
  cases d.locate true path with
  | error fault => simp [Except.map]
  | ok located =>
      cases located with
      | absent directory name => simp [Except.map, eq_comm]
      | found place e => cases e <;> simp [Except.map, refill, eq_comm]

theorem writes_of_write {d d' : Disk} {path : String} {bytes : List UInt8}
    (h : d.write path bytes = .ok d') : ∃ place, d.Writes d' path place bytes := by
  rcases write_eq_ok_iff.1 h with ⟨directory, name, hlocate, rfl⟩ | ⟨place, old, hlocate, rfl⟩
  · -- the file is new
    obtain ⟨hpath, hwalk⟩ := locate_eq_ok_iff.1 hlocate
    have hnone := Tree.entry?_of_absent hwalk
    have hset := Tree.entry?_set_self (t := d.tree) (e := .file bytes)
      (show directory ++ [name] ≠ [] by simp)
    refine ⟨_, rfl, by simp [hnone], locate_eq_ok_iff.2 ⟨hpath, ?_⟩,
      fun q hq => Tree.entry?_set_of_ne hq⟩
    exact (Tree.within_set hnone _).walk_of_absent hwalk hset nofun id
  · -- the bytes of the file are replaced in its place
    have hold := Tree.entry?_of_walk (locate_eq_ok_iff.1 hlocate).2
    have harrives : (d.refill place bytes).locate true path = _ := locate_refill hold true path
    rw [hlocate] at harrives
    refine ⟨place, rfl, by simp [hold], harrives.trans ?_, fun q hq => Tree.entry?_set_of_ne hq⟩
    exact congrArg (fun b => Except.ok (Tree.Located.found _ (.file b))) (if_pos rfl)

/-- Paths that lead to directories lead there after a file is written too. -/
theorem locate_directory_of_write {d d' : Disk} {path other : String} {bytes : List UInt8}
    {place : Place} (h : d.write path bytes = .ok d')
    (hlocate : d.locate true other = .ok (.found place .directory)) :
    d'.locate true other = .ok (.found place .directory) := by
  rcases write_eq_ok_iff.1 h with ⟨directory, name, hfile, rfl⟩ | ⟨file, old, hfile, rfl⟩
  · have hnone := Tree.entry?_of_absent (locate_eq_ok_iff.1 hfile).2
    refine locate_of_within ?_ (Tree.within_set hnone _) hlocate
    rfl
  · have hold := Tree.entry?_of_walk (locate_eq_ok_iff.1 hfile).2
    rw [locate_refill hold, hlocate]
    rfl

end Disk

namespace Crash

/-- The path of a crash log. -/
def logPath (data : Path) (stamp : String) : Path :=
  (data.join "logs").join ("crash-" ++ stamp ++ ".log")

/-- What comes of leaving a crash log behind: directories on the way to it are made, and then it is
written; or there is a fault, and nothing is new but directories on the way. -/
inductive Logging (env : Environment) (stamp : String) (d : Disk) (fault : Fault) :
    Disk × Except Fault Path → Prop
  | written {data : Path} {made disk : Disk} {place : Place} (hdata : env.dataDirectory = .ok data)
      (hway : d.MakesWay made (data.join "logs"))
      (hwrites : made.Writes disk (logPath data stamp).text place
        (Text.Utf8.encode (content fault))) :
      Logging env stamp d fault (disk, .ok (logPath data stamp))
  | stopped {data : Path} {made : Disk} {reason : Fault} (hdata : env.dataDirectory = .ok data)
      (hway : d.MakesWay made (data.join "logs")) : Logging env stamp d fault (made, .error reason)
  | lost {reason : Fault} (hdata : env.dataDirectory = .error reason) :
      Logging env stamp d fault (d, .error reason)

/-- A crash log is left behind in three steps, each of which may be the last: the directory of the
data is found, directories on the way to the log are made, and the log is written. -/
theorem write_cases (env : Environment) (stamp : String) (d : Disk) (fault : Fault) :
    (∃ reason, env.dataDirectory = .error reason ∧
      write env stamp d fault = (d, .error reason)) ∨
    ∃ data made, env.dataDirectory = .ok data ∧ d.MakesWay made (data.join "logs") ∧
      ((∃ reason, write env stamp d fault = (made, .error reason)) ∨
        ∃ disk, made.write (logPath data stamp).text (Text.Utf8.encode (content fault)) = .ok disk ∧
          write env stamp d fault = (disk, .ok (logPath data stamp))) := by
  unfold write
  cases hdata : env.dataDirectory with
  | error reason => exact .inl ⟨reason, rfl, rfl⟩
  | ok data =>
      -- the directory of the data is on the way to that of the logs
      have hlogs : data.LiesOn (data.join "logs") := by
        rw [Path.join_of_isName data (by decide)]
        exact ⟨rfl, List.prefix_append _ _⟩
      have hdirectory := (Disk.ensures_ensureDirectory d data).way.mono hlogs
      dsimp only
      split
      · next hmade =>
          rw [hmade] at hdirectory
          exact .inr ⟨data, _, rfl, hdirectory, .inl ⟨_, rfl⟩⟩
      · next above hmade =>
          rw [hmade] at hdirectory
          have hway := hdirectory.trans (Disk.ensures_ensureDirectory above (data.join "logs")).way
          split
          · next hlogs =>
              rw [hlogs] at hway
              exact .inr ⟨data, _, rfl, hway, .inl ⟨_, rfl⟩⟩
          · next hlogs =>
              rw [hlogs] at hway
              split
              · next hgranted =>
                  have hwrite := (Disk.granted_eq_ok_iff.1 hgranted).2
                  exact .inr ⟨data, _, rfl, hway, .inr ⟨_, hwrite, rfl⟩⟩
              · exact .inr ⟨data, _, rfl, hway, .inl ⟨_, rfl⟩⟩

/-- A crash log is left behind exactly if the directory of the data is known and can be made, and
that of the logs in it, and the log can then be written there. -/
theorem write_eq_ok_iff {env : Environment} {stamp : String} {d disk : Disk} {fault : Fault}
    {path : Path} :
    write env stamp d fault = (disk, .ok path) ↔ ∃ data above made,
      env.dataDirectory = .ok data ∧ d.ensureDirectory data = (above, none) ∧
        above.ensureDirectory (data.join "logs") = (made, none) ∧
        made.Grants .write (logPath data stamp).text ∧
        made.write (logPath data stamp).text (Text.Utf8.encode (content fault)) = .ok disk ∧
        path = logPath data stamp := by
  constructor
  · intro h
    unfold write at h
    split at h
    · cases h
    · next data hdata =>
        split at h
        · cases h
        · next above hdirectory =>
            split at h
            · cases h
            · next made hlogs =>
                dsimp only at h
                split at h
                · next hgranted =>
                    cases h
                    obtain ⟨hgrants, hwrite⟩ := Disk.granted_eq_ok_iff.1 hgranted
                    exact ⟨data, above, made, hdata, hdirectory, hlogs, hgrants, hwrite, rfl⟩
                · cases h
  · rintro ⟨data, above, made, hdata, hdirectory, hlogs, hgrants, hwrite, rfl⟩
    have hgranted := Disk.granted_eq_ok_iff.2 ⟨hgrants, hwrite⟩
    unfold write
    simp only [hdata, hdirectory, hlogs]
    unfold logPath at hgranted
    rw [hgranted]
    rfl

/-- What keeps a crash log from being left behind, whatever else is on the disk: the directory of
the data is not known; a file stands on the way to the directory of the logs; a directory stands in
the place of the log; or the system refuses to open it. -/
inductive Barred (env : Environment) (stamp : String) (d : Disk) : Prop
  | unknown {reason : Fault} (hdata : env.dataDirectory = .error reason)
  | file {data q : Path} {place : Place} {bytes : List UInt8} (hdata : env.dataDirectory = .ok data)
      (hq : q.LiesOn (data.join "logs"))
      (hfile : d.locate true q.text = .ok (.found place (.file bytes)))
  | directory {data : Path} {place : Place} (hdata : env.dataDirectory = .ok data)
      (hdirectory : d.locate true (logPath data stamp).text = .ok (.found place .directory))
  | refused {data : Path} {kind : FileFault.Kind} (hdata : env.dataDirectory = .ok data)
      (hrefused : d.refused? .write (logPath data stamp).text = some kind)

theorem exists_error_of_barred {env : Environment} {stamp : String} {d : Disk}
    (h : Barred env stamp d) (fault : Fault) :
    ∃ made reason, write env stamp d fault = (made, .error reason) := by
  cases hwrite : write env stamp d fault with
  | mk disk log =>
      cases log with
      | error reason => exact ⟨disk, reason, rfl⟩
      | ok path =>
          obtain ⟨data, above, made, hdata, hdirectory, hlogs, hgrants, hwritten, rfl⟩ :=
            write_eq_ok_iff.1 hwrite
          have hproper : (data.join "logs").IsProper :=
            (Environment.isProper_programDirectory hdata).join _
          -- what stood there when the run met the fault still stands there
          have hway := (Disk.ensures_ensureDirectory d data).way
          rw [hdirectory] at hway
          have hway' := (Disk.ensures_ensureDirectory above (data.join "logs")).way
          rw [hlogs] at hway'
          cases h with
          | unknown hunknown =>
              rw [hdata] at hunknown
              cases hunknown
          | file hdata' hq hfile =>
              obtain rfl := Except.ok.inj (hdata'.symm.trans hdata)
              have habove := Disk.locate_of_within hway.cwd hway.kept hfile
              exact absurd (congrArg Prod.snd hlogs)
                (Disk.ensureDirectory_ne_none_of_file hproper hq habove)
          | directory hdata' hstands =>
              obtain rfl := Except.ok.inj (hdata'.symm.trans hdata)
              have hmade := Disk.locate_of_within hway'.cwd hway'.kept
                (Disk.locate_of_within hway.cwd hway.kept hstands)
              rcases Disk.write_eq_ok_iff.1 hwritten with ⟨_, _, hlocate, -⟩ | ⟨_, _, hlocate, -⟩
              · rw [hmade] at hlocate
                cases hlocate
              · rw [hmade] at hlocate
                cases hlocate
          | refused hdata' hrefused =>
              obtain rfl := Except.ok.inj (hdata'.symm.trans hdata)
              have hsame := hway'.refusals.trans hway.refusals
              rw [Disk.Grants, Disk.refused?_congr hsame, hrefused] at hgrants
              cases hgrants

theorem logging_write (env : Environment) (stamp : String) (d : Disk) (fault : Fault) :
    Logging env stamp d fault (write env stamp d fault) := by
  rcases write_cases env stamp d fault with ⟨reason, hdata, hwrite⟩ |
    ⟨data, made, hdata, hway, ⟨reason, hwrite⟩ | ⟨disk, hwritten, hwrite⟩⟩
  · rw [hwrite]
    exact .lost hdata
  · rw [hwrite]
    exact .stopped hdata hway
  · rw [hwrite]
    obtain ⟨place, hwrites⟩ := Disk.writes_of_write hwritten
    exact .written hdata hway hwrites

/-- The crash log is at the place: the disk after it was left behind says so. -/
def IsLogAt (env : Environment) (stamp : String) (fault : Fault) (d : Disk) (place : Place) :
    Prop :=
  ∃ data, env.dataDirectory = .ok data ∧
    d.locate true (logPath data stamp).text =
      .ok (.found place (.file (Text.Utf8.encode (content fault))))

/-- Every entry stays as it was, unless the crash log is there. -/
theorem Logging.kept {env : Environment} {stamp : String} {d : Disk} {fault : Fault}
    {outcome : Disk × Except Fault Path} (h : Logging env stamp d fault outcome) {place : Place}
    {e : Entry} (he : d.tree.entry? place = some e) :
    outcome.1.tree.entry? place = some e ∨ IsLogAt env stamp fault outcome.1 place := by
  cases h with
  | lost => exact .inl he
  | stopped hdata hway => exact .inl (hway.kept place e he)
  | @written data made disk target hdata hway hwrites =>
      by_cases hplace : place = target
      · exact .inr ⟨data, hdata, hplace ▸ hwrites.arrives⟩
      · exact .inl ((hwrites.kept place hplace).trans (hway.kept place e he))

/-- All that is new on the second disk is the crash log, of which there is one at most, and
directories on the way to it. Everything else is as it was on the first. -/
structure OnlyLog (env : Environment) (stamp : String) (fault : Fault) (d d' : Disk) : Prop where
  cwd : d'.cwd = d.cwd
  kept : ∀ place e, d.tree.entry? place = some e →
    d'.tree.entry? place = some e ∨ IsLogAt env stamp fault d' place
  added : ∀ place e, d'.tree.entry? place = some e → d.tree.entry? place = none →
    IsLogAt env stamp fault d' place ∨
      e = .directory ∧ ∃ data q, env.dataDirectory = .ok data ∧ Path.LiesOn q (data.join "logs") ∧
        d'.locate true q.text = .ok (.found place .directory)
  one : ∀ place place', IsLogAt env stamp fault d' place → IsLogAt env stamp fault d' place' →
    place = place'

/-- Whatever comes of leaving a crash log behind, nothing but the log and directories on the way to
it is new. -/
theorem onlyLog_write (env : Environment) (stamp : String) (d : Disk) (fault : Fault) :
    OnlyLog env stamp fault d (write env stamp d fault).1 := by
  have hone : ∀ place place', IsLogAt env stamp fault (write env stamp d fault).1 place →
      IsLogAt env stamp fault (write env stamp d fault).1 place' → place = place' := by
    rintro place place' ⟨data, hdata, hlocate⟩ ⟨data', hdata', hlocate'⟩
    rw [hdata, Except.ok.injEq] at hdata'
    rw [← hdata', hlocate] at hlocate'
    cases hlocate'
    rfl
  have hkept : ∀ place e, d.tree.entry? place = some e → _ :=
    fun place e => (logging_write env stamp d fault).kept
  rcases write_cases env stamp d fault with ⟨reason, -, hwrite⟩ |
    ⟨data, made, hdata, hway, ⟨reason, hwrite⟩ | ⟨disk, hwritten, hwrite⟩⟩
  · -- where the data should be kept is not known, and nothing is done
    rw [hwrite] at hone hkept ⊢
    refine ⟨rfl, hkept, fun place e he hnone => ?_, hone⟩
    rw [hnone] at he
    cases he
  · -- all that is new are directories
    rw [hwrite] at hone hkept ⊢
    refine ⟨hway.cwd, hkept, fun place e he hnone => .inr ?_, hone⟩
    obtain ⟨hdirectory, q, hq, hlocate⟩ := hway.made place e he hnone
    exact ⟨hdirectory, data, q, hdata, hq, hlocate⟩
  · rw [hwrite] at hone hkept ⊢
    obtain ⟨target, hwrites⟩ := Disk.writes_of_write hwritten
    refine ⟨hwrites.cwd.trans hway.cwd, hkept, fun place e he hnone => ?_, hone⟩
    by_cases hplace : place = target
    · exact .inl ⟨data, hdata, hplace ▸ hwrites.arrives⟩
    · -- what is not the log was made before it, and paths still lead there
      rw [hwrites.kept place hplace] at he
      obtain ⟨hdirectory, q, hq, hlocate⟩ := hway.made place e he hnone
      exact .inr ⟨hdirectory, data, q, hdata, hq, Disk.locate_directory_of_write hwritten hlocate⟩

end Crash

end TabCompletion
