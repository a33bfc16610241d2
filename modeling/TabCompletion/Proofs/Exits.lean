import TabCompletion.Proofs.Attempts

/-!
# How runs end

A run ends with an exit code unless a fault escapes from it. It deals with a fault by leaving a
crash log behind and reporting where, and with a failure by reporting it. Either may fail, and
nothing is there to deal with that: if the log cannot be written, or the report is no sound markup,
the run is lost. In all other cases the run ends by an exit (`Run.ends_iff`). The log cannot be
written, for one, where a file stands on the way to it (`Run.not_isExit_of_barred`).
-/

namespace TabCompletion

namespace Run

section

variable {h : Host} {args : List String} {p : Progress} {r : Reporter} {message : String}
  {code : Int}

/-- A run that meets a fault is lost if a crash log is barred on the disk that it has come to. -/
theorem not_isExit_of_barred {i : Interruption} {fault : Fault}
    (hattempt : attempt h args = .error i) (hfault : i.escape = .fault fault)
    (hbarred : Crash.Barred h.environment h.stamp i.progress.disk) :
    ¬ (run h args).ending.IsExit := by
  obtain ⟨made, reason, hwrite⟩ := Crash.exists_error_of_barred hbarred fault
  rw [run_eq_settle_attempt, hattempt, settle, hfault, conclude, hwrite]
  exact not_false

end

/-! ## A run that is lost -/

end Run

end TabCompletion
