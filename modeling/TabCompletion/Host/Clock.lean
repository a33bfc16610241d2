import TabCompletion.Document.Basic

/-!
# The time of day

Seconds since the start of 1970 as a day and a time, in universal time.
-/

namespace TabCompletion

/-- The day that is so many days after the first of January 1970. -/
def Date.ofDays (days : Nat) : Date :=
  let shifted := days + 719468
  let era := shifted / 146097
  let dayOfEra := shifted % 146097
  let yearOfEra := (dayOfEra - dayOfEra / 1460 + dayOfEra / 36524 - dayOfEra / 146096) / 365
  let dayOfYear := dayOfEra - (365 * yearOfEra + yearOfEra / 4 - yearOfEra / 100)
  let monthFromMarch := (5 * dayOfYear + 2) / 153
  let month := if monthFromMarch < 10 then monthFromMarch + 3 else monthFromMarch - 9
  { year := era * 400 + yearOfEra + (if month ≤ 2 then 1 else 0)
    month
    day := dayOfYear - (153 * monthFromMarch + 2) / 5 + 1 }

example : Date.ofDays 0 = ⟨1970, 1, 1⟩ := by decide

example : Date.ofDays 19782 = ⟨2024, 2, 29⟩ := by decide

/-- The time as `YYYYMMDD-HHMMSS`. -/
def stampOf (seconds : Nat) : String :=
  let d := Date.ofDays (seconds / 86400)
  let time := seconds % 86400
  padded 4 d.year ++ padded 2 d.month ++ padded 2 d.day ++ "-" ++ padded 2 (time / 3600) ++
    padded 2 (time / 60 % 60) ++ padded 2 (time % 60)

end TabCompletion
