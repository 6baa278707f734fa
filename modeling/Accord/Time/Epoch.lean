import Accord.Time.Instant

/-! # Instants of a running clock

Clocks count seconds from the start of 1970. -/
namespace Accord.Instant

/-- The year, month and day that lie `days` days behind the first of March of the year 0. Years are
taken from March on, so that a leap day is the last day of its year, and 400 of them have 146097
days. -/
def dateOfDays (days : Int) : Int × Nat × Nat :=
  let era := days.fdiv 146097
  let day := (days.fmod 146097).toNat
  let year := (day - day / 1460 + day / 36524 - day / 146096) / 365
  let dayOfYear := day - (365 * year + year / 4 - year / 100)
  let shifted := (5 * dayOfYear + 2) / 153
  let month := if shifted < 10 then shifted + 3 else shifted - 9
  let date := dayOfYear - (153 * shifted + 2) / 5 + 1
  (era * 400 + year + (if month ≤ 2 then 1 else 0), month, date)

/-- The instant so many nanoseconds after the start of 1970. -/
def ofEpoch (nanos : Int) : Instant :=
  let seconds := nanos.fdiv nanosPerSecond
  let (year, month, day) := dateOfDays (seconds.fdiv secondsPerDay + 719468)
  ⟨year, month, day, (seconds.fmod secondsPerDay).toNat, (nanos.fmod nanosPerSecond).toNat⟩

end Accord.Instant
