/-! # Instants

Points in time of the coordinated universal calendar: a date of the Gregorian calendar, extended to
all years, with a second of the day and a fraction. A leap second is the last second of a minute
with a fraction of one second or more. -/
namespace Accord

structure Instant where
  year : Int
  month : Nat
  day : Nat
  /-- Seconds since midnight. -/
  second : Nat
  /-- Nanoseconds within the second; from `10 ^ 9` on they lie in a leap second. -/
  nano : Nat
  deriving DecidableEq, Repr

namespace Instant

/-- The nanoseconds of one second. -/
def nanosPerSecond : Nat := 1000000000

def secondsPerDay : Nat := 86400

def isLeapYear (y : Int) : Bool :=
  y % 4 == 0 && (y % 100 != 0 || y % 400 == 0)

def daysIn (y : Int) (m : Nat) : Nat :=
  if m == 2 then (if isLeapYear y then 29 else 28)
  else if m == 4 || m == 6 || m == 9 || m == 11 then 30
  else 31

/-- The years that instants may lie in. -/
def yearInRange (y : Int) : Bool :=
  -262143 ≤ y && y ≤ 262142

def isDate (y : Int) (m d : Nat) : Bool :=
  yearInRange y && 1 ≤ m && m ≤ 12 && 1 ≤ d && d ≤ daysIn y m

/-- The same time on the next day. -/
def nextDay (t : Instant) : Instant :=
  if t.day < daysIn t.year t.month then { t with day := t.day + 1 }
  else if t.month < 12 then { t with month := t.month + 1, day := 1 }
  else { t with year := t.year + 1, month := 1, day := 1 }

/-- The same time on the day before. -/
def previousDay (t : Instant) : Instant :=
  if 1 < t.day then { t with day := t.day - 1 }
  else if 1 < t.month then { t with month := t.month - 1, day := daysIn t.year (t.month - 1) }
  else { t with year := t.year - 1, month := 12, day := 31 }

/-- Moves a local time that is `east` seconds ahead, less than a day, to universal time. -/
def toUniversal? (t : Instant) (east : Int) : Option Instant :=
  let s := (t.second : Int) - east
  let moved :=
    if s < 0 then { t.previousDay with second := (s + secondsPerDay).toNat }
    else if secondsPerDay ≤ s then { t.nextDay with second := (s - secondsPerDay).toNat }
    else { t with second := s.toNat }
  if yearInRange moved.year then some moved else none

end Instant
end Accord
