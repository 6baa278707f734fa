import Accord.Text.Numeral

/-! # Spans of time

Spans and the readings of a clock that starts at zero, both in nanoseconds. -/
namespace Accord

/-- A length of time in nanoseconds. -/
structure Span where
  nanos : Nat
  deriving DecidableEq, Repr

/-- A reading of the clock, in nanoseconds since it was started. -/
abbrev Moment := Nat

namespace Span

def ofMicros (n : Nat) : Span := ⟨1000 * n⟩

def ofMillis (n : Nat) : Span := ⟨1000000 * n⟩

def ofSeconds (n : Nat) : Span := ⟨1000000000 * n⟩

/-- The whole milliseconds of a span, as far as a machine word holds them. -/
def millisWord (s : Span) : Nat := s.nanos / 1000000 % Text.wordLimit

/-- `count` units of `10 ^ places` nanoseconds and a rest, as a decimal without zeros at its end. -/
def writeUnits (nanos places : Nat) (unit : List Char) : List Char :=
  let scale := Nat.pow 10 places
  let fraction := (Text.digitsPadded places (nanos % scale)).reverse.dropWhile (· == '0')
  Text.digits (nanos / scale) ++
    (if nanos % scale == 0 then [] else '.' :: fraction.reverse) ++ unit

/-- A span in the largest of seconds, milliseconds, microseconds and nanoseconds that it reaches. -/
def text (s : Span) : String :=
  String.ofList <|
    if 1000000000 ≤ s.nanos then writeUnits s.nanos 9 ['s']
    else if 1000000 ≤ s.nanos then writeUnits s.nanos 6 ['m', 's']
    else if 1000 ≤ s.nanos then writeUnits s.nanos 3 ['µ', 's']
    else writeUnits s.nanos 0 ['n', 's']

end Span

/-- A timer is armed with a deadline or it is not. -/
structure Timer where
  deadline : Option Moment
  deriving DecidableEq, Repr

namespace Timer

def idle : Timer := ⟨none⟩

/-- Armed at `now` to run out after `span`. -/
def arm (now : Moment) (span : Span) : Timer := ⟨some (now + span.nanos)⟩

def armed (t : Timer) : Bool := t.deadline.isSome

/-- Whether the timer has run out. -/
def hasRunOut (t : Timer) (now : Moment) : Bool :=
  match t.deadline with
  | some deadline => deadline ≤ now
  | none => false

end Timer
end Accord
