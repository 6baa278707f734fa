import Accord.Text.Blank
import Accord.Text.Numeral
import Accord.Time.Instant

/-! # The text of instants

Instants are written in universal time, with as few groups of three fraction digits as are exact.
They are read from any zone and more freely: blanks may stand before each number and each mark, the
parts may be short, and a blank may stand in the place of the letter between date and time. -/
namespace Accord.Instant

open Text (trimStart digit?)

/-! ## Writing -/

/-- Four digits for the years that have four, and a sign for all others. -/
def writeYear (y : Int) : List Char :=
  if 0 ≤ y && y ≤ 9999 then Text.digitsPadded 4 y.natAbs
  else (if y < 0 then '-' else '+') :: Text.digitsPadded 4 y.natAbs

def writeFraction (nano : Nat) : List Char :=
  if nano == 0 then []
  else if nano % 1000000 == 0 then '.' :: Text.digitsPadded 3 (nano / 1000000)
  else if nano % 1000 == 0 then '.' :: Text.digitsPadded 6 (nano / 1000)
  else '.' :: Text.digitsPadded 9 nano

def write (t : Instant) : List Char :=
  let leap := nanosPerSecond ≤ t.nano
  let second := t.second % 60 + (if leap then 1 else 0)
  let nano := if leap then t.nano - nanosPerSecond else t.nano
  writeYear t.year ++ '-' :: Text.digitsPadded 2 t.month ++ '-' :: Text.digitsPadded 2 t.day ++
    'T' :: Text.digitsPadded 2 (t.second / 3600) ++
    ':' :: Text.digitsPadded 2 (t.second / 60 % 60) ++
    ':' :: Text.digitsPadded 2 second ++ writeFraction nano ++ ['Z']

def text (t : Instant) : String :=
  String.ofList t.write

/-! ## Reading -/

/-- The value of up to `width` further digits behind digits worth `acc`, and the rest. -/
def takeDigits : Nat → Nat → List Char → Nat × List Char
  | 0, acc, cs => (acc, cs)
  | _ + 1, acc, [] => (acc, [])
  | width + 1, acc, c :: cs =>
    match digit? c with
    | some d => takeDigits width (10 * acc + d) cs
    | none => (acc, c :: cs)

/-- A number of one to `width` digits. -/
def readNumber? (width : Nat) : List Char → Option (Nat × List Char)
  | [] => none
  | c :: cs => if c.isDigit then some (takeDigits width 0 (c :: cs)) else none

/-- A year: four digits at most, or a sign and any number of digits. -/
def readYear? (cs : List Char) : Option (Int × List Char) :=
  match trimStart cs with
  | '-' :: rest => (readNumber? rest.length rest).map fun (n, r) => (-(n : Int), r)
  | '+' :: rest => (readNumber? rest.length rest).map fun (n, r) => ((n : Int), r)
  | rest => (readNumber? 4 rest).map fun (n, r) => ((n : Int), r)

/-- A part of two digits at most. -/
def readPart? (cs : List Char) : Option (Nat × List Char) :=
  readNumber? 2 (trimStart cs)

/-- A mark, with blanks before it. -/
def readMark? (mark : Char) (cs : List Char) : Option (List Char) :=
  match trimStart cs with
  | c :: rest => if c = mark then some rest else none
  | [] => none

/-- A fraction of a second in nanoseconds; digits behind the ninth are dropped. -/
def readFraction? : List Char → Option (Nat × List Char)
  | '.' :: cs =>
    (readNumber? 9 cs).map fun (n, rest) =>
      (n * Nat.pow 10 (9 - (cs.length - rest.length)), rest.dropWhile Char.isDigit)
  | cs => some (0, cs)

/-- Two digits. -/
def readPair? : List Char → Option (Nat × List Char)
  | a :: b :: rest => do return (10 * (← digit? a) + (← digit? b), rest)
  | _ => none

/-- The distance of a zone from universal time, in seconds: its name for the zone itself, or a sign,
two digits for the hours and two for the minutes, with colons and blanks between them. -/
def readZone? (cs : List Char) : Option (Int × List Char) :=
  let shifted (sign : Int) (rest : List Char) : Option (Int × List Char) := do
    let (hours, rest) ← readPair? rest
    let (minutes, rest) ← readPair? (rest.dropWhile fun c => c == ':' || Text.isBlank c)
    if minutes < 60 && hours < 24 then
      return (sign * (3600 * (hours : Int) + 60 * minutes), rest)
    else none
  match cs with
  | '+' :: rest => shifted 1 rest
  | '-' :: rest => shifted (-1) rest
  | c :: rest =>
    if c == 'Z' || c == 'z' then some (0, rest)
    else if c.toNat == 0x2212 then shifted (-1) rest
    else if (cs.take 3).map Char.toLower == ['u', 't', 'c'] then some (0, cs.drop 3)
    else none
  | [] => none

/-- The local time of the parts, if they are a date and a time. Second 60 is a leap second. -/
def ofParts? (year : Int) (month day hour minute second nano : Nat) : Option Instant :=
  if isDate year month day && hour < 24 && minute < 60 && second ≤ 60 then
    let whole := 3600 * hour + 60 * minute
    if second == 60 then some ⟨year, month, day, whole + 59, nanosPerSecond + nano⟩
    else some ⟨year, month, day, whole + second, nano⟩
  else none

def read? (cs : List Char) : Option Instant := do
  let (year, cs) ← readYear? cs
  let (month, cs) ← readPart? (← readMark? '-' cs)
  let (day, cs) ← readPart? (← readMark? '-' cs)
  let cs ← match cs with
    | c :: rest => if c == 'T' || c == 't' || c == ' ' then some rest else none
    | [] => none
  let (hour, cs) ← readPart? cs
  let (minute, cs) ← readPart? (← readMark? ':' cs)
  let (second, cs) ← readPart? (← readMark? ':' cs)
  let (nano, cs) ← readFraction? cs
  let (east, cs) ← readZone? (trimStart cs)
  if (trimStart cs).isEmpty then
    (← ofParts? year month day hour minute second nano).toUniversal? east
  else none

def ofText? (s : String) : Option Instant :=
  read? s.toList

end Accord.Instant
