/-! # Numerals

Unsigned decimal numerals with an upper limit. A numeral may carry a plus sign; nothing else but
digits is allowed. The digits are read from the left, so of two faults the one further to the left
is reported. -/
namespace Accord.Text

/-- Why a text is not a numeral. -/
inductive NumeralError where
  | empty
  | invalidDigit
  | tooLarge
  deriving DecidableEq, Repr

def NumeralError.message : NumeralError → String
  | .empty => "cannot parse integer from empty string"
  | .invalidDigit => "invalid digit found in string"
  | .tooLarge => "number too large to fit in target type"

/-- The value of a decimal digit. -/
def digit? (c : Char) : Option Nat :=
  if c.isDigit then some (c.toNat - 48) else none

/-- Continues a numeral whose digits so far are worth `acc`. -/
def readDigits (limit : Nat) : Nat → List Char → Except NumeralError Nat
  | acc, [] => .ok acc
  | acc, c :: cs =>
    match digit? c with
    | none => .error .invalidDigit
    | some d =>
      if 10 * acc + d < limit then readDigits limit (10 * acc + d) cs else .error .tooLarge

/-- Reads a numeral worth less than `limit`. -/
def readNumeral (limit : Nat) : List Char → Except NumeralError Nat
  | [] => .error .empty
  | ['+'] => .error .invalidDigit
  | '+' :: cs => readDigits limit 0 cs
  | cs => readDigits limit 0 cs

/-- The value of a digit, up to the ones of hexadecimal numerals. -/
def hexDigit? (c : Char) : Option Nat :=
  if c.isDigit then some (c.toNat - 48)
  else if 'a' ≤ c && c ≤ 'f' then some (c.toNat - 87)
  else if 'A' ≤ c && c ≤ 'F' then some (c.toNat - 55)
  else none

/-- The number that a row of digits spells in a base of at most sixteen. -/
def ofDigits? (base : Nat) (cs : List Char) : Option Nat :=
  cs.foldlM (fun acc c => ((hexDigit? c).filter (· < base)).map (base * acc + ·)) 0

/-- Reads a numeral that shows its base: hexadecimal behind `0x`, octal behind any other zero, and
decimal otherwise. -/
def readBased? : List Char → Option Nat
  | [] => none
  | '0' :: c :: cs =>
    if c = 'x' || c = 'X' then (if cs.isEmpty then none else ofDigits? 16 cs)
    else ofDigits? 8 (c :: cs)
  | cs => ofDigits? 10 cs

/-- The bound of 64-bit unsigned numbers. -/
def wordLimit : Nat := Nat.pow 2 64

/-- The bound of 64-bit signed numbers. -/
def signedLimit : Nat := Nat.pow 2 63

/-- The digits of a number, the most significant first. -/
def digits (n : Nat) : List Char :=
  Nat.toDigits 10 n

/-- The digits of a number, led by zeros to at least `width` places. -/
def digitsPadded (width n : Nat) : List Char :=
  List.replicate (width - (digits n).length) '0' ++ digits n

end Accord.Text
