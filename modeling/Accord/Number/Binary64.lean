/-! # Binary64 numbers

Finite IEEE binary64 numbers as exact data, with the rounding of a ratio to the nearest of them.
Magnitudes are counted from zero upwards: `code` is the position of a magnitude among all
representable ones, so a larger code is a larger magnitude and rounding up is adding one. -/
namespace Accord.Number

/-- How many fraction bits a significand has. -/
def fractionBits : Nat := 52

/-- The fractions of a significand lie below this. -/
def fractionLimit : Nat := Nat.pow 2 fractionBits

/-- The code that follows the largest finite magnitude. -/
def infinityCode : Nat := 2047 * fractionLimit

/-- A finite binary64 number; the two zeros differ in their sign. -/
structure Binary64 where
  negative : Bool
  code : Nat
  finite : code < infinityCode
  deriving DecidableEq

/-- A non-negative ratio of naturals. -/
structure Ratio where
  num : Nat
  den : Nat
  deriving DecidableEq, Repr

namespace Ratio

def ofNat (n : Nat) : Ratio := ⟨n, 1⟩

def mul (a b : Ratio) : Ratio := ⟨a.num * b.num, a.den * b.den⟩

def div (a b : Ratio) : Ratio := ⟨a.num * b.den, a.den * b.num⟩

/-- The ratio divided by `2 ^ e`. -/
def scaleDown (r : Ratio) (e : Int) : Ratio :=
  if 0 ≤ e then ⟨r.num, r.den * Nat.pow 2 e.toNat⟩ else ⟨r.num * Nat.pow 2 (-e).toNat, r.den⟩

/-- The nearest natural number; a half goes to the even neighbour. -/
def nearest (r : Ratio) : Nat :=
  let q := r.num / r.den
  let twice := 2 * (r.num % r.den)
  if r.den < twice || (twice == r.den && q % 2 == 1) then q + 1 else q

/-- The power of two in whose steps the significand of a positive ratio counts: the significand has
53 bits, and no step is finer than the subnormal one. -/
def step (r : Ratio) : Int :=
  let estimate := (r.num.log2 : Int) - r.den.log2 - fractionBits
  let scaled := r.scaleDown estimate
  let exact := if scaled.num / scaled.den < fractionLimit then estimate - 1 else estimate
  max exact (-1074)

/-- The code of the nearest magnitude; it reaches `infinityCode` when the ratio is too large. -/
def code (r : Ratio) : Nat :=
  if r.num = 0 then 0
  else (r.step + 1074).toNat * fractionLimit + (r.scaleDown r.step).nearest

end Ratio

/-- The significand of a magnitude, an integer below `2 ^ 53`. -/
def significand (code : Nat) : Nat :=
  if code < fractionLimit then code else fractionLimit + code % fractionLimit

/-- The power of two that a magnitude's significand counts. -/
def exponent (code : Nat) : Int :=
  if code < fractionLimit then -1074 else (code / fractionLimit : Nat) - 1075

/-- The exact value of a magnitude. -/
def magnitude (code : Nat) : Ratio :=
  (Ratio.ofNat (significand code)).scaleDown (-exponent code)

/-- The product of two magnitudes, rounded. -/
def mulCode (a b : Nat) : Nat :=
  ((magnitude a).mul (magnitude b)).code

/-- The quotient of two magnitudes, rounded. -/
def divCode (a b : Nat) : Nat :=
  ((magnitude a).div (magnitude b)).code

namespace Binary64

/-- The number with this sign and magnitude, if the magnitude is finite. -/
def ofCode? (negative : Bool) (code : Nat) : Option Binary64 :=
  if h : code < infinityCode then some ⟨negative, code, h⟩ else none

def isZero (x : Binary64) : Bool :=
  x.code == 0

/-- Equality of values: the two zeros are equal. -/
def same (x y : Binary64) : Bool :=
  x.code == y.code && (x.negative == y.negative || x.isZero)

end Binary64

/-- The code of a power of ten. -/
def tenPower (k : Nat) : Nat :=
  (Ratio.ofNat (Nat.pow 10 k)).code

/-- The largest power of ten that is finite. -/
def topTenPower : Nat := 308

/-- Divides a magnitude by `Nat.pow 10 k`, in steps of at most `10 ^ 308` that each round. -/
def divTenPower (code k : Nat) : Nat :=
  if k ≤ topTenPower then divCode code (tenPower k)
  else if code = 0 then 0
  else divTenPower (divCode code (tenPower topTenPower)) (k - topTenPower)
termination_by k
decreasing_by simp_all [topTenPower]; omega

/-- The number written `digits · 10 ^ e`: the digits are rounded first, and the product with the
rounded power of ten, or the quotient by it, is rounded again. Too large a number is none. -/
def Binary64.ofDecimal? (negative : Bool) (digits : Nat) (e : Int) : Option Binary64 :=
  let whole := (Ratio.ofNat digits).code
  if e < 0 then ofCode? negative (divTenPower whole (-e).toNat)
  else if e ≤ topTenPower then ofCode? negative (mulCode whole (tenPower e.toNat))
  else if digits = 0 then ofCode? negative 0
  else none

end Accord.Number
