import Accord.Number.Binary64

/-! # Shortest decimals

The decimal with the fewest digits that lies in the rounding interval of a binary64 magnitude, and
of those the nearest. All of it is exact arithmetic on naturals. -/
namespace Accord.Number

/-- A positive decimal `digits · 10 ^ power`. -/
structure Decimal where
  digits : Nat
  power : Int
  deriving DecidableEq, Repr

/-- The rounding interval of a magnitude in quarters of its step: the value is `4 · significand`,
and the gap below a power of two is half as wide as the one above. -/
structure Interval where
  low : Nat
  value : Nat
  high : Nat
  /-- Whether the two ends still round to the value. -/
  closed : Bool
  /-- The power of two of a quarter step. -/
  power : Int
  deriving DecidableEq, Repr

def Interval.of (code : Nat) : Interval :=
  let m := significand code
  let narrow := m == fractionLimit && 2 * fractionLimit ≤ code
  ⟨4 * m - (if narrow then 1 else 2), 4 * m, 4 * m + 2, m % 2 == 0, exponent code - 2⟩

/-- A quarter step over a grid step of `10 ^ g`, as a ratio. -/
def Interval.gridRatio (i : Interval) (g : Int) : Ratio :=
  let two := (Ratio.ofNat 1).scaleDown (-i.power)
  if 0 ≤ g then ⟨two.num, two.den * Nat.pow 10 g.toNat⟩
  else ⟨two.num * Nat.pow 10 (-g).toNat, two.den⟩

/-- Whether the grid point `d · 10 ^ g` lies in the interval; `r` is the grid ratio of `g`. -/
def Interval.holds (i : Interval) (r : Ratio) (d : Nat) : Bool :=
  let point := d * r.den
  if i.closed then i.low * r.num ≤ point && point ≤ i.high * r.num
  else i.low * r.num < point && point < i.high * r.num

/-- The better of the value's two neighbours on the grid `10 ^ g` that lie in the interval: the
nearer one, and of two equally near ones the even one. -/
def Interval.hit? (i : Interval) (g : Int) : Option Decimal :=
  let r := i.gridRatio g
  let below := i.value * r.num / r.den
  let above := below + 1
  let rest := 2 * (i.value * r.num - below * r.den)
  let upper := r.den < rest || (rest == r.den && below % 2 == 1)
  match i.holds r below, i.holds r above with
  | true, true => some ⟨if upper then above else below, g⟩
  | true, false => some ⟨below, g⟩
  | false, true => some ⟨above, g⟩
  | false, false => none

/-- The decimal exponent of the leading digit of a positive ratio. -/
def Ratio.leading (r : Ratio) : Int :=
  if r.den ≤ r.num then ((Nat.toDigits 10 (r.num / r.den)).length : Int) - 1
  else
    let k := (Nat.toDigits 10 (r.den / r.num)).length
    if r.den ≤ r.num * Nat.pow 10 (k - 1) then -((k : Int) - 1) else -(k : Int)

/-- Searches the grids of one to `n` digits, the coarsest first. -/
def Interval.search (i : Interval) (lead : Int) : Nat → Option Decimal
  | 0 => none
  | n + 1 =>
    match i.search lead n with
    | some d => some d
    | none => i.hit? (lead - n)

/-- Without the zeros at its end. -/
def Decimal.strip (d : Decimal) : Nat → Decimal
  | 0 => d
  | n + 1 => if d.digits % 10 == 0 then Decimal.strip ⟨d.digits / 10, d.power + 1⟩ n else d

/-- The shortest decimal of a positive magnitude; seventeen digits always suffice. -/
def shortest (code : Nat) : Decimal :=
  let lead := (magnitude code).leading
  (((Interval.of code).search lead 17).getD ⟨significand code, exponent code⟩).strip 17

end Accord.Number
