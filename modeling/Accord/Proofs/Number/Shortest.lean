import Accord.Number.Shortest
import Mathlib

/-! # Shortest decimals tell magnitudes apart

The rounding intervals of the magnitudes lie side by side: one begins where the one before it ends,
and of two neighbours exactly one holds its ends. Seventeen digits always reach into an interval, so
the shortest decimal of a positive magnitude lies in its interval and in no other. -/
namespace Accord.Number

/-! ## Exact values -/

def Ratio.worth (r : Ratio) : ℚ := r.num / r.den

def Decimal.worth (d : Decimal) : ℚ := d.digits * 10 ^ d.power

theorem fractionLimit_eq : fractionLimit = 4503599627370496 := rfl

theorem Ratio.scaleDown_worth (r : Ratio) (e : Int) : (r.scaleDown e).worth = r.worth / 2 ^ e := by
  unfold scaleDown worth
  split
  · rename_i h
    obtain ⟨k, rfl⟩ := Int.eq_ofNat_of_zero_le h
    simp [div_div]
  · rename_i h
    obtain ⟨k, hk⟩ := Int.eq_ofNat_of_zero_le (show 0 ≤ -e by omega)
    obtain rfl : e = -(k : Int) := by omega
    simp [mul_div_right_comm]

theorem Ratio.scaleDown_num_pos {r : Ratio} (h : 0 < r.num) (e : Int) : 0 < (r.scaleDown e).num := by
  unfold Ratio.scaleDown
  split
  · exact h
  · exact Nat.mul_pos h (Nat.pow_pos (by decide))

theorem Ratio.scaleDown_den_pos {r : Ratio} (h : 0 < r.den) (e : Int) : 0 < (r.scaleDown e).den := by
  unfold Ratio.scaleDown
  split
  · exact Nat.mul_pos h (Nat.pow_pos (by decide))
  · exact h

theorem magnitude_worth (code : Nat) :
    (magnitude code).worth = significand code * 2 ^ exponent code := by
  rw [magnitude, Ratio.scaleDown_worth]
  simp [Ratio.worth, Ratio.ofNat]

theorem significand_subnormal {f : Nat} (h : f < fractionLimit) : significand f = f := if_pos h

theorem significand_normal {f : Nat} (h : f < fractionLimit) (q : Nat) :
    significand ((q + 1) * fractionLimit + f) = fractionLimit + f := by
  rw [significand, if_neg (by rw [Nat.add_mul]; omega), Nat.mul_add_mod_of_lt h]

theorem exponent_subnormal {f : Nat} (h : f < fractionLimit) : exponent f = -1074 := if_pos h

theorem exponent_normal {f : Nat} (h : f < fractionLimit) (q : Nat) :
    exponent ((q + 1) * fractionLimit + f) = q - 1074 := by
  have hd : ((q + 1) * fractionLimit + f) / fractionLimit = q + 1 := by
    rw [Nat.mul_comm, Nat.mul_add_div (by decide), Nat.div_eq_of_lt h, Nat.add_zero]
  rw [exponent, if_neg (by rw [Nat.add_mul]; omega), hd]
  push_cast
  ring

/-- A code is a row of binades, and a fraction in the last of them. -/
theorem code_cases (code : Nat) : ∃ q f, f < fractionLimit ∧ code = q * fractionLimit + f :=
  ⟨code / fractionLimit, code % fractionLimit, Nat.mod_lt _ (by decide),
    (Nat.div_add_mod' code fractionLimit).symm⟩

theorem significand_pos {code : Nat} (h : 0 < code) : 0 < significand code := by
  unfold significand
  split
  · exact h
  · exact Nat.add_pos_left (by decide) _

theorem significand_lt (code : Nat) : significand code < 2 * fractionLimit := by
  have := Nat.mod_lt code (show 0 < fractionLimit by decide)
  unfold significand
  split <;> omega

theorem significand_parity (code : Nat) : significand code % 2 = code % 2 := by
  unfold significand
  rw [fractionLimit_eq]
  split <;> omega

/-- The next magnitude is one step further. -/
theorem step_succ (code : Nat) :
    (significand (code + 1) = significand code + 1 ∧ exponent (code + 1) = exponent code ∧
      (significand (code + 1) = fractionLimit → code + 1 < 2 * fractionLimit)) ∨
    (significand code = 2 * fractionLimit - 1 ∧ significand (code + 1) = fractionLimit ∧
      exponent (code + 1) = exponent code + 1 ∧ 2 * fractionLimit ≤ code + 1) := by
  obtain ⟨q, f, hf, rfl⟩ := code_cases code
  have hp : 0 < fractionLimit := by decide
  by_cases hs : f + 1 < fractionLimit
  · -- within a binade
    left
    rw [Nat.add_assoc]
    cases q with
    | zero =>
      simp only [Nat.zero_mul, Nat.zero_add, significand_subnormal hf, significand_subnormal hs,
        exponent_subnormal hf, exponent_subnormal hs]
      exact ⟨trivial, trivial, fun _ => by omega⟩
    | succ q =>
      rw [significand_normal hf, significand_normal hs, exponent_normal hf, exponent_normal hs]
      omega
  · -- the first magnitude of the next binade
    have he : q * fractionLimit + f + 1 = (q + 1) * fractionLimit + 0 := by
      rw [Nat.add_mul]; omega
    rw [he, significand_normal hp, exponent_normal hp]
    cases q with
    | zero =>
      left
      simp only [Nat.zero_mul, Nat.zero_add, significand_subnormal hf, exponent_subnormal hf]
      omega
    | succ q =>
      right
      rw [significand_normal hf, exponent_normal hf]
      have := Nat.zero_le (q * fractionLimit)
      simp only [Nat.add_mul]
      push_cast
      omega

/-! ## Intervals side by side -/

namespace Interval

def lowEnd (i : Interval) : ℚ := i.low * 2 ^ i.power

def highEnd (i : Interval) : ℚ := i.high * 2 ^ i.power

/-- Whether a value rounds to the magnitude of the interval. -/
def Within (i : Interval) (x : ℚ) : Prop :=
  if i.closed then i.lowEnd ≤ x ∧ x ≤ i.highEnd else i.lowEnd < x ∧ x < i.highEnd

theorem Within.bounds {i : Interval} {x : ℚ} (h : i.Within x) : i.lowEnd ≤ x ∧ x ≤ i.highEnd := by
  unfold Within at h
  split at h
  · exact h
  · exact ⟨h.1.le, h.2.le⟩

theorem Within.closed_of_high {i : Interval} (h : i.Within i.highEnd) : i.closed = true := by
  unfold Within at h
  split at h
  · assumption
  · exact absurd h.2 (lt_irrefl _)

theorem Within.closed_of_low {i : Interval} (h : i.Within i.lowEnd) : i.closed = true := by
  unfold Within at h
  split at h
  · assumption
  · exact absurd h.1 (lt_irrefl _)

theorem lowEnd_lt_highEnd (code : Nat) : (of code).lowEnd < (of code).highEnd := by
  have h : ((of code).low : ℚ) < (of code).high := by
    simp only [of]
    norm_cast
    split <;> omega
  exact mul_lt_mul_of_pos_right h (by positivity)

theorem closed_succ (code : Nat) : (of (code + 1)).closed = !(of code).closed := by
  have h := significand_parity code
  have h' := significand_parity (code + 1)
  simp only [of]
  rw [h, h']
  rcases Nat.mod_two_eq_zero_or_one code with hc | hc
  · simp [hc, Nat.add_mod]
  · simp [hc, Nat.add_mod]

/-- An interval begins where the one before it ends. -/
theorem lowEnd_succ (code : Nat) : (of (code + 1)).lowEnd = (of code).highEnd := by
  have hp : 0 < fractionLimit := by decide
  simp only [lowEnd, highEnd, of]
  rcases step_succ code with ⟨hm, he, hn⟩ | ⟨hc, hm, he, hn⟩
  · have hw : ((significand (code + 1) == fractionLimit) &&
        decide (2 * fractionLimit ≤ code + 1)) = false := by
      simpa using hn
    rw [hw, he, hm, if_neg Bool.false_ne_true,
      show 4 * (significand code + 1) - 2 = 4 * significand code + 2 by omega]
  · have hw : ((significand (code + 1) == fractionLimit) &&
        decide (2 * fractionLimit ≤ code + 1)) = true := by
      simpa [hm] using hn
    rw [hw, hm, if_pos rfl, he, hc, show exponent code + 1 - 2 = exponent code - 2 + 1 by ring,
      zpow_add_one₀ (by norm_num), fractionLimit_eq]
    push_cast
    ring

theorem highEnd_le_lowEnd {c d : Nat} (h : c < d) : (of c).highEnd ≤ (of d).lowEnd := by
  induction d, h using Nat.le_induction with
  | base => exact (lowEnd_succ c).ge
  | succ d _ ih => exact ih.trans ((lowEnd_lt_highEnd d).le.trans (lowEnd_succ d).ge)

theorem highEnd_lt_lowEnd {c d : Nat} (h : c + 1 < d) : (of c).highEnd < (of d).lowEnd :=
  calc (of c).highEnd = (of (c + 1)).lowEnd := (lowEnd_succ c).symm
    _ < (of (c + 1)).highEnd := lowEnd_lt_highEnd _
    _ ≤ (of d).lowEnd := highEnd_le_lowEnd h

/-- No value rounds to two magnitudes. -/
theorem Within.not_lt {c d : Nat} {x : ℚ} (hc : (of c).Within x) (hd : (of d).Within x) :
    ¬ c < d := by
  intro h
  have hle := hc.bounds.2
  have hge := hd.bounds.1
  rcases Nat.lt_or_ge (c + 1) d with hs | hs
  · exact absurd (highEnd_lt_lowEnd hs) (hge.trans hle).not_gt
  · -- neighbours share an end, which only one of them holds
    obtain rfl : d = c + 1 := by omega
    rw [lowEnd_succ] at hge
    obtain rfl : x = (of c).highEnd := le_antisymm hle hge
    rw [← lowEnd_succ] at hd
    have := closed_succ c
    rw [hc.closed_of_high, hd.closed_of_low] at this
    cases this

theorem Within.unique {c d : Nat} {x : ℚ} (hc : (of c).Within x) (hd : (of d).Within x) : c = d :=
  Nat.le_antisymm (Nat.le_of_not_lt (hd.not_lt hc)) (Nat.le_of_not_lt (hc.not_lt hd))

/-! ## Grid points -/

theorem gridRatio_num_pos (i : Interval) (g : Int) : 0 < (i.gridRatio g).num := by
  have h := Ratio.scaleDown_num_pos (r := Ratio.ofNat 1) Nat.one_pos (-i.power)
  unfold gridRatio
  split
  · exact h
  · exact Nat.mul_pos h (Nat.pow_pos (by decide))

theorem gridRatio_den_pos (i : Interval) (g : Int) : 0 < (i.gridRatio g).den := by
  have h := Ratio.scaleDown_den_pos (r := Ratio.ofNat 1) Nat.one_pos (-i.power)
  unfold gridRatio
  split
  · exact Nat.mul_pos h (Nat.pow_pos (by decide))
  · exact h

theorem gridRatio_worth (i : Interval) (g : Int) :
    (i.gridRatio g).worth = 2 ^ i.power / 10 ^ g := by
  have h := Ratio.scaleDown_worth (Ratio.ofNat 1) (-i.power)
  have h1 : (Ratio.ofNat 1).worth = 1 := by simp [Ratio.worth, Ratio.ofNat]
  rw [h1, zpow_neg, one_div, inv_inv] at h
  rw [← h]
  unfold gridRatio Ratio.worth
  split
  · rename_i hg
    obtain ⟨k, rfl⟩ := Int.eq_ofNat_of_zero_le hg
    simp [div_div]
  · rename_i hg
    obtain ⟨k, hk⟩ := Int.eq_ofNat_of_zero_le (show 0 ≤ -g by omega)
    obtain rfl : g = -(k : Int) := by omega
    simp [mul_div_right_comm]

/-- Comparisons with grid points are exact. -/
theorem le_point_iff (i : Interval) (g : Int) (a d : Nat) :
    a * (i.gridRatio g).num ≤ d * (i.gridRatio g).den ↔ (a : ℚ) * 2 ^ i.power ≤ d * 10 ^ g := by
  have hd : (0 : ℚ) < (i.gridRatio g).den := by exact_mod_cast i.gridRatio_den_pos g
  rw [← Nat.cast_le (α := ℚ), Nat.cast_mul, Nat.cast_mul, ← div_le_iff₀ hd, mul_div_assoc]
  change a * (i.gridRatio g).worth ≤ d ↔ _
  rw [gridRatio_worth, ← mul_div_assoc, div_le_iff₀ (by positivity)]

theorem point_le_iff (i : Interval) (g : Int) (a d : Nat) :
    d * (i.gridRatio g).den ≤ a * (i.gridRatio g).num ↔ (d : ℚ) * 10 ^ g ≤ a * 2 ^ i.power := by
  have hd : (0 : ℚ) < (i.gridRatio g).den := by exact_mod_cast i.gridRatio_den_pos g
  rw [← Nat.cast_le (α := ℚ), Nat.cast_mul, Nat.cast_mul, ← le_div_iff₀ hd, mul_div_assoc]
  change _ ≤ a * (i.gridRatio g).worth ↔ _
  rw [gridRatio_worth, ← mul_div_assoc, le_div_iff₀ (by positivity)]

theorem holds_iff (i : Interval) (d : Decimal) :
    i.holds (i.gridRatio d.power) d.digits = true ↔ i.Within d.worth := by
  simp only [holds, Within, lowEnd, highEnd, Decimal.worth]
  split
  · simp only [Bool.and_eq_true, decide_eq_true_eq, le_point_iff, point_le_iff]
  · simp only [Bool.and_eq_true, decide_eq_true_eq, ← not_le, le_point_iff, point_le_iff]

/-- A grid point that is found lies in the interval. -/
theorem within_of_hit? {i : Interval} {g : Int} {d : Decimal} (h : i.hit? g = some d) :
    i.Within d.worth := by
  rw [← holds_iff]
  simp only [hit?] at h
  split at h <;> rename_i hb ha
  · cases h
    dsimp only
    split
    · exact ha
    · exact hb
  · cases h; exact hb
  · cases h; exact ha
  · cases h

theorem within_of_search {i : Interval} {lead : Int} {d : Decimal} :
    ∀ {n : Nat}, i.search lead n = some d → i.Within d.worth
  | 0, h => by cases h
  | n + 1, h => by
    rw [search] at h
    split at h
    · rename_i hs
      rw [← Option.some.inj h]
      exact within_of_search hs
    · exact within_of_hit? h

/-- A grid that is finer than the interval has a point in it. -/
theorem hit?_isSome {i : Interval} {g : Int} (hl : i.low < i.value) (hh : i.value < i.high)
    (h : (10 : ℚ) ^ g < (i.high - i.low : Nat) * 2 ^ i.power) : (i.hit? g).isSome = true := by
  have hd := i.gridRatio_den_pos g
  have hn := i.gridRatio_num_pos g
  have hf : (i.gridRatio g).den < (i.high - i.low) * (i.gridRatio g).num := by
    have := (i.le_point_iff g (i.high - i.low) 1).not.mpr (by simpa using h)
    omega
  have hb := Nat.div_mul_le_self (i.value * (i.gridRatio g).num) (i.gridRatio g).den
  have ha := Nat.lt_div_mul_add hd (a := i.value * (i.gridRatio g).num)
  have hln := Nat.mul_lt_mul_of_pos_right hl hn
  have hhn := Nat.mul_lt_mul_of_pos_right hh hn
  rw [Nat.sub_mul] at hf
  simp only [hit?]
  split
  · rfl
  · rfl
  · rfl
  · rename_i hx hy
    exfalso
    simp only [holds, Nat.add_mul, Nat.one_mul] at hx hy
    split at hx
    · simp only [*, if_true, Bool.and_eq_false_iff, decide_eq_false_iff_not] at hx hy
      omega
    · simp only [*, Bool.false_eq_true, if_false, Bool.and_eq_false_iff,
        decide_eq_false_iff_not] at hx hy
      omega

end Interval

/-! ## Seventeen digits suffice -/

theorem Ratio.leading_le {r : Ratio} (hn : 0 < r.num) (hd : 0 < r.den) :
    (10 : ℚ) ^ r.leading ≤ r.worth := by
  have hnq : (0 : ℚ) < r.num := by exact_mod_cast hn
  have hdq : (0 : ℚ) < r.den := by exact_mod_cast hd
  have len_pos (n : Nat) : 0 < (Nat.toDigits 10 n).length := Nat.length_toDigits_pos
  have pow_le (n : Nat) (h : 0 < n) : 10 ^ ((Nat.toDigits 10 n).length - 1) ≤ n := by
    by_contra hlt
    rcases Nat.eq_zero_or_pos ((Nat.toDigits 10 n).length - 1) with hz | hz
    · rw [hz] at hlt; omega
    · have := (Nat.length_toDigits_le_iff (by decide) hz).mpr (Nat.lt_of_not_le hlt)
      have := len_pos n
      omega
  rw [worth, le_div_iff₀ hdq]
  unfold leading
  split
  · rename_i hle
    have hq := pow_le _ (Nat.div_pos hle hd)
    have hm := (Nat.mul_le_mul_right r.den hq).trans (Nat.div_mul_le_self _ _)
    have he : (((Nat.toDigits 10 (r.num / r.den)).length : Int) - 1) =
        ((Nat.toDigits 10 (r.num / r.den)).length - 1 : Nat) := by
      have := len_pos (r.num / r.den); omega
    rw [he, zpow_natCast]
    exact_mod_cast hm
  · simp only
    split
    · rename_i hle
      have he : -(((Nat.toDigits 10 (r.den / r.num)).length : Int) - 1) =
          -((Nat.toDigits 10 (r.den / r.num)).length - 1 : Nat) := by
        have := len_pos (r.den / r.num); omega
      rw [he, zpow_neg, zpow_natCast, inv_mul_le_iff₀ (by positivity), mul_comm]
      exact_mod_cast hle
    · have hlt := (Nat.length_toDigits_le_iff (by decide) (len_pos (r.den / r.num))).mp le_rfl
      have hm : r.den ≤ 10 ^ (Nat.toDigits 10 (r.den / r.num)).length * r.num :=
        ((Nat.div_lt_iff_lt_mul hn).mp hlt).le
      rw [zpow_neg, zpow_natCast, inv_mul_le_iff₀ (by positivity)]
      exact_mod_cast hm

namespace Interval

theorem value_worth (code : Nat) :
    ((of code).value : ℚ) * 2 ^ (of code).power = (magnitude code).worth := by
  rw [magnitude_worth]
  simp only [of]
  rw [zpow_sub₀ (by norm_num)]
  push_cast
  ring

theorem low_lt_value {code : Nat} (h : 0 < code) : (of code).low < (of code).value := by
  have hm := significand_pos h
  simp only [of]
  split <;> omega

theorem value_lt_high (code : Nat) : (of code).value < (of code).high := by
  simp only [of]
  omega

/-- A magnitude has less than sixteen digits more than its interval is wide. -/
theorem value_lt_width {code : Nat} (h : 0 < code) :
    (of code).value < ((of code).high - (of code).low) * 10 ^ 16 := by
  have hm := significand_pos h
  have hlt := significand_lt code
  rw [fractionLimit_eq] at hlt
  simp only [of]
  split
  · rename_i hw
    simp only [Bool.and_eq_true, beq_iff_eq, fractionLimit_eq] at hw
    omega
  · omega

theorem low_of_pos {code : Nat} (h : 0 < code) : 0 < (of code).low := by
  have hm := significand_pos h
  simp only [of]
  split <;> omega

theorem search_isSome {code : Nat} (h : 0 < code) :
    ((of code).search (magnitude code).leading 17).isSome = true := by
  set lead := (magnitude code).leading
  have hlead : (10 : ℚ) ^ lead ≤ (of code).value * 2 ^ (of code).power := by
    rw [value_worth]
    exact Ratio.leading_le (Ratio.scaleDown_num_pos (significand_pos h) _)
      (Ratio.scaleDown_den_pos Nat.one_pos _)
  have hw : ((of code).value : ℚ) < ((of code).high - (of code).low : Nat) * 10 ^ 16 := by
    exact_mod_cast value_lt_width h
  have hp : (0 : ℚ) < 2 ^ (of code).power := by positivity
  have hg : (10 : ℚ) ^ (lead - 16) < ((of code).high - (of code).low : Nat) * 2 ^ (of code).power :=
    calc (10 : ℚ) ^ (lead - 16) = 10 ^ lead / 10 ^ 16 := by
          rw [zpow_sub₀ (by norm_num)]; norm_num
      _ ≤ (of code).value * 2 ^ (of code).power / 10 ^ 16 := by gcongr
      _ < ((of code).high - (of code).low : Nat) * 10 ^ 16 * 2 ^ (of code).power / 10 ^ 16 := by
          gcongr
      _ = ((of code).high - (of code).low : Nat) * 2 ^ (of code).power := by ring
  rw [search]
  split
  · rfl
  · exact hit?_isSome (low_lt_value h) (value_lt_high code) hg

end Interval

theorem Decimal.strip_worth {n : Nat} {d : Decimal} : (d.strip n).worth = d.worth := by
  induction n generalizing d with
  | zero => rfl
  | succ n ih =>
    rw [strip]
    split
    · rename_i hz
      have hd : d.digits = 10 * (d.digits / 10) := by
        have : d.digits % 10 = 0 := by simpa using hz
        omega
      rw [ih, worth, worth, zpow_add_one₀ (by norm_num)]
      conv_rhs => rw [hd]
      push_cast
      ring
    · rfl

/-- The shortest decimal rounds to the magnitude it stands for. -/
theorem shortest_within {code : Nat} (h : 0 < code) :
    (Interval.of code).Within (shortest code).worth := by
  obtain ⟨d, hd⟩ := Option.isSome_iff_exists.mp (Interval.search_isSome h)
  rw [shortest, Decimal.strip_worth]
  simp only [hd, Option.getD_some]
  exact Interval.within_of_search hd

theorem shortest_pos {code : Nat} (h : 0 < code) : 0 < (shortest code).digits := by
  have hl : 0 < (Interval.of code).lowEnd :=
    mul_pos (by exact_mod_cast Interval.low_of_pos h) (by positivity)
  have hw := hl.trans_le (shortest_within h).bounds.1
  refine Nat.pos_of_ne_zero fun hz => ?_
  rw [Decimal.worth, hz] at hw
  simp at hw

theorem code_eq_of_worth {c d : Nat} (hc : 0 < c) (hd : 0 < d)
    (h : (shortest c).worth = (shortest d).worth) : c = d :=
  (shortest_within hc).unique (h ▸ shortest_within hd)

end Accord.Number
