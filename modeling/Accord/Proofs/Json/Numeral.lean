import Accord.Json.Reader
import Accord.Json.Writer
import Accord.Proofs.Number.Shortest

/-! # Written numbers are read as numerals

Every number is written as a numeral that the reader accepts: `JsonNumber.numeral` says which one.
Integers have neither point nor exponent, floats have at least one of them, and no two numbers have
one numeral. -/
namespace Accord
open Json (Numeral spanDigits ofDigits readNumeral readUnsigned readTail readExponent isNumeralChar)

/-! ## Digits -/

/-- The values of digits. -/
def Text.digitValues (cs : List Char) : List Nat := cs.map fun c => c.toNat - 48

namespace Text

theorem isDigit_of_mem_digits {n : Nat} {c : Char} (h : c ∈ digits n) : c.isDigit = true :=
  Nat.isDigit_of_mem_toDigits (by decide) (by decide) h

theorem digits_ne_nil (n : Nat) : digits n ≠ [] :=
  List.ne_nil_of_length_pos Nat.length_toDigits_pos

theorem digit?_of_isDigit {c : Char} (h : c.isDigit = true) : digit? c = some (c.toNat - 48) := by
  simp [digit?, h]

theorem digits_of_lt {n : Nat} (h : n < 10) : digits n = [n.digitChar] :=
  Nat.toDigits_of_lt_base h

theorem digits_of_le {n : Nat} (h : 10 ≤ n) : digits n = digits (n / 10) ++ [(n % 10).digitChar] :=
  Nat.toDigits_of_base_le (by decide) h

@[simp] theorem length_digitValues (cs : List Char) : (digitValues cs).length = cs.length := by
  simp [digitValues]

@[simp] theorem digitValues_append (cs ds : List Char) :
    digitValues (cs ++ ds) = digitValues cs ++ digitValues ds := by
  simp [digitValues]

theorem digitValues_digitChar {n : Nat} (h : n < 10) : digitValues [n.digitChar] = [n] := by
  simp [digitValues, Nat.toNat_digitChar_sub_48_of_lt_ten h]

end Text

open Text (digits digitValues)

theorem Json.ofDigits_append (ds es : List Nat) :
    ofDigits (ds ++ es) = es.foldl (fun acc d => 10 * acc + d) (ofDigits ds) := by
  simp [ofDigits, List.foldl_append]

theorem Json.ofDigits_digits (n : Nat) : ofDigits (digitValues (digits n)) = n := by
  induction n using Nat.strongRecOn with
  | ind n ih =>
    by_cases h : n < 10
    · rw [Text.digits_of_lt h, Text.digitValues_digitChar h]
      simp [ofDigits]
    · rw [Text.digits_of_le (by omega), Text.digitValues_append,
        Text.digitValues_digitChar (Nat.mod_lt _ (by decide)), Json.ofDigits_append,
        ih (n / 10) (by omega)]
      simp only [List.foldl_cons, List.foldl_nil]
      omega

/-- No needless zero leads the digits of a number. -/
theorem Text.head_digits_pos {n : Nat} (h : 0 < n) :
    ∃ d ds, digits n = d :: ds ∧ d.toNat - 48 ≠ 0 := by
  induction n using Nat.strongRecOn with
  | ind n ih =>
    by_cases hn : n < 10
    · refine ⟨n.digitChar, [], digits_of_lt hn, ?_⟩
      rw [Nat.toNat_digitChar_sub_48_of_lt_ten hn]
      omega
    · obtain ⟨d, ds, hd, hz⟩ := ih (n / 10) (by omega) (by omega)
      exact ⟨d, ds ++ [(n % 10).digitChar], by rw [digits_of_le (by omega), hd]; rfl, hz⟩

/-- What follows a row of digits ends it. -/
def Text.EndsDigits (rest : List Char) : Prop := ∀ c cs, rest = c :: cs → c.isDigit = false

theorem Json.spanDigits_of_ends {rest : List Char} (hr : Text.EndsDigits rest) :
    spanDigits rest = ([], rest) := by
  match rest, hr with
  | [], _ => rfl
  | c :: cs, hr => rw [spanDigits, Text.digit?, hr c cs rfl]; rfl

theorem Json.spanDigits_append {rest : List Char} (hr : Text.EndsDigits rest) :
    ∀ {ds : List Char}, (∀ c ∈ ds, c.isDigit = true) →
      spanDigits (ds ++ rest) = (digitValues ds, rest)
  | [], _ => spanDigits_of_ends hr
  | c :: ds, hd => by
    have hc := Text.digit?_of_isDigit (hd c List.mem_cons_self)
    have hs := spanDigits_append hr fun x hx => hd x (List.mem_cons_of_mem c hx)
    rw [List.cons_append, spanDigits, hc, hs]
    rfl

theorem Text.endsDigits_nil : EndsDigits [] := by intro c cs h; cases h

theorem Text.endsDigits_cons {c : Char} (h : c.isDigit = false) (cs : List Char) :
    EndsDigits (c :: cs) := by
  intro d ds he
  rw [← (List.cons.inj he).1]
  exact h

theorem Json.spanDigits_all {ds : List Char} (hd : ∀ c ∈ ds, c.isDigit = true) :
    spanDigits ds = (digitValues ds, []) := by
  have h := spanDigits_append Text.endsDigits_nil hd
  rwa [List.append_nil] at h

/-! ## Numerals without sign -/

/-- A row of digits that may stand before a point: it is not empty, and a zero leads it only if it
stands alone. -/
structure Json.Whole (ds : List Char) : Prop where
  digit : ∀ c ∈ ds, c.isDigit = true
  lead : ∃ c cs, ds = c :: cs ∧ (c.toNat - 48 ≠ 0 ∨ cs = [])

namespace Json

theorem Whole.proper {ds : List Char} (h : Whole ds) :
    ((digitValues ds).isEmpty ||
      ((digitValues ds).head? == some 0 && decide (1 < (digitValues ds).length))) = false := by
  obtain ⟨c, cs, rfl, hz | rfl⟩ := h.lead
  · simp [digitValues, hz]
  · simp [digitValues]

theorem whole_digits (n : Nat) : Whole (digits n) where
  digit _ := Text.isDigit_of_mem_digits
  lead := by
    rcases Nat.eq_zero_or_pos n with rfl | hn
    · exact ⟨'0', [], rfl, .inr rfl⟩
    · obtain ⟨d, ds, hd, hz⟩ := Text.head_digits_pos hn
      exact ⟨d, ds, hd, .inl hz⟩

theorem readUnsigned_whole {ds : List Char} (h : Whole ds) (negative : Bool) :
    readUnsigned negative ds = some ⟨negative, digitValues ds, [], none⟩ := by
  have hp := h.proper
  simp only [readUnsigned, spanDigits_all h.digit, hp, Bool.false_eq_true, if_false]
  rfl

/-- Digits, a point and more digits. -/
theorem readUnsigned_point {ds e rest : List Char} (h : Whole ds)
    (he : ∀ c ∈ e, c.isDigit = true) (hne : e ≠ []) (hr : Text.EndsDigits rest)
    (negative : Bool) : readUnsigned negative (ds ++ '.' :: (e ++ rest)) =
      readTail negative (digitValues ds) (digitValues e) rest := by
  have hp := h.proper
  have hs := spanDigits_append (Text.endsDigits_cons (c := '.') rfl (e ++ rest)) h.digit
  have hz : (digitValues e).isEmpty = false := by
    cases e with
    | nil => exact absurd rfl hne
    | cons c cs => rfl
  simp only [readUnsigned, hs, hp, Bool.false_eq_true, if_false, spanDigits_append hr he, hz]

/-- Digits and an exponent. -/
theorem readUnsigned_exponent {ds rest : List Char} (h : Whole ds) (negative : Bool) :
    readUnsigned negative (ds ++ 'e' :: rest) =
      (readExponent rest).map fun e => ⟨negative, digitValues ds, [], some e⟩ := by
  have hp := h.proper
  have hs := spanDigits_append (Text.endsDigits_cons (c := 'e') rfl rest) h.digit
  simp only [readUnsigned, hs, hp, Bool.false_eq_true, if_false]
  rfl

theorem readExponent_signed (e : Int) :
    readExponent ((if e < 0 then '-' else '+') :: digits e.natAbs) = some e := by
  have hs := spanDigits_all fun c (hc : c ∈ digits e.natAbs) => Text.isDigit_of_mem_digits hc
  have hne : (digitValues (digits e.natAbs)).isEmpty = false := by
    cases hd : digits e.natAbs with
    | nil => exact absurd hd (Text.digits_ne_nil _)
    | cons c cs => rfl
  by_cases h : e < 0
  · simp [h, readExponent, hs, hne, ofDigits_digits, abs_of_neg h]
  · have hn : (e.natAbs : Int) = e := by omega
    simp [h, readExponent, hs, hne, ofDigits_digits, hn]

end Json

/-! ## Numbers -/

open Number (Decimal)

/-- The numeral that a format writes for a decimal. -/
def FloatFormat.numeral (format : FloatFormat) (negative : Bool) (d : Decimal) : Numeral :=
  let ds := digitValues (digits d.digits)
  let lead := d.power + ds.length - 1
  if format.leastPositional ≤ lead && lead < format.firstScientific then
    if lead + 1 ≤ 0 then ⟨negative, [0], List.replicate (-(lead + 1)).toNat 0 ++ ds, none⟩
    else
      let n := (lead + 1).toNat
      if ds.length ≤ n then ⟨negative, ds ++ List.replicate (n - ds.length) 0, [0], none⟩
      else ⟨negative, ds.take n, ds.drop n, none⟩
  else ⟨negative, ds.take 1, ds.drop 1, some lead⟩

namespace Json

theorem Whole.append {ds e : List Char} (h : Whole ds)
    (hz : ∃ c cs, ds = c :: cs ∧ c.toNat - 48 ≠ 0) (he : ∀ c ∈ e, c.isDigit = true) :
    Whole (ds ++ e) where
  digit c hc := (List.mem_append.mp hc).elim (h.digit c) (he c)
  lead := by
    obtain ⟨c, cs, rfl, hc⟩ := hz
    exact ⟨c, cs ++ e, rfl, .inl hc⟩

theorem Whole.take {ds : List Char} (h : Whole ds) {n : Nat} (hn : 0 < n) : Whole (ds.take n) where
  digit c hc := h.digit c (List.mem_of_mem_take hc)
  lead := by
    obtain ⟨c, cs, rfl, hc⟩ := h.lead
    obtain ⟨m, rfl⟩ := Nat.exists_eq_succ_of_ne_zero hn.ne'
    refine ⟨c, cs.take m, rfl, hc.imp id ?_⟩
    rintro rfl
    exact List.take_nil

theorem isDigit_of_mem_zeros {n : Nat} {c : Char} (h : c ∈ List.replicate n '0') :
    c.isDigit = true := by
  rw [List.eq_of_mem_replicate h]
  rfl

theorem digitValues_zeros (n : Nat) : digitValues (List.replicate n '0') = List.replicate n 0 := by
  simp [digitValues]

theorem digitValues_take (n : Nat) (ds : List Char) :
    digitValues (ds.take n) = (digitValues ds).take n := List.map_take

theorem digitValues_drop (n : Nat) (ds : List Char) :
    digitValues (ds.drop n) = (digitValues ds).drop n := List.map_drop

theorem readUnsigned_placePoint {d : Nat} (hd : 0 < d) (whole : Int) (negative : Bool) :
    readUnsigned negative (placePoint (digits d) whole) = some
      (if whole ≤ 0 then
        ⟨negative, [0], List.replicate (-whole).toNat 0 ++ digitValues (digits d), none⟩
      else if (digits d).length ≤ whole.toNat then
        ⟨negative, digitValues (digits d) ++ List.replicate (whole.toNat - (digits d).length) 0, [0],
          none⟩
      else ⟨negative, (digitValues (digits d)).take whole.toNat,
        (digitValues (digits d)).drop whole.toNat, none⟩) := by
  have hw := whole_digits d
  unfold placePoint
  by_cases h : whole ≤ 0
  · have hz : Whole ['0'] := whole_digits 0
    have hr := readUnsigned_point (e := List.replicate (-whole).toNat '0' ++ digits d) hz
      (fun c hc => (List.mem_append.mp hc).elim isDigit_of_mem_zeros (hw.digit c))
      (by simp [Text.digits_ne_nil]) Text.endsDigits_nil negative
    simp only [List.append_nil, List.cons_append, List.nil_append] at hr
    simp only [h, if_true, List.cons_append]
    rw [hr, Text.digitValues_append, digitValues_zeros]
    rfl
  · simp only [h, if_false]
    by_cases hl : (digits d).length ≤ whole.toNat
    · obtain ⟨c, cs, hc, hz⟩ := Text.head_digits_pos hd
      have hw' := hw.append (e := List.replicate (whole.toNat - (digits d).length) '0')
        ⟨c, cs, hc, hz⟩ fun _ => isDigit_of_mem_zeros
      have hr := readUnsigned_point (e := ['0']) hw' (by simp) (by simp) Text.endsDigits_nil
        negative
      simp only [hl, if_true]
      rw [List.append_nil] at hr
      rw [hr, Text.digitValues_append, digitValues_zeros]
      rfl
    · have hr := readUnsigned_point (e := (digits d).drop whole.toNat)
        (hw.take (n := whole.toNat) (by omega)) (fun c hc => hw.digit c (List.mem_of_mem_drop hc))
        (by simp only [ne_eq, List.drop_eq_nil_iff]; omega) Text.endsDigits_nil negative
      simp only [hl, if_false]
      rw [List.append_nil] at hr
      rw [hr, digitValues_take, digitValues_drop]
      rfl

theorem readUnsigned_write (format : FloatFormat) {d : Decimal} (hd : 0 < d.digits)
    (negative : Bool) : readUnsigned negative (format.write d) = some (format.numeral negative d) := by
  have hw := whole_digits d.digits
  simp only [FloatFormat.write, FloatFormat.numeral, Text.length_digitValues]
  split
  · rw [readUnsigned_placePoint hd]
  · have ht := hw.take (n := 1) (by decide)
    have he := readExponent_signed (d.power + (digits d.digits).length - 1)
    by_cases hf : (digits d.digits).drop 1 = []
    · simp only [hf, List.isEmpty_nil, if_true, List.append_nil]
      rw [readUnsigned_exponent ht, he, digitValues_take, ← digitValues_drop, hf]
      rfl
    · have hne : ((digits d.digits).drop 1).isEmpty = false := by simpa using hf
      simp only [hne, Bool.false_eq_true, if_false, List.append_assoc, List.cons_append]
      rw [readUnsigned_point ht (fun c hc => hw.digit c (List.mem_of_mem_drop hc)) hf
        (Text.endsDigits_cons rfl _), digitValues_take, digitValues_drop]
      simp only [readTail, he, Option.map_some]

theorem readNumeral_of_readUnsigned {cs : List Char} {n : Numeral}
    (h : readUnsigned false cs = some n) : readNumeral cs = some n := by
  unfold readNumeral
  split
  · cases h
  · exact h

theorem Whole.of_readUnsigned {cs : List Char} {negative : Bool} {n : Numeral}
    (h : readUnsigned negative cs = some n) : ∃ c t, cs = c :: t ∧ c.isDigit = true := by
  match cs with
  | [] => cases h
  | c :: t =>
    refine ⟨c, t, rfl, ?_⟩
    by_contra hc
    rw [Bool.not_eq_true] at hc
    rw [readUnsigned, spanDigits_of_ends (Text.endsDigits_cons hc t)] at h
    cases h

end Json

/-- The numeral that is written for a number. -/
def JsonNumber.numeral : JsonNumber → Numeral
  | .integer i => ⟨decide (i < 0), digitValues (digits i.natAbs), [], none⟩
  | .float x =>
    if x.isZero then ⟨x.negative, [0], [0], none⟩
    else Json.floatFormat.numeral x.negative (Number.shortest x.code)

/-! ## Reading what is written -/

theorem Number.Binary64.code_pos {x : Number.Binary64} (h : x.isZero = false) : 0 < x.code := by
  simp only [isZero, beq_eq_false_iff_ne] at h
  exact Nat.pos_of_ne_zero h

theorem JsonNumber.readNumeral_write (n : JsonNumber) : readNumeral n.write = some n.numeral := by
  match n with
  | .integer (.ofNat m) =>
    have hr := Json.readUnsigned_whole (Json.whole_digits m) false
    rw [write, writeInteger, Json.readNumeral_of_readUnsigned hr]
    simp [numeral]
  | .integer (.negSucc m) =>
    have hr := Json.readUnsigned_whole (Json.whole_digits (m + 1)) true
    rw [write, writeInteger, readNumeral, hr]
    simp [numeral, Int.negSucc_lt_zero]
  | .float x =>
    obtain ⟨unsigned, hu, hr⟩ : ∃ unsigned : List Char,
        x.write = (if x.negative then '-' :: unsigned else unsigned) ∧
        readUnsigned x.negative unsigned = some (numeral (.float x)) := by
      refine ⟨_, rfl, ?_⟩
      cases hz : x.isZero with
      | true => simp only [numeral, hz, if_true]; rfl
      | false =>
        simp only [numeral, hz, Bool.false_eq_true, if_false]
        exact Json.readUnsigned_write _ (Number.shortest_pos (Number.Binary64.code_pos hz)) _
    rw [write, hu]
    cases hn : x.negative with
    | true => rw [hn] at hr; exact hr
    | false => rw [hn] at hr; exact Json.readNumeral_of_readUnsigned hr

/-! ## The value of a numeral -/

/-- The value of a numeral without its sign. -/
def Json.Numeral.worth (n : Numeral) : ℚ :=
  ofDigits (n.whole ++ n.fraction) * 10 ^ (n.exponent.getD 0 - n.fraction.length)

theorem Json.ofDigits_append_zeros (ds : List Nat) (k : Nat) :
    ofDigits (ds ++ List.replicate k 0) = ofDigits ds * 10 ^ k := by
  induction k with
  | zero => simp
  | succ k ih =>
    rw [List.replicate_succ', ← List.append_assoc, ofDigits_append, ih, Nat.pow_succ]
    simp only [List.foldl_cons, List.foldl_nil]
    ring

theorem Json.ofDigits_zeros_append (k : Nat) (ds : List Nat) :
    ofDigits (List.replicate k 0 ++ ds) = ofDigits ds := by
  have h := ofDigits_append_zeros [] k
  rw [List.nil_append] at h
  rw [ofDigits_append, h]
  simp [ofDigits]

/-- The numeral that a format writes has the value of the decimal. -/
theorem FloatFormat.numeral_worth (format : FloatFormat) (negative : Bool) (d : Decimal) :
    (format.numeral negative d).worth = d.worth := by
  have hl : 0 < (digits d.digits).length := List.length_pos_iff.mpr (Text.digits_ne_nil _)
  have hd := Json.ofDigits_digits d.digits
  simp only [numeral, Text.length_digitValues]
  generalize hw : d.power + (digits d.digits).length - 1 = lead
  split
  · split
    · have hz : ofDigits ([0] ++ (List.replicate (-(lead + 1)).toNat 0 ++
          digitValues (digits d.digits))) = d.digits := by
        rw [← List.append_assoc, show [0] = List.replicate 1 0 from rfl,
          List.replicate_append_replicate, Json.ofDigits_zeros_append, hd]
      simp only [Json.Numeral.worth, Decimal.worth, hz, Option.getD_none, List.length_append,
        List.length_replicate, Text.length_digitValues]
      congr 2
      omega
    · split
      · have hz : ofDigits (digitValues (digits d.digits) ++
            List.replicate ((lead + 1).toNat - (digits d.digits).length) 0 ++ [0]) =
            d.digits * 10 ^ ((lead + 1).toNat - (digits d.digits).length + 1) := by
          rw [List.append_assoc, ← List.replicate_succ', Json.ofDigits_append_zeros, hd]
        simp only [Json.Numeral.worth, Decimal.worth, hz, Option.getD_none, List.length_singleton]
        push_cast
        rw [mul_assoc, ← zpow_natCast, ← zpow_add₀ (by norm_num)]
        congr 2
        push_cast
        omega
      · simp only [Json.Numeral.worth, Decimal.worth, List.take_append_drop, hd, Option.getD_none,
          List.length_drop, Text.length_digitValues]
        congr 2
        omega
  · simp only [Json.Numeral.worth, Decimal.worth, List.take_append_drop, hd, Option.getD_some,
      List.length_drop, Text.length_digitValues]
    congr 2
    omega

namespace JsonNumber

@[simp] theorem numeral_float_negative (x : Number.Binary64) :
    (numeral (.float x)).negative = x.negative := by
  simp only [numeral, FloatFormat.numeral]
  split_ifs <;> rfl

/-- A float shows a point or an exponent. -/
theorem numeral_float_marked (x : Number.Binary64) :
    ¬ ((numeral (.float x)).fraction = [] ∧ (numeral (.float x)).exponent = none) := by
  have hne : ∀ n, digitValues (digits n) ≠ [] := fun n => by
    simpa [digitValues] using Text.digits_ne_nil n
  simp only [numeral, FloatFormat.numeral]
  split_ifs <;> simp_all

theorem numeral_float_worth (x : Number.Binary64) :
    (numeral (.float x)).worth = if x.isZero then 0 else (Number.shortest x.code).worth := by
  simp only [numeral]
  split
  · simp [Json.Numeral.worth, ofDigits]
  · exact FloatFormat.numeral_worth _ _ _

theorem worth_pos {x : Number.Binary64} (h : x.isZero = false) :
    0 < (Number.shortest x.code).worth :=
  mul_pos (by exact_mod_cast Number.shortest_pos (Number.Binary64.code_pos h)) (by positivity)

theorem float_injective {x y : Number.Binary64} (h : numeral (.float x) = numeral (.float y)) :
    x = y := by
  have hn : x.negative = y.negative := by
    rw [← numeral_float_negative x, h, numeral_float_negative]
  have hw : (numeral (.float x)).worth = (numeral (.float y)).worth := by rw [h]
  rw [numeral_float_worth, numeral_float_worth] at hw
  have hc : x.code = y.code := by
    cases hx : x.isZero <;> cases hy : y.isZero <;>
      simp only [hx, hy, Bool.false_eq_true, if_true, if_false] at hw
    · exact Number.code_eq_of_worth (Number.Binary64.code_pos hx) (Number.Binary64.code_pos hy) hw
    · exact absurd hw (worth_pos hx).ne'
    · exact absurd hw (worth_pos hy).ne
    · rw [eq_of_beq hx, eq_of_beq hy]
  cases x
  cases y
  simp_all

/-- No two numbers are written alike. -/
theorem numeral_injective {m n : JsonNumber} (h : m.numeral = n.numeral) : m = n := by
  match m, n with
  | .integer i, .integer j =>
    simp only [numeral, Json.Numeral.mk.injEq, decide_eq_decide, and_true] at h
    have ha : i.natAbs = j.natAbs := by
      rw [← Json.ofDigits_digits i.natAbs, h.2, Json.ofDigits_digits]
    congr 1
    omega
  | .integer i, .float y =>
    exact absurd (by rw [← h]; exact ⟨rfl, rfl⟩) (numeral_float_marked y)
  | .float x, .integer j =>
    exact absurd (by rw [h]; exact ⟨rfl, rfl⟩) (numeral_float_marked x)
  | .float x, .float y => rw [float_injective h]

end JsonNumber
end Accord
