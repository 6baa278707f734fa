import Accord.Proofs.Json.Numeral
import Accord.Time.Text

/-! # Instants are read as they were written

Every instant of the calendar is read from its text as that instant: the parts are written with as
many digits as the reader takes, the fraction is exact, and a leap second shows as second 60. -/
namespace Accord

namespace Text

theorem isDigit_of_mem_digitsPadded {width n : Nat} {c : Char} (h : c ∈ digitsPadded width n) :
    c.isDigit = true := by
  rcases List.mem_append.mp h with h | h
  · exact Json.isDigit_of_mem_zeros h
  · exact isDigit_of_mem_digits h

theorem ofDigits_digitsPadded (width n : Nat) :
    Json.ofDigits (digitValues (digitsPadded width n)) = n := by
  rw [digitsPadded, digitValues_append, Json.digitValues_zeros, Json.ofDigits_zeros_append,
    Json.ofDigits_digits]

theorem length_digitsPadded {width n : Nat} (hw : 0 < width) (h : n < 10 ^ width) :
    (digitsPadded width n).length = width := by
  have hle := (Nat.length_toDigits_le_iff (by decide) hw).mpr h
  rw [digitsPadded, List.length_append, List.length_replicate]
  exact Nat.sub_add_cancel hle

theorem digitsPadded_ne_nil (width n : Nat) : digitsPadded width n ≠ [] := by
  intro h
  exact digits_ne_nil n (List.append_eq_nil_iff.mp h).2

theorem isBlank_of_isDigit {c : Char} (h : c.isDigit = true) : isBlank c = false := by
  simp only [Char.isDigit, Bool.and_eq_true, decide_eq_true_eq] at h
  have hlow : 48 ≤ c.toNat := h.1
  have hhigh : c.toNat ≤ 57 := h.2
  simp [isBlank]
  omega

/-- No blank leads what begins with digits. -/
theorem trimStart_digits {ds : List Char} (hd : ∀ c ∈ ds, c.isDigit = true) (hne : ds ≠ [])
    (rest : List Char) : trimStart (ds ++ rest) = ds ++ rest := by
  cases ds with
  | nil => exact absurd rfl hne
  | cons c cs => exact trimStart_of_not_isBlank (isBlank_of_isDigit (hd c (by simp))) _

end Text

namespace Instant

open Text (digitsPadded digitValues EndsDigits trimStart)

/-! ## Numbers -/

/-- Digits are taken up to the width or up to what is no digit. -/
theorem takeDigits_append {rest : List Char} : ∀ {ds : List Char} {width : Nat} (acc : Nat),
    (∀ c ∈ ds, c.isDigit = true) → ds.length ≤ width →
    (ds.length = width ∨ EndsDigits rest) →
    takeDigits width acc (ds ++ rest) =
      ((digitValues ds).foldl (fun acc d => 10 * acc + d) acc, rest) := by
  intro ds
  induction ds with
  | nil =>
    intro width acc _ _ hend
    cases width with
    | zero => rfl
    | succ width =>
      rcases hend with hlen | hend
      · cases hlen
      · cases rest with
        | nil => rfl
        | cons c cs => rw [List.nil_append, takeDigits, Text.digit?, hend c cs rfl]; rfl
  | cons c ds ih =>
    intro width acc hd hlen hend
    cases width with
    | zero => cases hlen
    | succ width =>
      rw [List.cons_append, takeDigits, Text.digit?_of_isDigit (hd c (by simp))]
      refine ih _ (fun x hx => hd x (List.mem_cons_of_mem c hx)) (Nat.le_of_succ_le_succ hlen) ?_
      exact hend.imp_left Nat.succ.inj

theorem readNumber?_append {ds rest : List Char} {width : Nat} (hd : ∀ c ∈ ds, c.isDigit = true)
    (hne : ds ≠ []) (hlen : ds.length ≤ width) (hend : ds.length = width ∨ EndsDigits rest) :
    readNumber? width (ds ++ rest) = some (Json.ofDigits (digitValues ds), rest) := by
  have ht := takeDigits_append 0 hd hlen hend
  cases ds with
  | nil => exact absurd rfl hne
  | cons c cs =>
    rw [List.cons_append] at ht ⊢
    rw [readNumber?, if_pos (hd c (by simp)), ht]
    rfl

/-- A number in the places of a width is read from them. -/
theorem readNumber?_padded {width n : Nat} (hw : 0 < width) (h : n < 10 ^ width)
    (rest : List Char) : readNumber? width (digitsPadded width n ++ rest) = some (n, rest) := by
  have hlen := Text.length_digitsPadded hw h
  rw [readNumber?_append (fun _ => Text.isDigit_of_mem_digitsPadded)
    (Text.digitsPadded_ne_nil _ _) hlen.le (.inl hlen), Text.ofDigits_digitsPadded]

theorem readPart?_padded {n : Nat} (h : n < 100) (rest : List Char) :
    readPart? (digitsPadded 2 n ++ rest) = some (n, rest) := by
  rw [readPart?, Text.trimStart_digits (fun _ => Text.isDigit_of_mem_digitsPadded)
    (Text.digitsPadded_ne_nil _ _)]
  exact readNumber?_padded (by decide) h rest

theorem readMark?_mark {mark : Char} (h : Text.isBlank mark = false) (rest : List Char) :
    readMark? mark (mark :: rest) = some rest := by
  rw [readMark?, Text.trimStart_of_not_isBlank h]
  exact if_pos rfl

/-! ## Parts -/

theorem readYear?_writeYear (y : Int) {rest : List Char} (hr : EndsDigits rest) :
    readYear? (writeYear y ++ rest) = some (y, rest) := by
  have hdigit {c : Char} : c ∈ digitsPadded 4 y.natAbs → c.isDigit = true :=
    Text.isDigit_of_mem_digitsPadded
  have hne := Text.digitsPadded_ne_nil 4 y.natAbs
  -- behind a sign all digits are taken
  have hall : readNumber? (digitsPadded 4 y.natAbs ++ rest).length
      (digitsPadded 4 y.natAbs ++ rest) = some (y.natAbs, rest) := by
    rw [readNumber?_append (fun _ => hdigit) hne (by simp) (.inr hr), Text.ofDigits_digitsPadded]
  unfold writeYear
  split
  · rename_i hy
    simp only [Bool.and_eq_true, decide_eq_true_eq] at hy
    have hnum : readNumber? 4 (digitsPadded 4 y.natAbs ++ rest) = some (y.natAbs, rest) :=
      readNumber?_padded (by decide) (by omega) rest
    rw [readYear?, Text.trimStart_digits (fun _ => hdigit) hne]
    obtain ⟨c, cs, hcs⟩ := List.exists_cons_of_ne_nil hne
    have hc : c.isDigit = true := hdigit (by rw [hcs]; simp)
    rw [hcs, List.cons_append] at hnum ⊢
    split
    · rename_i h
      rw [(List.cons.inj h).1] at hc
      exact absurd hc (by decide)
    · rename_i h
      rw [(List.cons.inj h).1] at hc
      exact absurd hc (by decide)
    · rw [hnum]
      simp only [Option.map_some, Option.some.injEq, Prod.mk.injEq, and_true]
      omega
  · rename_i hy
    simp only [Bool.and_eq_true, decide_eq_true_eq, not_and_or, not_le] at hy
    split
    · rename_i hneg
      rw [List.cons_append, readYear?, Text.trimStart_of_not_isBlank rfl]
      simp only [hall, Option.map_some, Option.some.injEq, Prod.mk.injEq, and_true]
      omega
    · rename_i hpos
      rw [List.cons_append, readYear?, Text.trimStart_of_not_isBlank rfl]
      simp only [hall, Option.map_some, Option.some.injEq, Prod.mk.injEq, and_true]
      omega

/-- A fraction with so many digits. -/
theorem readFraction?_padded {places n : Nat} (hp : 0 < places) (hle : places ≤ 9)
    (h : n < 10 ^ places) :
    readFraction? ('.' :: (digitsPadded places n ++ ['Z'])) =
      some (n * 10 ^ (9 - places), ['Z']) := by
  have hlen := Text.length_digitsPadded hp h
  have hread : readNumber? 9 (digitsPadded places n ++ ['Z']) = some (n, ['Z']) := by
    rw [readNumber?_append (fun _ => Text.isDigit_of_mem_digitsPadded)
      (Text.digitsPadded_ne_nil _ _) (by omega) (.inr (Text.endsDigits_cons rfl [])),
      Text.ofDigits_digitsPadded]
  rw [readFraction?, hread]
  simp only [Option.map_some, List.length_append, List.length_singleton, hlen,
    Nat.add_sub_cancel]
  rfl

theorem readFraction?_writeFraction {nano : Nat} (h : nano < nanosPerSecond) :
    readFraction? (writeFraction nano ++ ['Z']) = some (nano, ['Z']) := by
  rw [nanosPerSecond] at h
  unfold writeFraction
  simp only [beq_iff_eq]
  split
  · rename_i h0
    rw [h0]
    rfl
  · split
    · rename_i hm
      rw [List.cons_append, readFraction?_padded (by decide) (by decide) (by omega)]
      congr 2
      omega
    · split
      · rename_i hm
        rw [List.cons_append, readFraction?_padded (by decide) (by decide) (by omega)]
        congr 2
        omega
      · rw [List.cons_append, readFraction?_padded (by decide) (by decide) (by omega)]
        congr 2
        omega

/-! ## Instants -/

/-- Whether an instant is one of the calendar. -/
def isValid (t : Instant) : Bool :=
  isDate t.year t.month t.day && t.second < secondsPerDay &&
    (t.nano < nanosPerSecond || (t.second % 60 == 59 && t.nano < 2 * nanosPerSecond))

theorem isValid_iff {t : Instant} : t.isValid = true ↔
    isDate t.year t.month t.day = true ∧ t.second < secondsPerDay ∧
      (t.nano < nanosPerSecond ∨ t.second % 60 = 59 ∧ t.nano < 2 * nanosPerSecond) := by
  simp [isValid, and_assoc]

theorem toUniversal?_zero {t : Instant} (hy : yearInRange t.year = true)
    (hs : t.second < secondsPerDay) : t.toUniversal? 0 = some t := by
  have hlow : ¬ (t.second : Int) < 0 := by omega
  have hhigh : ¬ (secondsPerDay : Int) ≤ t.second := by omega
  simp only [toUniversal?, Int.sub_zero, if_neg hlow, if_neg hhigh, Int.toNat_natCast, if_pos hy]

/-- The second of the minute and the fraction, as they are written. -/
def shown (t : Instant) : Nat × Nat :=
  if nanosPerSecond ≤ t.nano then (t.second % 60 + 1, t.nano - nanosPerSecond)
  else (t.second % 60, t.nano)

theorem write_eq (t : Instant) : t.write =
    writeYear t.year ++ ('-' :: (digitsPadded 2 t.month ++ ('-' :: (digitsPadded 2 t.day ++
      ('T' :: (digitsPadded 2 (t.second / 3600) ++ (':' :: (digitsPadded 2 (t.second / 60 % 60) ++
        (':' :: (digitsPadded 2 t.shown.1 ++ (writeFraction t.shown.2 ++ ['Z']))))))))))) := by
  unfold shown
  split
  · rename_i h
    simp [write, h]
  · rename_i h
    simp [write, h]

theorem shown_lt {t : Instant} (h : t.isValid = true) :
    t.shown.1 < 100 ∧ t.shown.2 < nanosPerSecond := by
  obtain ⟨_, hsecond, hnano⟩ := isValid_iff.mp h
  unfold shown
  split
  · dsimp only
    omega
  · dsimp only
    omega

/-- The parts that are written are those of the instant. -/
theorem ofParts?_shown {t : Instant} (h : t.isValid = true) :
    ofParts? t.year t.month t.day (t.second / 3600) (t.second / 60 % 60) t.shown.1 t.shown.2 =
      some t := by
  obtain ⟨hdate, hsecond, hnano⟩ := isValid_iff.mp h
  rw [secondsPerDay] at hsecond
  have hhour : t.second / 3600 < 24 := by omega
  have hminute : t.second / 60 % 60 < 60 := by omega
  unfold shown
  split
  · rename_i hleap
    -- a leap second is the last one of its minute
    have hlast : t.second % 60 = 59 := by omega
    have hsum : 3600 * (t.second / 3600) + 60 * (t.second / 60 % 60) + 59 = t.second := by omega
    have hrest : nanosPerSecond + (t.nano - nanosPerSecond) = t.nano := by omega
    simp [ofParts?, hdate, hhour, hminute, hlast, hsum, hrest]
  · have hlt : t.second % 60 < 60 := Nat.mod_lt _ (by decide)
    have hsum : 3600 * (t.second / 3600) + 60 * (t.second / 60 % 60) + t.second % 60 = t.second := by
      omega
    simp [ofParts?, hdate, hhour, hminute, hlt.le, hlt.ne, hsum]

section

variable {cs dateRest monthText monthRest dayText timeText hourRest minuteText minuteRest secondText
  secondRest : List Char} {year : Int} {month day hour minute second nano : Nat}

/-- An instant is read part by part. -/
theorem read?_of_parts (hyear : readYear? cs = some (year, dateRest))
    (hmonthMark : readMark? '-' dateRest = some monthText)
    (hmonth : readPart? monthText = some (month, monthRest))
    (hdayMark : readMark? '-' monthRest = some dayText)
    (hday : readPart? dayText = some (day, 'T' :: timeText))
    (hhour : readPart? timeText = some (hour, hourRest))
    (hminuteMark : readMark? ':' hourRest = some minuteText)
    (hminute : readPart? minuteText = some (minute, minuteRest))
    (hsecondMark : readMark? ':' minuteRest = some secondText)
    (hsecond : readPart? secondText = some (second, secondRest))
    (hnano : readFraction? secondRest = some (nano, ['Z'])) :
    read? cs = (ofParts? year month day hour minute second nano).bind (toUniversal? · 0) := by
  have hzone : readZone? (trimStart ['Z']) = some (0, []) := rfl
  have hbind {α β : Type} (a : α) (f : α → Option β) : (some a >>= f) = f a := rfl
  rw [read?, hyear, hbind]
  dsimp only
  rw [hmonthMark, hbind, hmonth, hbind]
  dsimp only
  rw [hdayMark, hbind, hday, hbind]
  dsimp only
  rw [if_pos (by decide), hbind, hhour, hbind]
  dsimp only
  rw [hminuteMark, hbind, hminute, hbind]
  dsimp only
  rw [hsecondMark, hbind, hsecond, hbind]
  dsimp only
  rw [hnano, hbind]
  dsimp only
  rw [hzone, hbind]
  rfl

end

/-- An instant of the calendar is read from its text. -/
theorem ofText?_text {t : Instant} (h : t.isValid = true) : ofText? t.text = some t := by
  obtain ⟨hdate, hsecond, _⟩ := isValid_iff.mp h
  have hparts := ofParts?_shown h
  simp only [isDate, Bool.and_eq_true, decide_eq_true_eq] at hdate
  obtain ⟨⟨⟨⟨hyear, _⟩, hmonth⟩, _⟩, hday⟩ := hdate
  have hdays : daysIn t.year t.month ≤ 31 := by
    unfold daysIn
    split_ifs <;> decide
  have hhour : t.second / 3600 < 100 := by rw [secondsPerDay] at hsecond; omega
  obtain ⟨hshown, hfraction⟩ := shown_lt h
  rw [ofText?, text, String.toList_ofList, write_eq,
    read?_of_parts (readYear?_writeYear _ (Text.endsDigits_cons rfl _)) (readMark?_mark rfl _)
      (readPart?_padded (by omega) _) (readMark?_mark rfl _) (readPart?_padded (by omega) _)
      (readPart?_padded hhour _) (readMark?_mark rfl _) (readPart?_padded (by omega) _)
      (readMark?_mark rfl _) (readPart?_padded hshown _) (readFraction?_writeFraction hfraction),
    hparts, Option.bind_some, toUniversal?_zero hyear hsecond]

end Instant
end Accord
