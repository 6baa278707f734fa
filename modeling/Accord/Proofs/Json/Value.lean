import Accord.Command
import Accord.Proofs.Message.Codec

/-! # Values are read as they were written

The text of a value is read as that value unless it is nested too deeply. This needs that its
integers fit 64 bits, that the names of each object ascend, and that the text of each of its floats
is read as that float: the reader rounds more than once, so the last one is asked of every float. -/
namespace Accord

/-! ## Numbers -/

/-- A number whose text is read as that number. -/
def JsonNumber.isFaithful : JsonNumber → Bool
  | .integer i => -(Text.signedLimit : Int) ≤ i && i < Text.wordLimit
  | .float x => (JsonNumber.float x).numeral.value? == some (.float x)

namespace Json

theorem le_foldl_digits (ds : List Nat) (sig : Nat) :
    sig ≤ ds.foldl (fun acc d => 10 * acc + d) sig := by
  induction ds generalizing sig with
  | nil => exact le_rfl
  | cons d ds ih =>
    rw [List.foldl_cons]
    exact le_trans (by omega) (ih (10 * sig + d))

/-- Digits that are worth less than the bound are all taken. -/
theorem absorb_fits (ds : List Nat) (sig : Nat)
    (h : ds.foldl (fun acc d => 10 * acc + d) sig < Text.wordLimit) : (absorb sig ds).2 = 0 := by
  induction ds generalizing sig with
  | nil => rfl
  | cons d ds ih =>
    rw [List.foldl_cons] at h
    rw [absorb, if_pos (lt_of_le_of_lt (le_foldl_digits ds _) h)]
    exact ih _ h

theorem absorb_digits {n : Nat} (h : n < Text.wordLimit) :
    absorb 0 (Text.digitValues (Text.digits n)) = (n, 0) := by
  have hn := ofDigits_digits n
  have hfit := absorb_fits _ 0 (show ofDigits _ < _ from hn.symm ▸ h)
  have hval := absorb_whole _ 0 hfit
  rw [← ofDigits, hn] at hval
  exact Prod.ext hval hfit

theorem value?_numeral_integer {i : Int} (h : (JsonNumber.integer i).isFaithful = true) :
    (JsonNumber.integer i).numeral.value? = some (.integer i) := by
  simp only [JsonNumber.isFaithful, Bool.and_eq_true, decide_eq_true_eq] at h
  have hs : Text.signedLimit < Text.wordLimit := by decide
  have ha := absorb_digits (n := i.natAbs) (by omega)
  simp only [Numeral.value?, JsonNumber.numeral, ha, List.isEmpty_nil, Option.isNone_none,
    Bool.and_self, beq_self_eq_true, if_true]
  by_cases hi : i < 0
  · rw [decide_eq_true hi, if_neg (by decide), if_pos (by simp; omega)]
    congr 2
    omega
  · rw [decide_eq_false hi, if_pos (by decide)]
    congr 2
    omega

theorem value?_numeral {n : JsonNumber} (h : n.isFaithful = true) : n.numeral.value? = some n := by
  cases n with
  | integer i => exact value?_numeral_integer h
  | float x => exact beq_iff_eq.mp h

/-- A number whose text is read as that number. -/
theorem numeral_value?_of_ofText? {n : JsonNumber}
    (h : ofText? (text (.number n)) = some (.number n)) : n.numeral.value? = some n := by
  rw [ofText?, parse?, text, String.toList_ofList, read?_render, Option.bind_some, writtenOf,
    Written.value?] at h
  obtain ⟨m, hm, heq⟩ := Option.map_eq_some_iff.mp h
  cases heq
  exact hm

/-! ## Values -/

mutual

/-- How deeply arrays and objects are nested. -/
def height : Json → Nat
  | .array vs => itemsHeight vs + 1
  | .object fs => fieldsHeight fs + 1
  | _ => 0

def itemsHeight : List Json → Nat
  | [] => 0
  | v :: vs => max (height v) (itemsHeight vs)

def fieldsHeight : List (String × Json) → Nat
  | [] => 0
  | (_, v) :: fs => max (height v) (fieldsHeight fs)

end

mutual

/-- A value whose text is read as that value, however deeply it is nested. -/
def isFaithful : Json → Bool
  | .number n => n.isFaithful
  | .array vs => itemsFaithful vs
  | .object fs => (Keyed.keys fs).Pairwise (· < ·) && fieldsFaithful fs
  | _ => true

def itemsFaithful : List Json → Bool
  | [] => true
  | v :: vs => isFaithful v && itemsFaithful vs

def fieldsFaithful : List (String × Json) → Bool
  | [] => true
  | (_, v) :: fs => isFaithful v && fieldsFaithful fs

end

theorem itemsHeight_le_iff {vs : List Json} {depth : Nat} :
    itemsHeight vs ≤ depth ↔ ∀ v ∈ vs, v.height ≤ depth := by
  induction vs with
  | nil => simp [itemsHeight]
  | cons v vs ih => simp [itemsHeight, ih]

theorem itemsFaithful_iff {vs : List Json} :
    itemsFaithful vs = true ↔ ∀ v ∈ vs, v.isFaithful = true := by
  induction vs with
  | nil => simp [itemsFaithful]
  | cons v vs ih => simp [itemsFaithful, ih]

mutual

theorem value?_writtenOf (depth : Nat) (v : Json) (h : v.isFaithful = true) :
    Written.value? depth (writtenOf v) = if v.height ≤ depth then some v else none := by
  match v with
  | .null => rfl
  | .bool b => rfl
  | .string s => exact value?_string depth s
  | .number n =>
    rw [isFaithful] at h
    rw [writtenOf, Written.value?, value?_numeral h]
    rfl
  | .array vs =>
    rw [isFaithful] at h
    rw [writtenOf, Written.value?, values?_writtenItems (depth - 1) vs h, height]
    by_cases hd : depth = 0
    · rw [if_pos hd, if_neg (by omega)]
    · rw [if_neg hd]
      by_cases hv : itemsHeight vs ≤ depth - 1
      · rw [if_pos hv, if_pos (by omega)]
        rfl
      · rw [if_neg hv, if_neg (by omega)]
        rfl
  | .object fs =>
    rw [isFaithful, Bool.and_eq_true, decide_eq_true_eq] at h
    rw [writtenOf, Written.value?, fields?_writtenFields (depth - 1) fs h.2, height]
    by_cases hd : depth = 0
    · rw [if_pos hd, if_neg (by omega)]
    · rw [if_neg hd]
      by_cases hv : fieldsHeight fs ≤ depth - 1
      · rw [if_pos hv, if_pos (by omega), Option.map_some, ofFields, Keyed.ofList_ascending h.1]
      · rw [if_neg hv, if_neg (by omega)]
        rfl

theorem values?_writtenItems (depth : Nat) (vs : List Json) (h : itemsFaithful vs = true) :
    Written.values? depth (writtenItems vs) =
      if itemsHeight vs ≤ depth then some vs else none := by
  match vs with
  | [] => rfl
  | v :: vs =>
    rw [itemsFaithful, Bool.and_eq_true] at h
    rw [writtenItems, Written.values?, value?_writtenOf depth v h.1,
      values?_writtenItems depth vs h.2, itemsHeight]
    by_cases hv : v.height ≤ depth <;> by_cases hvs : itemsHeight vs ≤ depth <;> simp [hv, hvs]

theorem fields?_writtenFields (depth : Nat) (fs : List (String × Json))
    (h : fieldsFaithful fs = true) :
    Written.fields? depth (writtenFields fs) =
      if fieldsHeight fs ≤ depth then some fs else none := by
  match fs with
  | [] => rfl
  | (k, v) :: fs =>
    rw [fieldsFaithful, Bool.and_eq_true] at h
    rw [writtenFields, Written.fields?, stringOf?_piecesOf, value?_writtenOf depth v h.1,
      fields?_writtenFields depth fs h.2, fieldsHeight]
    by_cases hv : v.height ≤ depth <;> by_cases hfs : fieldsHeight fs ≤ depth <;> simp [hv, hfs]

end

/-- A text is read as the value that it was written for. -/
theorem ofText?_text {v : Json} (h : v.isFaithful = true) :
    Json.ofText? v.text = if v.height ≤ nestingLimit then some v else none := by
  rw [ofText?, parse?, text, String.toList_ofList, read?_render, Option.bind_some,
    value?_writtenOf _ v h]

end Json

/-! ## Commands -/

namespace Command

/-- A command whose values are read as they are written. -/
def isFaithful (c : Command) : Bool := Json.itemsFaithful c.bound

/-- The text that the log keeps is read as the command that it was written for. -/
theorem ofText?_text {c : Command} (h : c.isFaithful = true) :
    Command.ofText? c.text =
      if Json.itemsHeight c.bound ≤ Json.nestingLimit - 2 then some c else none := by
  obtain ⟨query, values⟩ := c
  rw [ofText?, text, Json.text, String.toList_ofList, Json.read?_render, Option.bind_some]
  cases values with
  | none =>
    simp [ofWritten?, toJson, Json.writtenOf, Json.writtenFields, Json.Written.slots?,
      Json.writtenNames?, Json.single?, Json.stringOf?_piecesOf, bound, Json.itemsHeight]
  | some vs =>
    have hw : ofWritten? (Json.writtenOf (toJson ⟨query, some vs⟩)) =
        (Json.Written.values? (Json.nestingLimit - 2) (Json.writtenItems vs)).map
          fun vs => ⟨query, some vs⟩ := by
      simp [ofWritten?, toJson, Json.writtenOf, Json.writtenFields, Json.Written.slots?,
        Json.writtenNames?, Json.single?, Json.stringOf?_piecesOf, Option.map_eq_bind]
    rw [hw, Json.values?_writtenItems _ vs h, bound, Option.getD_some]
    split <;> rfl

end Command
end Accord
