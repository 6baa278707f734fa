import Accord.Proofs.Basic
import Accord.Sql.Parser

/-! # Placeholders of statements

The parser numbers the placeholders of a statement as it reads its operands. `Numbered` says what
one operand or a list of them does to the count; it holds for every function that reads operands,
so the placeholders of a whole statement have the numbers from zero on, each once and in order. A
statement is only prepared if as many values are bound, and then each placeholder stands for the
value at its own position. -/
namespace Accord

/-- A value that can stand in a statement as a literal. -/
def Json.isScalar : Json → Bool
  | .array _ => false
  | .object _ => false
  | _ => true

namespace Sql

/-- The number of a placeholder. -/
def Operand.index? : Operand → Option Nat
  | .placeholder index => some index
  | .literal _ => none

/-- The numbers of the placeholders of a statement, from left to right. -/
def Statement.placeholders (s : Statement) : List Nat := s.operands.filterMap Operand.index?

/-- Operands whose placeholders have the numbers from `first` on and below `next`, and whose
literals are scalars. -/
structure Numbered (first : Nat) (operands : List Operand) (next : Nat) : Prop where
  le : first ≤ next
  indices : operands.filterMap Operand.index? = List.range' first (next - first)
  scalar : ∀ v, .literal v ∈ operands → v.isScalar = true

theorem numbered_nil (index : Nat) : Numbered index [] index where
  le := Nat.le_refl index
  indices := by simp
  scalar := by simp

theorem Numbered.append {first middle next : Nat} {left right : List Operand}
    (hl : Numbered first left middle) (hr : Numbered middle right next) :
    Numbered first (left ++ right) next where
  le := Nat.le_trans hl.le hr.le
  indices := by
    have hle := hl.le
    have hle' := hr.le
    rw [List.filterMap_append, hl.indices, hr.indices]
    have hmiddle : middle = first + (middle - first) := by omega
    have hlength : next - first = (middle - first) + (next - middle) := by omega
    rw [hlength, ← List.range'_append_1, ← hmiddle]
  scalar := by
    intro v hv
    rcases List.mem_append.mp hv with hv | hv
    · exact hl.scalar v hv
    · exact hr.scalar v hv

theorem numbered_placeholder (index : Nat) :
    Numbered index [.placeholder index] (index + 1) where
  le := Nat.le_succ index
  indices := by simp [Operand.index?]
  scalar := by simp

theorem numbered_literal (index : Nat) {v : Json} (h : v.isScalar = true) :
    Numbered index [.literal v] index where
  le := Nat.le_refl index
  indices := by simp [Operand.index?]
  scalar := by simpa using h

theorem Numbered.uncons {index next : Nat} {o : Operand} {os : List Operand}
    (h : Numbered index (o :: os) next) :
    ∃ middle, Numbered index [o] middle ∧ Numbered middle os next := by
  have hos : ∀ v, .literal v ∈ os → v.isScalar = true := fun v hv =>
    h.scalar v (List.mem_cons_of_mem o hv)
  have hindices := h.indices
  cases o with
  | placeholder i =>
    have hcons : i :: os.filterMap Operand.index? = List.range' index (next - index) := hindices
    cases hlength : next - index with
    | zero =>
      rw [hlength] at hcons
      cases hcons
    | succ length =>
      rw [hlength, List.range'_succ] at hcons
      obtain ⟨rfl, hrest⟩ := List.cons.inj hcons
      have hmiddle : next - (i + 1) = length := by omega
      exact ⟨i + 1, numbered_placeholder i, by omega, by rw [hrest, hmiddle], hos⟩
  | literal v =>
    exact ⟨index, numbered_literal index (h.scalar v List.mem_cons_self), h.le, hindices, hos⟩

/-- Operands without placeholders leave the count as it is. -/
theorem Numbered.eq_of_indices_nil {index next : Nat} {os : List Operand}
    (h : Numbered index os next) (hnil : os.filterMap Operand.index? = []) : index = next := by
  have hle := h.le
  have hlength := congrArg List.length h.indices
  rw [hnil, List.length_range', List.length_nil] at hlength
  omega

/-! ## Reading operands -/

theorem numbered_operand {index next : Nat} {t : Token} {o : Operand}
    (h : operand index t = .ok (o, next)) : Numbered index [o] next := by
  cases t with
  | placeholder =>
    cases h
    exact numbered_placeholder index
  | text s =>
    cases h
    exact numbered_literal index rfl
  | number digits =>
    simp only [operand] at h
    split at h
    · cases h
      exact numbered_literal index rfl
    · cases h
  | word w =>
    simp only [operand] at h
    split at h
    · cases h
      exact numbered_literal index rfl
    split at h
    · cases h
      exact numbered_literal index rfl
    split at h
    · cases h
      exact numbered_literal index rfl
    · cases h
  | _ => cases h

/-- A list of operands goes on with the number behind its first operand. -/
theorem numbered_operands {index next : Nat} {ts rest : List Token} {values : List Operand}
    (h : operands index ts = .ok ((values, next), rest)) :
    values ≠ [] ∧ Numbered index values next := by
  fun_induction operands index ts generalizing values next with
  | case1 => cases h
  | case2 index t =>
    obtain ⟨_, _, hend⟩ := exists_of_bind_ok h
    cases hend
  | case3 index t more ih =>
    obtain ⟨⟨value, middle⟩, hvalue, h⟩ := exists_of_bind_ok h
    obtain ⟨⟨⟨others, last⟩, behind⟩, hothers, h⟩ := exists_of_bind_ok h
    cases h
    exact ⟨List.cons_ne_nil _ _, (numbered_operand hvalue).append (ih _ hothers).2⟩
  | case4 index t more =>
    obtain ⟨⟨value, middle⟩, hvalue, h⟩ := exists_of_map_ok h
    cases h
    exact ⟨List.cons_ne_nil _ _, numbered_operand hvalue⟩
  | case5 index t u more =>
    obtain ⟨_, _, hend⟩ := exists_of_bind_ok h
    cases hend

theorem numbered_filter {count : Nat} {ts rest : List Token} {condition : Option Filter}
    (h : filter ts = .ok ((condition, count), rest)) :
    Numbered 0 (condition.toList.map (·.value)) count := by
  unfold filter at h
  split at h
  · obtain ⟨ts, _, h⟩ := exists_of_bind_ok h
    obtain ⟨⟨column, ts⟩, _, h⟩ := exists_of_bind_ok h
    obtain ⟨ts, _, h⟩ := exists_of_bind_ok h
    cases ts with
    | nil => cases h
    | cons t behind =>
      obtain ⟨⟨value, last⟩, hvalue, h⟩ := exists_of_bind_ok h
      cases h
      exact numbered_operand hvalue
  · cases h
    exact numbered_nil 0

/-! ## Reading statements -/

/-- An insertion has a value for each of its columns, of which there is at least one. -/
def Statement.isBalanced : Statement → Bool
  | .insert _ columns values => columns.length == values.length && !values.isEmpty
  | _ => true

/-- What every statement has that was read with this count of placeholders. -/
structure Statement.Counted (s : Statement) (count : Nat) : Prop where
  numbered : Numbered 0 s.operands count
  balanced : s.isBalanced = true

theorem counted_create {count : Nat} {ts rest : List Token} {s : Statement}
    (h : create ts = .ok ((s, count), rest)) : s.Counted count := by
  obtain ⟨ts, _, h⟩ := exists_of_bind_ok h
  simp only at h
  -- with the clause on absence or without it, the rest is read alike
  split at h
  all_goals
    obtain ⟨ts, _, h⟩ := exists_of_bind_ok h
    obtain ⟨⟨table, ts⟩, _, h⟩ := exists_of_bind_ok h
    obtain ⟨ts, _, h⟩ := exists_of_bind_ok h
    obtain ⟨⟨columns, ts⟩, _, h⟩ := exists_of_bind_ok h
    cases h
    exact ⟨numbered_nil 0, rfl⟩

theorem counted_insert {count : Nat} {ts rest : List Token} {s : Statement}
    (h : insert ts = .ok ((s, count), rest)) : s.Counted count := by
  obtain ⟨ts, _, h⟩ := exists_of_bind_ok h
  obtain ⟨⟨table, ts⟩, _, h⟩ := exists_of_bind_ok h
  obtain ⟨⟨columns, ts⟩, _, h⟩ := exists_of_bind_ok h
  obtain ⟨ts, _, h⟩ := exists_of_bind_ok h
  obtain ⟨⟨⟨values, last⟩, ts⟩, hvalues, h⟩ := exists_of_bind_ok h
  obtain ⟨ts, _, hvalues⟩ := exists_of_bind_ok hvalues
  obtain ⟨hne, hnumbered⟩ := numbered_operands hvalues
  simp only at h
  split at h
  · rename_i hlength
    cases h
    exact ⟨hnumbered, by simp [Statement.isBalanced, hlength, hne]⟩
  · cases h

theorem counted_select {count : Nat} {ts rest : List Token} {s : Statement}
    (h : select ts = .ok ((s, count), rest)) : s.Counted count := by
  obtain ⟨⟨chosen, ts⟩, _, h⟩ := exists_of_bind_ok h
  obtain ⟨ts, _, h⟩ := exists_of_bind_ok h
  obtain ⟨⟨table, ts⟩, _, h⟩ := exists_of_bind_ok h
  obtain ⟨⟨⟨condition, last⟩, ts⟩, hfilter, h⟩ := exists_of_bind_ok h
  cases h
  exact ⟨numbered_filter hfilter, rfl⟩

theorem counted_delete {count : Nat} {ts rest : List Token} {s : Statement}
    (h : delete ts = .ok ((s, count), rest)) : s.Counted count := by
  obtain ⟨ts, _, h⟩ := exists_of_bind_ok h
  obtain ⟨⟨table, ts⟩, _, h⟩ := exists_of_bind_ok h
  obtain ⟨⟨⟨condition, last⟩, ts⟩, hfilter, h⟩ := exists_of_bind_ok h
  cases h
  exact ⟨numbered_filter hfilter, rfl⟩

theorem counted_leadingStatement {count : Nat} {ts rest : List Token} {s : Statement}
    (h : leadingStatement ts = .ok ((s, count), rest)) : s.Counted count := by
  cases ts with
  | nil => cases h
  | cons t ts =>
    simp only [leadingStatement] at h
    split at h
    · exact counted_create h
    split at h
    · exact counted_insert h
    split at h
    · exact counted_select h
    split at h
    · exact counted_delete h
    · cases h

theorem counted_parse {count : Nat} {sql : String} {s : Statement}
    (h : parse sql = .ok (s, count)) : s.Counted count := by
  obtain ⟨ts, _, h⟩ := exists_of_bind_ok h
  obtain ⟨⟨read, rest⟩, hread, h⟩ := exists_of_bind_ok h
  cases rest with
  | nil =>
    cases h
    exact counted_leadingStatement hread
  | cons t more => cases h

/-! ## Binding values -/

namespace Statement

variable {s : Statement} {count : Nat}

theorem Counted.placeholders (h : s.Counted count) : s.placeholders = List.range count := by
  rw [Statement.placeholders, h.numbered.indices, Nat.sub_zero, List.range_eq_range']

theorem Counted.length (h : s.Counted count) : s.placeholders.length = count := by
  rw [h.placeholders, List.length_range]

theorem Counted.lt (h : s.Counted count) {index : Nat} (hi : .placeholder index ∈ s.operands) :
    index < count := by
  have hmem : index ∈ s.placeholders := List.mem_filterMap.mpr ⟨_, hi, rfl⟩
  rw [h.placeholders] at hmem
  exact List.mem_range.mp hmem

end Statement

theorem map_resolve_filter (bound : List Json) (os : List Operand) :
    (os.filter (·.index?.isSome)).map (·.resolve bound) =
      (os.filterMap Operand.index?).map fun index => bound[index]?.getD .null := by
  induction os with
  | nil => rfl
  | cons o os ih =>
    cases o with
    | placeholder index => exact congrArg (List.cons (bound[index]?.getD .null)) ih
    | literal v => exact ih

theorem map_getElem?_range (bound : List Json) :
    (List.range bound.length).map (fun index => bound[index]?.getD .null) = bound := by
  apply List.ext_getElem
  · simp
  · intro i hi hj
    simp [hj]

/-- A text that can be read as a statement is prepared exactly if as many values are bound as it has
placeholders, and the failure names the two counts. -/
theorem prepare_of_parse {count : Nat} {sql : String} {s : Statement} (bound : List Json)
    (h : parse sql = .ok (s, count)) :
    prepare sql bound = if s.placeholders.length = bound.length then .ok s
      else .error (.bindings s.placeholders.length bound.length) := by
  rw [(counted_parse h).length]
  simp only [prepare, h, bind, Except.bind]
  rfl

theorem parse_of_prepare {sql : String} {s : Statement} {bound : List Json}
    (h : prepare sql bound = .ok s) : parse sql = .ok (s, bound.length) := by
  obtain ⟨⟨read, count⟩, hread, h⟩ := exists_of_bind_ok h
  simp only at h
  split at h
  · rename_i hcount
    cases h
    rw [hread, hcount]
  · cases h

/-- The placeholders of a prepared statement have the positions of the bound values, each once and
in order, so each of them is replaced by a value that was bound, and all of these are used. An
insertion has as many values as columns, and at least one. Every literal is a scalar. A text with
another number of placeholders than bound values is refused, and both numbers are told. -/
theorem prepare_binds_each_once (sql : String) (bound : List Json) :
    (∀ s, prepare sql bound = .ok s →
      s.placeholders = List.range bound.length ∧
      (∀ index, .placeholder index ∈ s.operands →
        bound[index]? = some ((Operand.placeholder index).resolve bound)) ∧
      (s.operands.filter (·.index?.isSome)).map (·.resolve bound) = bound ∧
      (∀ table columns values, s = .insert table columns values →
        values.length = columns.length ∧ 1 ≤ values.length) ∧
      ∀ v, .literal v ∈ s.operands → v.isScalar = true) ∧
    ∀ s count, parse sql = .ok (s, count) →
      (s.placeholders.length = bound.length → prepare sql bound = .ok s) ∧
      (s.placeholders.length ≠ bound.length →
        prepare sql bound = .error (.bindings s.placeholders.length bound.length)) := by
  refine ⟨fun s h => ?_, fun s count h => ?_⟩
  · have hcounted := counted_parse (parse_of_prepare h)
    refine ⟨hcounted.placeholders, fun index hi => ?_, ?_, ?_, hcounted.numbered.scalar⟩
    · have hlt := hcounted.lt hi
      simp [Operand.resolve, hlt]
    · rw [map_resolve_filter, ← Statement.placeholders, hcounted.placeholders,
        map_getElem?_range]
    · intro table columns values hs
      subst hs
      have hb := hcounted.balanced
      simp only [Statement.isBalanced, Bool.and_eq_true, beq_iff_eq, Bool.not_eq_true',
        List.isEmpty_eq_false_iff] at hb
      exact ⟨hb.1.symm, List.length_pos_iff.mpr hb.2⟩
  · rw [prepare_of_parse bound h]
    exact ⟨fun he => if_pos he, fun hne => if_neg hne⟩

/-- An insertion with two placeholders and a quote in the text between them. -/
def insertionText : String := "INSERT INTO t (v, name, w) VALUES (?, 'it''s', ?)"

def insertionRead : Statement :=
  .insert "t" ["v", "name", "w"] [.placeholder 0, .literal (.string "it's"), .placeholder 1]

theorem parse_insertionText : parse insertionText = .ok (insertionRead, 2) := by
  have htokens : tokenize insertionText.toList = .ok [.word "INSERT", .word "INTO", .word "t",
      .openParen, .word "v", .comma, .word "name", .comma, .word "w", .closeParen, .word "VALUES",
      .openParen, .placeholder, .comma, .text "it's", .comma, .placeholder, .closeParen] := by
    decide +kernel
  rw [parse, htokens]
  rfl

theorem insertion_binds_both :
    prepare insertionText [.integer 42, .null] = .ok insertionRead ∧
    (insertionRead.operands.filter (·.index?.isSome)).map (·.resolve [.integer 42, .null]) =
      [.integer 42, .null] ∧
    prepare insertionText [.null] = .error (.bindings 2 1) := by
  have hboth := ((prepare_binds_each_once insertionText [.integer 42, .null]).2 _ _
    parse_insertionText).1 rfl
  have hone := ((prepare_binds_each_once insertionText [.null]).2 _ _
    parse_insertionText).2 (by decide)
  exact ⟨hboth, ((prepare_binds_each_once insertionText _).1 _ hboth).2.2.1, hone⟩

end Sql
end Accord
