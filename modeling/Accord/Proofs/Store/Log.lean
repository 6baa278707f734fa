import Accord.Store.Basic
import Mathlib

/-! # Logs without gaps

The entries of a log that only the operations of its own store have touched are numbered from one
upwards. On such a log an id is a position, so that appending, looking up, handing out and taking
out entries are operations on lists. -/
namespace Accord

/-- What is compared between logs: the time of an entry is that of the node that wrote it. -/
def Entry.key (e : Entry) : Nat × String := (e.id, e.command)

namespace Log

/-- The entries have the ids 1, 2, 3 and so on. -/
def Numbered (log : Log) : Prop := ∀ (i : Nat) (e : Entry), log[i]? = some e → e.id = i + 1

variable {log : Log} {e : Entry}

theorem numbered_nil : Numbered [] := by
  intro i e h
  cases h

theorem Numbered.left {rest : Log} (h : Numbered (log ++ rest)) : Numbered log := by
  intro i e hi
  have hlt : i < log.length := (List.getElem?_eq_some_iff.mp hi).1
  exact h i e (by rw [List.getElem?_append_left hlt, hi])

theorem Numbered.of_isPrefix {a b : Log} (hb : Numbered b) (h : a <+: b) : a.Numbered := by
  obtain ⟨rest, rfl⟩ := h
  exact hb.left

theorem numbered_concat : Numbered (log ++ [e]) ↔ Numbered log ∧ e.id = log.length + 1 := by
  refine ⟨fun h => ⟨h.left, h _ _ (by simp)⟩, fun ⟨h, he⟩ i a hi => ?_⟩
  rcases Nat.lt_trichotomy i log.length with hlt | rfl | hgt
  · rw [List.getElem?_append_left hlt] at hi
    exact h i a hi
  · simp only [List.getElem?_concat_length, Option.some.injEq] at hi
    rw [← hi, he]
  · rw [List.getElem?_eq_none (by simp; omega)] at hi
    cases hi

theorem Numbered.lastId (h : Numbered log) : log.lastId = log.length := by
  induction log using List.reverseRecOn with
  | nil => rfl
  | append_singleton rest e =>
    rw [Log.lastId, List.getLast?_concat, List.length_append]
    exact (numbered_concat.mp h).2

theorem Numbered.append (h : Numbered log) (command : String) (time : Instant) :
    log.append command time = log ++ [⟨log.length + 1, command, time⟩] := by
  rw [Log.append, nextId, h.lastId]

theorem Numbered.id_le (h : Numbered log) (he : e ∈ log) : 1 ≤ e.id ∧ e.id ≤ log.length := by
  obtain ⟨i, hi, rfl⟩ := List.getElem_of_mem he
  have := h i _ (List.getElem?_eq_getElem hi)
  omega

theorem Numbered.withId?_beyond (h : Numbered log) {k : Nat} (hk : log.length < k) :
    log.withId? k = none := by
  rw [withId?, List.find?_eq_none]
  intro a ha hid
  have := h.id_le ha
  rw [beq_iff_eq] at hid
  omega

theorem Numbered.after (h : Numbered log) (k : Nat) : log.after k = log.drop k := by
  rw [Log.after]
  induction log using List.reverseRecOn with
  | nil => simp
  | append_singleton rest e ih =>
    obtain ⟨hr, he⟩ := numbered_concat.mp h
    rw [List.filter_append, ih hr, List.drop_append]
    by_cases hk : k < e.id
    · rw [show k - rest.length = 0 by omega]
      simp [hk]
    · have : [e].drop (k - rest.length) = [] := List.drop_eq_nil_of_le (by simp; omega)
      rw [this]
      simp [hk]

theorem Numbered.ascending (h : Numbered log) : log.Pairwise fun a b => a.id < b.id := by
  rw [List.pairwise_iff_getElem]
  intro i j hi hj hij
  have ha := h i _ (List.getElem?_eq_getElem hi)
  have hb := h j _ (List.getElem?_eq_getElem hj)
  omega

/-- A log continued by what another one has in addition. -/
theorem Numbered.splice {other : Log} (h : Numbered log) (ho : Numbered other) :
    Numbered (log ++ other.drop log.length) := by
  intro i e hi
  by_cases hlt : i < log.length
  · rw [List.getElem?_append_left hlt] at hi
    exact h i e hi
  · rw [List.getElem?_append_right (by omega), List.getElem?_drop] at hi
    have := ho _ e hi
    omega

theorem truncate_last (log : Log) (e : Entry) : ((log ++ [e]).truncate e.id).2 = log := by
  simp [Log.truncate]

/-- Only the last entry of a log can be taken out. -/
theorem truncate_cases (log : Log) (id : Nat) : (log.truncate id).2 = log ∨
    ∃ init e, log = init ++ [e] ∧ e.id = id ∧ (log.truncate id).2 = init := by
  unfold Log.truncate
  split
  · rename_i last hlast
    split
    · rename_i hid
      obtain ⟨init, rfl⟩ := List.getLast?_eq_some_iff.mp hlast
      exact .inr ⟨init, last, rfl, hid, List.dropLast_concat⟩
    · exact .inl rfl
  · exact .inl rfl

theorem mem_truncate {e : Entry} {id : Nat} (h : e ∈ log) (hne : e.id ≠ id) :
    e ∈ (log.truncate id).2 := by
  rcases log.truncate_cases id with ht | ⟨init, last, rfl, hid, ht⟩
  · rwa [ht]
  · rw [ht]
    rcases List.mem_append.mp h with h | h
    · exact h
    · rw [List.mem_singleton.mp h] at hne
      exact absurd hid hne

theorem Numbered.truncate (h : log.Numbered) (id : Nat) :
    (log.truncate id).2.Numbered := by
  rcases log.truncate_cases id with ht | ⟨init, last, rfl, hid, ht⟩
  · rwa [ht]
  · rw [ht]
    exact h.left

theorem Numbered.eq_of_id (h : log.Numbered) {x y : Entry} (hx : x ∈ log)
    (hy : y ∈ log) (hid : x.id = y.id) : x = y := by
  obtain ⟨i, hi, rfl⟩ := List.getElem_of_mem hx
  obtain ⟨j, hj, rfl⟩ := List.getElem_of_mem hy
  have hxi := h i _ (List.getElem?_eq_getElem hi)
  have hyj := h j _ (List.getElem?_eq_getElem hj)
  obtain rfl : i = j := by omega
  rfl

theorem Numbered.withId?_of_mem (h : log.Numbered) {e : Entry} (he : e ∈ log) :
    log.withId? e.id = some e := by
  cases hfind : log.withId? e.id with
  | none =>
    rw [withId?, List.find?_eq_none] at hfind
    exact absurd (beq_self_eq_true e.id) (hfind e he)
  | some found =>
    rw [withId?] at hfind
    have hid := List.find?_some hfind
    rw [beq_iff_eq] at hid
    rw [h.eq_of_id (List.mem_of_find?_eq_some hfind) he hid]

theorem Numbered.withId?_last (h : Numbered (log ++ [e])) :
    Log.withId? e.id (log ++ [e]) = some e := h.withId?_of_mem (by simp)

/-- Two parts of one log make up a part of it. -/
theorem splice_isPrefix {a b c : Log} (ha : a <+: c) (hb : b <+: c) :
    a ++ b.drop a.length <+: c := by
  rcases List.prefix_or_prefix_of_prefix ha hb with ⟨rest, rfl⟩ | hab
  · rwa [List.drop_left]
  · rwa [List.drop_eq_nil_of_le hab.length_le, List.append_nil]

/-- Logs whose keys continue to the same ones have the same command under the same id. -/
theorem command_eq_of_prefix {log other : Log} {keys : List (Nat × String)}
    (hl : Numbered log) (ho : Numbered other) (hlp : log.map Entry.key <+: keys)
    (hop : other.map Entry.key <+: keys) {x y : Entry} (hx : x ∈ log) (hy : y ∈ other)
    (hid : x.id = y.id) : x.command = y.command := by
  obtain ⟨i, hi, rfl⟩ := List.getElem_of_mem hx
  obtain ⟨j, hj, rfl⟩ := List.getElem_of_mem hy
  -- the ids are the positions, so both stand at the same one
  have hij : i = j := by
    have hxi := hl i _ (List.getElem?_eq_getElem hi)
    have hyj := ho j _ (List.getElem?_eq_getElem hj)
    omega
  subst hij
  have hkx := List.prefix_iff_getElem?.mp hlp i (by simpa using hi)
  have hky := List.prefix_iff_getElem?.mp hop i (by simpa using hj)
  have hkeys : log[i].key = other[i].key := by simpa using hkx.symm.trans hky
  exact congrArg Prod.snd hkeys

end Log

/-- What an entry does to tables when it is replayed. A command that fails does nothing. -/
def Entry.replay (tables : Tables) (e : Entry) : Tables :=
  match Command.ofText? e.command with
  | none => tables
  | some command =>
    match Sql.prepare command.query command.bound with
    | .error _ => tables
    | .ok statement =>
      match tables.run statement command.bound with
      | .error _ => tables
      | .ok (_, tables) => tables

namespace Store

theorem execute_log (query : String) (bound : List Json) (s : Store) (log : Log) :
    execute query bound { s with log } =
      ((s.execute query bound).1, { (s.execute query bound).2 with log }) := by
  unfold execute
  cases Sql.prepare query bound with
  | error cause => rfl
  | ok statement =>
    simp only
    split
    · cases s.tables.run statement bound <;> rfl
    · rfl

theorem execute_tables (query : String) (bound : List Json) (s : Store) :
    (s.execute query bound).2 = { s with tables := (s.execute query bound).2.tables } := by
  unfold execute
  cases Sql.prepare query bound with
  | error cause => rfl
  | ok statement =>
    simp only
    split
    · cases s.tables.run statement bound <;> rfl
    · rfl

/-- A store in reach that nobody else writes to. -/
structure Ready (s : Store) : Prop where
  available : s.available = true
  alone : s.rivals = .none
  numbered : s.log.Numbered

variable {s : Store}

theorem Ready.lastId (h : s.Ready) : s.lastId = .ok s.log.length := by
  rw [Store.lastId, whenAvailable, if_pos h.available, h.numbered.lastId]

theorem Ready.grow (h : s.Ready) {e : Entry} (he : e.id = s.log.length + 1) :
    Ready { s with log := s.log ++ [e] } :=
  ⟨h.available, h.alone, Log.numbered_concat.mpr ⟨h.numbered, he⟩⟩

theorem Ready.appendText (h : s.Ready) (command : String) (time : Instant) :
    s.appendText command time = (.ok (s.log.length + 1),
      { s with log := s.log ++ [⟨s.log.length + 1, command, time⟩] }) := by
  have hr : s.rivals.appendTo time s.log = s.log := by
    rw [h.alone]
    rfl
  rw [Store.appendText, if_pos h.available]
  simp only [hr, Log.nextId, h.numbered.lastId, h.numbered.append, ← h.alone]

theorem Ready.truncate (h : s.Ready) (k : Nat) :
    (s.truncate k).2 = { s with log := (s.log.truncate k).2 } := by
  rw [Store.truncate, if_pos h.available]

theorem Ready.entriesBeyond (h : s.Ready) (k : Nat) :
    s.entriesBeyond k = .ok (s.log.drop k) := by
  rw [Store.entriesBeyond, whenAvailable, if_pos h.available, h.numbered.after]

/-- Applying an entry replays it. -/
theorem Ready.apply (h : s.Ready) (k : Nat) :
    (s.apply k).2 = { s with tables := (s.log.withId? k).toList.foldl Entry.replay s.tables } := by
  rw [Store.apply, Store.command, entry, whenAvailable, if_pos h.available]
  cases s.log.withId? k with
  | none => rfl
  | some e =>
    simp only [bind, Except.bind, commandOf, Option.toList_some, List.foldl_cons, List.foldl_nil,
      Entry.replay]
    cases Command.ofText? e.command with
    | none => rfl
    | some command =>
      simp only [execute, if_pos h.available]
      cases Sql.prepare command.query command.bound with
      | error cause => rfl
      | ok statement =>
        simp only
        cases s.tables.run statement command.bound <;> rfl

theorem apply_error {k : Nat} {e : StoreError} (h : (s.apply k).1 = .error e) :
    (s.apply k).2 = s := by
  rw [Store.apply] at h ⊢
  cases hc : s.command k with
  | error failure => rfl
  | ok command =>
    simp only [hc, execute] at h ⊢
    cases hp : Sql.prepare command.query command.bound with
    | error cause => rfl
    | ok statement =>
      simp only [hp] at h ⊢
      split
      · rename_i ha
        rw [if_pos ha] at h
        cases hr : s.tables.run statement command.bound with
        | error e => rfl
        | ok result =>
          rw [hr] at h
          cases h
      · rfl

theorem Ready.adopt_next (h : s.Ready) {e : Entry} (he : e.id = s.log.length + 1) :
    s.adopt e = (.ok e.id, { s with log := s.log ++ [e] }) := by
  rw [adopt, h.lastId]
  simp only [he, ne_eq, not_true_eq_false, if_false]
  rw [h.appendText]
  simp only [if_true, ← he]

theorem Ready.adopt_other (h : s.Ready) {e : Entry} (he : e.id ≠ s.log.length + 1) :
    s.adopt e = (.error (.diverged e.id (s.log.length + 1)), s) := by
  rw [adopt, h.lastId]
  simp only [ne_eq, he, not_false_eq_true, if_true]

/-- A store that nobody else writes to, in reach or not. -/
structure Own (s : Store) : Prop where
  alone : s.rivals = .none
  numbered : s.log.Numbered

theorem Own.ready (h : s.Own) (ha : s.available = true) : s.Ready := ⟨ha, h.alone, h.numbered⟩

theorem Own.id_le (h : s.Own) {e : Entry} (he : e ∈ s.log) : e.id ≤ s.log.length :=
  (h.numbered.id_le he).2

/-- A command is appended as the next entry, or nothing happens. -/
theorem Own.append (h : s.Own) (command : Command) (time : Instant) :
    s.append command time = (.ok (s.log.length + 1),
        { s with log := s.log ++ [⟨s.log.length + 1, command.text, time⟩] }) ∨
      s.append command time = (.error .unavailable, s) := by
  by_cases ha : s.available = true
  · exact .inl ((h.ready ha).appendText command.text time)
  · right
    rw [Store.append, Store.appendText, if_neg ha, ← h.alone]

theorem apply_tables (id : Nat) (s : Store) :
    (s.apply id).2 = { s with tables := (s.apply id).2.tables } := by
  rw [Store.apply]
  cases s.command id with
  | error failure => rfl
  | ok command => exact execute_tables _ _ _

theorem truncate_log (id : Nat) (s : Store) : (s.truncate id).2 = s ∨
    (s.truncate id).2 = { s with log := (s.log.truncate id).2 } := by
  rw [Store.truncate]
  split
  · exact .inr rfl
  · exact .inl rfl

/-- An entry of another log is appended if it is the next one, or nothing happens. -/
theorem Own.adopt (h : s.Own) (e : Entry) :
    (e.id = s.log.length + 1 ∧ s.adopt e = (.ok e.id, { s with log := s.log ++ [e] })) ∨
      ∃ failure, s.adopt e = (.error failure, s) := by
  by_cases ha : s.available = true
  · by_cases he : e.id = s.log.length + 1
    · exact .inl ⟨he, (h.ready ha).adopt_next he⟩
    · exact .inr ⟨_, (h.ready ha).adopt_other he⟩
  · right
    refine ⟨.unavailable, ?_⟩
    rw [Store.adopt, Store.lastId, Store.whenAvailable, if_neg ha]

end Store

end Accord
