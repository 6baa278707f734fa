import Accord.Node.Heartbeat
import Accord.Proofs.Keyed
import Accord.Proofs.Store.Log

/-! # What a batch of entries does

A batch may come in any order, with gaps and with entries twice. Of its entries behind the own log,
in the order of their ids, those are taken in that continue the log without a gap, and each of them
is replayed once. If others are left, the first of them is the reason that is given. A batch without
repetitions that comes a second time does nothing. -/
namespace Accord

/-- The entries of a batch behind the id `m`, in the order of their ids; those of one id stand in
the order of the batch. -/
structure Arranged (m : Nat) (batch es : List Entry) : Prop where
  ascending : es.Pairwise fun a b => a.id ≤ b.id
  same : ∀ id, es.filter (·.id = id) = if m < id then batch.filter (·.id = id) else []

/-- `taken` is the longest beginning of `es` whose ids follow `m` without a gap. -/
structure Continues (m : Nat) (es taken rest : List Entry) : Prop where
  split : es = taken ++ rest
  ids : taken.map (·.id) = List.range' (m + 1) taken.length
  stop : ∀ e ∈ rest.head?, e.id ≠ m + taken.length + 1

variable {m : Nat} {batch es taken rest : List Entry} {e : Entry}

/-! ## Sorting -/

theorem arranged_filter (m : Nat) (batch : List Entry) :
    Arranged m batch ((batch.mergeSort fun a b => a.id ≤ b.id).filter fun e => m < e.id) := by
  refine ⟨(Keyed.pairwise_mergeSort Entry.id batch).sublist List.filter_sublist, fun id => ?_⟩
  rw [List.filter_filter]
  split
  · rename_i hid
    rw [← Keyed.filter_mergeSort Entry.id]
    refine List.filter_congr fun e _ => ?_
    by_cases he : e.id = id
    · simp [he, hid]
    · simp [he]
  · rename_i hid
    rw [List.filter_eq_nil_iff]
    intro e _ hboth
    simp only [Bool.and_eq_true, decide_eq_true_eq] at hboth
    omega

theorem Arranged.mem (h : Arranged m batch es) : e ∈ es ↔ e ∈ batch ∧ m < e.id := by
  have hes : e ∈ es ↔ e ∈ es.filter (·.id = e.id) := by simp
  rw [hes, h.same]
  split
  · simp [*]
  · simp [*]

theorem Arranged.nodup (h : Arranged m batch es) (hb : (batch.map (·.id)).Nodup) :
    (es.map (·.id)).Nodup := by
  rw [List.nodup_iff_count_le_one] at hb ⊢
  intro id
  have hcount (l : List Entry) : (l.map (·.id)).count id = (l.filter (·.id = id)).length := by
    rw [List.count, List.countP_map, List.countP_eq_length_filter]
    rfl
  rw [hcount, h.same]
  split
  · rw [← hcount]
    exact hb id
  · exact Nat.zero_le 1

theorem Continues.numbered {log : Log} (h : Continues log.length es taken rest)
    (hlog : log.Numbered) : Log.Numbered (log ++ taken) := by
  intro i e hi
  by_cases hlt : i < log.length
  · rw [List.getElem?_append_left hlt] at hi
    exact hlog i e hi
  · rw [List.getElem?_append_right (by omega)] at hi
    have hj : i - log.length < taken.length := (List.getElem?_eq_some_iff.mp hi).1
    have hid := congrArg (Option.map (·.id)) hi
    rw [← List.getElem?_map, h.ids, List.getElem?_range' hj, Option.map_some, Option.some.injEq]
      at hid
    omega

/-- In a batch without repetitions nothing continues what was taken. -/
theorem Continues.not_mem (h : Continues m es taken rest) (ha : Arranged m batch es)
    (hb : (batch.map (·.id)).Nodup) (he : e ∈ batch) : e.id ≠ m + taken.length + 1 := by
  intro hid
  obtain ⟨rfl, hids, hstop⟩ := h
  have hnodup := ha.nodup hb
  rw [List.map_append, hids] at hnodup
  have hdisjoint := (List.nodup_append.mp hnodup).2.2
  -- the entry would be behind the first one that is left, whose id was then taken already
  have hrest : e ∈ rest := by
    rcases List.mem_append.mp (ha.mem.mpr ⟨he, by omega⟩) with htaken | hrest
    · have := List.mem_map_of_mem (f := (·.id)) htaken
      rw [hids, List.mem_range'_1] at this
      omega
    · exact hrest
  cases rest with
  | nil => cases hrest
  | cons first rest =>
    have hne : first.id ≠ m + taken.length + 1 := hstop first rfl
    have hbehind : m < first.id := (ha.mem.mp (by simp)).2
    have hle : first.id ≤ e.id := by
      rcases List.mem_cons.mp hrest with rfl | hlater
      · exact le_rfl
      · have hpair := (List.pairwise_append.mp ha.ascending).2.1
        exact (List.pairwise_cons.mp hpair).1 e hlater
    refine hdisjoint first.id ?_ first.id (by simp) rfl
    rw [List.mem_range'_1]
    omega

/-! ## Inserting -/

namespace Node

open Store (Ready)

variable {s : Store}

/-- Entries are taken in up to the first one that is not the next one. -/
theorem insertEntries_exact (h : s.Ready) (es : List Entry) :
    ∃ taken rest, Continues s.log.length es taken rest ∧
      insertEntries es s =
        (rest.head?.elim (.ok taken.length) fun e =>
          .error (.diverged e.id (s.log.length + taken.length + 1)),
        { s with log := s.log ++ taken, tables := taken.foldl Entry.replay s.tables }) := by
  induction es generalizing s with
  | nil => exact ⟨[], [], ⟨rfl, rfl, by simp⟩, by simp [insertEntries]⟩
  | cons e es ih =>
    by_cases he : e.id = s.log.length + 1
    · have hgrow := h.grow he
      have happly := hgrow.apply e.id
      rw [(Log.numbered_concat.mpr ⟨h.numbered, he⟩).withId?_last, Option.toList_some,
        List.foldl_cons, List.foldl_nil] at happly
      obtain ⟨taken, rest, ⟨rfl, hids, hstop⟩, hinsert⟩ :=
        ih (s := { s with log := s.log ++ [e], tables := e.replay s.tables })
          ⟨hgrow.1, hgrow.2, hgrow.3⟩
      have hlength : (s.log ++ [e]).length = s.log.length + 1 := by simp
      have hcount : s.log.length + 1 + taken.length = s.log.length + (taken.length + 1) := by omega
      simp only [hlength, hcount] at hids hstop hinsert
      refine ⟨e :: taken, rest, ⟨rfl, ?_, hstop⟩, ?_⟩
      · rw [List.map_cons, List.length_cons, List.range'_succ, hids, he]
      · rw [insertEntries, h.adopt_next he]
        simp only [happly, hinsert]
        cases rest <;> simp
    · refine ⟨[], e :: es, ⟨rfl, rfl, ?_⟩, ?_⟩
      · simpa using he
      · rw [insertEntries, h.adopt_other he]
        simp

/-- Entries that continue a log are all taken in and replayed. -/
theorem insertEntries_next (h : s.Ready) (hes : Log.Numbered (s.log ++ es)) :
    (insertEntries es s).2 =
      { s with log := s.log ++ es, tables := es.foldl Entry.replay s.tables } := by
  obtain ⟨taken, rest, ⟨rfl, -, hstop⟩, hinsert⟩ := insertEntries_exact h es
  cases rest with
  | nil => rw [hinsert, List.append_nil]
  | cons e rest =>
    refine absurd ?_ (hstop e rfl)
    exact hes (s.log.length + taken.length) e (by simp [← List.append_assoc])

/-- Entries behind a gap are not taken in. -/
theorem insertEntries_gap (h : s.Ready) (hes : ∀ e ∈ es, s.log.length + 1 < e.id) :
    (insertEntries es s).2 = s := by
  cases es with
  | nil => rfl
  | cons e rest =>
    rw [insertEntries, h.adopt_other (hes e (by simp)).ne']

/-- The entries that a store takes in from a batch with another log's entries behind `k`. -/
def newEntries (k : Nat) (log : Log) (s : Store) : List Entry :=
  if k ≤ s.log.length then log.drop s.log.length else []

/-- What a batch with the entries of another log behind `k` does. -/
theorem insertMissing_drop (h : s.Ready) {log : Log} (hl : log.Numbered) (k : Nat) :
    (insertMissing (log.drop k) s).2 = { s with
      log := s.log ++ newEntries k log s
      tables := (newEntries k log s).foldl Entry.replay s.tables } := by
  have hsorted : (log.drop k).mergeSort (fun a b => a.id ≤ b.id) = log.drop k := by
    refine List.mergeSort_of_pairwise ((hl.ascending.sublist (List.drop_sublist k log)).imp ?_)
    exact fun hab => decide_eq_true hab.le
  have hbehind : (log.drop k).filter (fun e => s.log.length < e.id) =
      log.drop (max k s.log.length) := by
    rw [← hl.after, ← hl.after, Log.after, Log.after, List.filter_filter]
    refine List.filter_congr fun e _ => ?_
    simp [Bool.and_comm]
  rw [insertMissing, h.lastId]
  simp only [hsorted, hbehind, newEntries]
  split
  · rename_i hk
    rw [Nat.max_eq_right hk]
    exact insertEntries_next h (h.numbered.splice hl)
  · rename_i hk
    rw [Nat.max_eq_left (by omega), insertEntries_gap h]
    · simp
    · intro e he
      rw [← hl.after, Log.after, List.mem_filter, decide_eq_true_eq] at he
      omega

/-- A batch is taken in as far as its entries behind the own log continue it without a gap: each of
these is appended and replayed once, in the order of the ids. If all are, the result is their
number, and else the first one that is left does not fit. A batch without repetitions does nothing
when it comes again. -/
theorem insertMissing_takes_continuation (h : s.Ready) (batch : List Entry) :
    ∃ es taken rest, Arranged s.log.length batch es ∧ Continues s.log.length es taken rest ∧
      insertMissing batch s =
        (rest.head?.elim (.ok taken.length) fun e =>
          .error (.diverged e.id (s.log.length + taken.length + 1)),
        { s with log := s.log ++ taken, tables := taken.foldl Entry.replay s.tables }) ∧
      ((batch.map (·.id)).Nodup →
        (insertMissing batch (insertMissing batch s).2).2 = (insertMissing batch s).2) := by
  have harranged := arranged_filter s.log.length batch
  obtain ⟨taken, rest, hcontinues, hinsert⟩ := insertEntries_exact h
    ((batch.mergeSort fun a b => a.id ≤ b.id).filter fun e => s.log.length < e.id)
  have hfirst : insertMissing batch s = insertEntries
      ((batch.mergeSort fun a b => a.id ≤ b.id).filter fun e => s.log.length < e.id) s := by
    simp only [insertMissing, h.lastId]
  rw [hinsert] at hfirst
  refine ⟨_, taken, rest, harranged, hcontinues, hfirst, fun hnodup => ?_⟩
  rw [hfirst]
  have hready : Ready { s with
      log := s.log ++ taken, tables := taken.foldl Entry.replay s.tables } :=
    ⟨h.available, h.alone, hcontinues.numbered h.numbered⟩
  rw [insertMissing, hready.lastId]
  refine insertEntries_gap hready ?_
  intro e he
  have hmem := (arranged_filter _ batch).mem.mp he
  have hnot := hcontinues.not_mem harranged hnodup hmem.1
  simp only [List.length_append] at hmem ⊢
  omega

/-- A store with one entry. -/
def oneEntry : Store := { Store.empty with log := [⟨1, "\x7b\x7d", ⟨2024, 1, 1, 0, 0⟩⟩] }

/-- A batch out of order, with an entry that the store has, one that is no command, one that creates
a table, and a gap. -/
def shuffled : List Entry :=
  [⟨5, "\x7b\x7d", ⟨2024, 1, 5, 0, 0⟩⟩,
   ⟨3, "\x7b\"query\":\"CREATE TABLE t (v)\"\x7d", ⟨2024, 1, 3, 0, 0⟩⟩,
   ⟨1, "\x7b\x7d", ⟨2024, 1, 1, 0, 0⟩⟩,
   ⟨2, "no command", ⟨2024, 1, 2, 0, 0⟩⟩]

theorem shuffled_batch_taken_in :
    (oneEntry.Ready ∧ (shuffled.map (·.id)).Nodup) ∧
      (insertMissing shuffled oneEntry).1 = .error (.diverged 5 4) ∧
      (insertMissing shuffled oneEntry).2.log.ids = [1, 2, 3] ∧
      Keyed.keys (insertMissing shuffled oneEntry).2.tables = ["t"] ∧
      (insertMissing shuffled (insertMissing shuffled oneEntry).2).2 =
        (insertMissing shuffled oneEntry).2 := by
  have hready : oneEntry.Ready :=
    ⟨rfl, rfl, Log.numbered_concat.mpr ⟨Log.numbered_nil, rfl⟩⟩
  have hnodup : (shuffled.map (·.id)).Nodup := by decide
  have hfirst : insertMissing shuffled oneEntry =
      insertEntries (shuffled.reverse.filter fun e => 1 < e.id) oneEntry := by
    simp only [insertMissing, hready.lastId]
    simp [shuffled, oneEntry, List.mergeSort, List.MergeSort.Internal.splitInTwo]
  have heval : (insertMissing shuffled oneEntry).1 = .error (.diverged 5 4) ∧
      (insertMissing shuffled oneEntry).2.log.ids = [1, 2, 3] ∧
      Keyed.keys (insertMissing shuffled oneEntry).2.tables = ["t"] := by
    rw [hfirst]
    decide +kernel
  obtain ⟨_, _, _, -, -, -, hagain⟩ := insertMissing_takes_continuation hready shuffled
  exact ⟨⟨hready, hnodup⟩, heval.1, heval.2.1, heval.2.2, hagain hnodup⟩

end Node
end Accord
