import Accord.Proofs.Node.Acts

/-! # Logs that others write to

The log of a store keeps its numbers whoever writes to it. Other writers may append between the
look-up of the latest id and the append of an entry that is copied from another log; then that entry
would get a wrong number, and it is taken out again. `Usage` is all that can happen to a store, and
every usage appends entries at the end or takes out the last one. -/
namespace Accord

/-- The entries that rivals append to a log of `length` entries. -/
def Rivals.entries (r : Rivals) (time : Instant) (length : Nat) : List Entry :=
  r.writers.mapIdx fun i rival => ⟨length + i + 1, rival.command, rival.time.getD time⟩

/-- One use of a store: an act of its node, or other writers get ready to append. -/
inductive Usage where
  | act (a : Act)
  | race (rivals : Rivals)

def Usage.run (s : Store) : Usage → Store
  | .act a => a.run s
  | .race rivals => { s with rivals }

/-- The store after some usages. -/
def Store.used (s : Store) (usages : List Usage) : Store := usages.foldl Usage.run s

namespace Log

variable {log : Log}

theorem Numbered.ids (h : log.Numbered) : log.ids = List.range' 1 log.length := by
  induction log using List.reverseRecOn with
  | nil => rfl
  | append_singleton rest e ih =>
    obtain ⟨hrest, he⟩ := numbered_concat.mp h
    rw [Log.ids] at ih ⊢
    rw [List.map_append, ih hrest, List.length_append, List.length_singleton, List.range'_concat,
      List.map_singleton, he, Nat.one_mul, Nat.add_comm 1]

theorem Numbered.ids_drop (h : log.Numbered) (i : Nat) :
    Log.ids (log.drop i) = List.range' (i + 1) (log.length - i) := by
  have hids := h.ids
  rw [Log.ids] at hids ⊢
  rw [List.map_drop, hids, List.drop_range', Nat.mul_one, Nat.add_comm 1]

end Log

/-- Rivals append their entries under the next ids. -/
theorem Rivals.appendTo_eq (r : Rivals) (time : Instant) {log : Log} (h : log.Numbered) :
    r.appendTo time log = log ++ r.entries time log.length ∧
      (log ++ r.entries time log.length).Numbered := by
  obtain ⟨writers⟩ := r
  rw [Rivals.appendTo, Rivals.entries]
  induction writers using List.reverseRecOn with
  | nil => simpa using h
  | append_singleton writers rival ih =>
    obtain ⟨happend, hnumbered⟩ := ih
    have hlength : (log ++ writers.mapIdx fun i rival =>
        (⟨log.length + i + 1, rival.command, rival.time.getD time⟩ : Entry)).length =
          log.length + writers.length := by simp
    have hnext := hnumbered.append rival.command (rival.time.getD time)
    rw [hlength] at hnext
    rw [List.foldl_append, List.foldl_cons, List.foldl_nil, happend, hnext, List.mapIdx_concat,
      ← List.append_assoc]
    exact ⟨rfl, Log.numbered_concat.mpr ⟨hnumbered, by rw [hlength]⟩⟩

theorem Rivals.length_entries (r : Rivals) (time : Instant) (length : Nat) :
    (r.entries time length).length = r.writers.length := List.length_mapIdx

namespace Store

variable {s : Store}

/-- An append comes behind those of the rivals, or all of them fail together. -/
theorem appendText_eq (h : s.log.Numbered) (command : String) (time : Instant) :
    s.appendText command time =
      if s.available then
        (.ok (s.log.length + s.rivals.writers.length + 1), { s with
          log := s.log ++ s.rivals.entries time s.log.length ++
            [⟨s.log.length + s.rivals.writers.length + 1, command, time⟩]
          rivals := .none })
      else (.error .unavailable, { s with rivals := .none }) := by
  obtain ⟨happend, hnumbered⟩ := s.rivals.appendTo_eq time h
  have hlength : (s.log ++ s.rivals.entries time s.log.length).length =
      s.log.length + s.rivals.writers.length := by
    rw [List.length_append, Rivals.length_entries]
  rw [appendText]
  simp only [happend, Log.nextId, hnumbered.lastId, hnumbered.append, hlength]

/-- An entry that is not the next one is not appended, and neither is any while the store is out of
reach. The rivals have not come to the log then. -/
theorem adopt_refused (h : s.log.Numbered) {e : Entry}
    (hno : ¬ (s.available = true ∧ e.id = s.log.length + 1)) :
    ∃ failure, s.adopt e = (.error failure, s) := by
  rw [adopt, Store.lastId, whenAvailable, h.lastId]
  by_cases ha : s.available = true
  · have he : e.id ≠ s.log.length + 1 := fun he => hno ⟨ha, he⟩
    simp only [if_pos ha, if_pos he]
    exact ⟨_, rfl⟩
  · simp only [if_neg ha]
    exact ⟨_, rfl⟩

/-- An entry that rivals have come before is taken out again. -/
theorem adopt_raced (h : s.log.Numbered) (ha : s.available = true) {e : Entry}
    (he : e.id = s.log.length + 1) (hr : s.rivals ≠ .none) :
    s.adopt e = (.error (.diverged e.id (e.id + s.rivals.writers.length)), { s with
      log := s.log ++ s.rivals.entries e.time s.log.length
      rivals := .none }) := by
  have hsome : s.rivals.writers.length ≠ 0 := by
    intro hnone
    exact hr (congrArg Rivals.mk (List.eq_nil_of_length_eq_zero hnone))
  have hid : s.log.length + s.rivals.writers.length + 1 = e.id + s.rivals.writers.length := by
    omega
  rw [adopt, Store.lastId, whenAvailable, h.lastId, appendText_eq h, hid]
  simp only [if_pos ha, he, ne_eq, not_true_eq_false, if_false, Nat.add_eq_left, hsome,
    Store.truncate]
  rw [Log.truncate, List.getLast?_concat, List.dropLast_concat]
  simp

theorem appendText_log (h : s.log.Numbered) (command : String) (time : Instant) :
    (s.appendText command time).2.log.Numbered ∧ s.log <+: (s.appendText command time).2.log := by
  rw [appendText_eq h]
  split
  · refine ⟨Log.numbered_concat.mpr ⟨(s.rivals.appendTo_eq time h).2, ?_⟩, ?_⟩
    · rw [List.length_append, Rivals.length_entries]
    · rw [List.append_assoc]
      exact List.prefix_append _ _
  · exact ⟨h, List.prefix_refl _⟩

theorem adopt_log (h : s.log.Numbered) (e : Entry) :
    (s.adopt e).2.log.Numbered ∧ s.log <+: (s.adopt e).2.log := by
  by_cases hno : s.available = true ∧ e.id = s.log.length + 1
  · obtain ⟨ha, he⟩ := hno
    by_cases hr : s.rivals = .none
    · rw [(Ready.mk ha hr h).adopt_next he]
      exact ⟨Log.numbered_concat.mpr ⟨h, he⟩, List.prefix_append _ _⟩
    · rw [adopt_raced h ha he hr]
      exact ⟨(s.rivals.appendTo_eq e.time h).2, List.prefix_append _ _⟩
  · obtain ⟨failure, hrefused⟩ := adopt_refused h hno
    rw [hrefused]
    exact ⟨h, List.prefix_refl _⟩

/-- A usage appends to the log, or takes out its last entry. -/
theorem run_log (h : s.log.Numbered) (u : Usage) : (u.run s).log.Numbered ∧
    (s.log <+: (u.run s).log ∨
      ∃ last, u = .act (.remove last.id) ∧ s.log = (u.run s).log ++ [last]) := by
  have hsame {t : Store} (ht : t.log = s.log) : t.log.Numbered ∧ s.log <+: t.log := by
    rw [ht]
    exact ⟨h, List.prefix_refl _⟩
  cases u with
  | race rivals => exact (hsame rfl).imp_right .inl
  | act a =>
    cases a with
    | vote command time => exact (appendText_log h command.text time).imp_right .inl
    | propose command time => exact (appendText_log h command.text time).imp_right .inl
    | adopt e => exact (adopt_log h e).imp_right .inl
    | replay id =>
      have hlog : (s.apply id).2.log = s.log := by rw [apply_tables]
      exact (hsame hlog).imp_right .inl
    | query command =>
      have hlog : (s.execute command.query command.bound).2.log = s.log := by rw [execute_tables]
      exact (hsame hlog).imp_right .inl
    | reach available => exact (hsame rfl).imp_right .inl
    | remove id =>
      simp only [Usage.run, Act.run]
      rcases truncate_log id s with ht | ht
      · exact (hsame (by rw [ht])).imp_right .inl
      · rw [ht]
        rcases s.log.truncate_cases id with hkeep | ⟨init, last, hlog, rfl, hinit⟩
        · exact (hsame hkeep).imp_right .inl
        · refine ⟨h.truncate last.id, .inr ⟨last, rfl, ?_⟩⟩
          simp only [hinit]
          exact hlog

theorem used_log (h : s.log.Numbered) (usages : List Usage) : (s.used usages).log.Numbered := by
  induction usages generalizing s with
  | nil => exact h
  | cons u rest ih => exact ih (run_log h u).1

/-- Whatever happens to a store that was empty, its log has the ids from one on, and each entry is
found under its own id. The latest id and the entries behind an id are read off it, and the next
usage appends to it or takes out its last entry. An entry of another log is appended if it is the
next one; if rivals come before it, only their entries are there afterwards, and otherwise nothing
is. -/
theorem log_stays_numbered (usages : List Usage) :
    let s := Store.empty.used usages
    s.log.ids = List.range' 1 s.log.length ∧
    (s.available = true → s.lastId = .ok s.log.length ∧
      (∀ i, s.entriesBeyond i = .ok (s.log.drop i) ∧
        Log.ids (s.log.drop i) = List.range' (i + 1) (s.log.length - i)) ∧
      ∀ e ∈ s.log, s.entry e.id = .ok e) ∧
    (∀ u : Usage, s.log <+: (u.run s).log ∨
      ∃ last, u = .act (.remove last.id) ∧ s.log = (u.run s).log ++ [last]) ∧
    ∀ e : Entry,
      (s.available = true ∧ e.id = s.log.length + 1 ∧ s.rivals = .none →
        s.adopt e = (.ok e.id, { s with log := s.log ++ [e] })) ∧
      (s.available = true ∧ e.id = s.log.length + 1 ∧ s.rivals ≠ .none →
        s.adopt e = (.error (.diverged e.id (e.id + s.rivals.writers.length)), { s with
          log := s.log ++ s.rivals.entries e.time s.log.length
          rivals := .none })) ∧
      (¬ (s.available = true ∧ e.id = s.log.length + 1) →
        ∃ failure, s.adopt e = (.error failure, s)) := by
  intro s
  have h : s.log.Numbered := used_log (s := Store.empty) Log.numbered_nil usages
  refine ⟨h.ids, ?_, fun u => (run_log h u).2, fun e => ⟨?_, ?_, adopt_refused h⟩⟩
  · intro ha
    refine ⟨?_, fun i => ⟨?_, h.ids_drop i⟩, fun e he => ?_⟩
    · rw [Store.lastId, whenAvailable, if_pos ha, h.lastId]
    · rw [Store.entriesBeyond, whenAvailable, if_pos ha, h.after]
    · rw [Store.entry, whenAvailable, if_pos ha, h.withId?_of_mem he]
  · rintro ⟨ha, he, hr⟩
    exact (Ready.mk ha hr h).adopt_next he
  · rintro ⟨ha, he, hr⟩
    exact adopt_raced h ha he hr

/-- A store with one entry, and two rivals that are about to append. -/
def contested : List Usage :=
  [.act (.adopt ⟨1, "first", ⟨2024, 1, 1, 0, 0⟩⟩),
   .race ⟨[⟨"second", none⟩, ⟨"third", some ⟨2024, 1, 2, 0, 0⟩⟩]⟩]

theorem rivals_come_first :
    let s := Store.empty.used contested
    let e : Entry := ⟨2, "late", ⟨2024, 1, 3, 0, 0⟩⟩
    (s.available = true ∧ e.id = s.log.length + 1 ∧ s.rivals ≠ .none) ∧
      (s.adopt e).1 = .error (.diverged 2 4) ∧
      (s.adopt e).2.log = s.log ++
        [⟨2, "second", ⟨2024, 1, 3, 0, 0⟩⟩, ⟨3, "third", ⟨2024, 1, 2, 0, 0⟩⟩] := by
  intro s e
  have hrace : s.available = true ∧ e.id = s.log.length + 1 ∧ s.rivals ≠ .none := by
    refine ⟨rfl, rfl, ?_⟩
    intro h
    cases congrArg Rivals.writers h
  obtain ⟨-, -, -, hadopt⟩ := log_stays_numbered contested
  have hraced := (hadopt e).2.1 hrace
  rw [hraced]
  exact ⟨hrace, rfl, rfl⟩

end Store
end Accord
