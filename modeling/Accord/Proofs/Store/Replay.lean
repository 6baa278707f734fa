import Accord.Proofs.Message.Frames
import Accord.Proofs.Store.Rivals

/-! # Replaying the log

The log keeps the text of a command, and a replay reads it again. A command whose values are not
nested too deeply is read as it was, so replaying its entry does what the command itself would do,
however long ago the entry was appended. The two differ only out of reach: a replay cannot look up
the entry then, while a text that is no statement is refused without looking at the tables. -/
namespace Accord

/-- A command that the log gives back: its values are proper ones of at most 125 levels, and the
text of each of their floats is read as that float. -/
structure Command.Storable (c : Command) : Prop where
  proper : ∀ v ∈ c.bound, v.isProper = true
  shallow : ∀ v ∈ c.bound, v.height ≤ 125
  floats : ∀ v ∈ c.bound, ∀ x ∈ v.floats, x.ReadsBack

theorem Command.Storable.ofText?_text {c : Command} (h : c.Storable) :
    Command.ofText? c.text = some c := by
  have hfaithful : c.isFaithful = true := Json.itemsFaithful_iff.mpr fun v hv =>
    Json.isFaithful_of_isProper v (h.proper v hv) (h.floats v hv)
  have hheight : Json.itemsHeight c.bound ≤ Json.nestingLimit - 2 :=
    Json.itemsHeight_le_iff.mpr h.shallow
  rw [Command.ofText?_text hfaithful, if_pos hheight]

namespace Store

variable {s : Store}

theorem commandOf_text {c : Command} (h : c.Storable) (id : Nat) (time : Instant) (s : Store) :
    s.commandOf ⟨id, c.text, time⟩ = .ok c := by
  simp only [commandOf, h.ofText?_text]

/-- In reach, the replay of an entry of the log runs its command. -/
theorem apply_of_mem (hn : s.log.Numbered) {e : Entry} (he : e ∈ s.log) {c : Command}
    (hc : s.commandOf e = .ok c) : s.apply e.id =
      if s.available then s.execute c.query c.bound else (.error .unavailable, s) := by
  by_cases ha : s.available = true
  · have hcommand : s.command e.id = .ok c := by
      rw [command, entry, whenAvailable, if_pos ha, hn.withId?_of_mem he]
      exact hc
    rw [apply, hcommand, if_pos ha]
  · have hcommand : s.command e.id = .error .unavailable := by
      rw [command, entry, whenAvailable, if_neg ha]
      rfl
    rw [apply, hcommand, if_neg ha]

/-- Out of reach nothing is run, but a text that is no statement is told from one that is. -/
theorem execute_of_not_available (ha : s.available = false) (query : String) (bound : List Json) :
    (s.execute query bound).2 = s ∧
      ((s.execute query bound).1 = .error .unavailable ↔ (Sql.prepare query bound).isOk = true) := by
  rw [execute]
  cases Sql.prepare query bound with
  | error cause => simp [Except.isOk, Except.toBool]
  | ok statement => simp [ha, Except.isOk, Except.toBool]

theorem append_of_available (hn : s.log.Numbered) (ha : s.available = true) (c : Command)
    (now : Instant) : ∃ id, (s.append c now).1 = .ok id ∧
      ⟨id, c.text, now⟩ ∈ (s.append c now).2.log := by
  rw [append, appendText_eq hn, if_pos ha]
  exact ⟨_, rfl, by simp⟩

/-- A command is appended to a store in reach, and its entry is read as that command. Whatever else
is done to the store, as long as the entry is in the log its replay does what running the command
does. Out of reach both leave the store as it is, and give one result if the text is a statement. -/
theorem replay_eq_execute {c : Command} (hc : c.Storable) (before after : List Usage)
    (now : Instant) :
    let s := Store.empty.used before
    let later := (s.append c now).2.used after
    s.available = true → ∃ id, (s.append c now).1 = .ok id ∧
      ⟨id, c.text, now⟩ ∈ (s.append c now).2.log ∧
      (∀ any : Store, any.commandOf ⟨id, c.text, now⟩ = .ok c) ∧
      (⟨id, c.text, now⟩ ∈ later.log →
        (later.available = true → later.apply id = later.execute c.query c.bound) ∧
        (later.available = false →
          (later.apply id).2 = (later.execute c.query c.bound).2 ∧
          (later.apply id = later.execute c.query c.bound ↔
            (Sql.prepare c.query c.bound).isOk = true))) := by
  intro s later ha
  have hn : s.log.Numbered := used_log (s := Store.empty) Log.numbered_nil before
  have hlater : later.log.Numbered := used_log (appendText_log hn c.text now).1 after
  obtain ⟨id, hid, hmem⟩ := append_of_available hn ha c now
  have hcommand := commandOf_text hc id now
  refine ⟨id, hid, hmem, hcommand, fun hkept => ?_⟩
  have happly : later.apply id =
      if later.available then later.execute c.query c.bound else (.error .unavailable, later) :=
    apply_of_mem hlater hkept (hcommand later)
  constructor
  · intro hreach
    rw [happly, if_pos hreach]
  · intro hreach
    obtain ⟨hstore, hresult⟩ := execute_of_not_available hreach c.query c.bound
    rw [happly, hreach, if_neg Bool.false_ne_true, hstore]
    refine ⟨rfl, fun h => hresult.mp ?_, fun h => Prod.ext (hresult.mpr h).symm hstore.symm⟩
    rw [← h]

/-- An insertion with what is hard to write, in its text and in its value. -/
def intricate : Command :=
  ⟨"INSERT INTO \"é\\\n\" (v) VALUES (?)",
    some [.object [("", .array [.number (.float Message.tenth), .null]), ("\"\x00", .string "ß")]]⟩

theorem intricate_storable : intricate.Storable where
  proper := by decide +kernel
  shallow := by decide +kernel
  floats := by
    have hfloats : intricate.bound.flatMap Json.floats = [Message.tenth] := by decide +kernel
    intro v hv x hx
    have hmem := List.mem_flatMap.mpr ⟨v, hv, hx⟩
    rw [hfloats, List.mem_singleton] at hmem
    rw [hmem]
    exact Message.tenth_readsBack

/-- The table is made, a rival appends, and the store is out of reach for a while. -/
def meanwhile : List Usage :=
  [.act (.query ⟨"CREATE TABLE \"é\\\n\" (v)", some []⟩), .race ⟨[⟨"fifth", none⟩]⟩,
   .act (.vote ⟨"sixth", some []⟩ ⟨2024, 1, 4, 0, 0⟩), .act (.reach false), .act (.remove 6),
   .act (.reach true)]

theorem intricate_replayed :
    let s := Store.empty.used contested
    let later := (s.append intricate ⟨2024, 1, 3, 0, 0⟩).2.used meanwhile
    intricate.Storable ∧ s.available = true ∧
      ⟨4, intricate.text, ⟨2024, 1, 3, 0, 0⟩⟩ ∈ later.log ∧ later.available = true ∧
      later.apply 4 = later.execute intricate.query intricate.bound := by
  intro s later
  have hkept : ⟨4, intricate.text, ⟨2024, 1, 3, 0, 0⟩⟩ ∈ later.log := by decide +kernel
  have hreach : later.available = true := by decide +kernel
  obtain ⟨id, hid, -, -, hreplay⟩ :=
    replay_eq_execute intricate_storable contested meanwhile ⟨2024, 1, 3, 0, 0⟩ rfl
  obtain rfl : 4 = id := Except.ok.inj hid
  exact ⟨intricate_storable, rfl, hkept, hreach, (hreplay hkept).1 hreach⟩

end Store
end Accord
