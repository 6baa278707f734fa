import Accord.Proofs.Json.Value
import Accord.Proofs.Time.Text

/-! # Messages are read as they were written

A message is read if each field of its payload is read, the parts of an object or an array one by
one. So a batch is read as the entries that it was written for, with their ids, texts and times, and
an announcement as the leader that it names. -/
namespace Accord

namespace Json

/-! ## Values from their parts -/

theorem fields?_of_readFields {depth : Nat} {fs gs : List (String × Json)}
    (h : ReadFields depth fs gs) : Written.fields? depth (writtenFields fs) = some gs := by
  induction h with
  | nil => rfl
  | @cons f g _ _ hfg _ ih =>
    obtain ⟨k, v⟩ := f
    obtain ⟨l, w⟩ := g
    obtain ⟨rfl, hw⟩ := hfg
    rw [writtenFields, Written.fields?, stringOf?_piecesOf, hw, ih]
    rfl

theorem value?_of_readFields {depth : Nat} {fs gs : List (String × Json)}
    (h : ReadFields depth fs gs) :
    Written.value? (depth + 1) (writtenOf (.object fs)) = some (ofFields gs) := by
  rw [writtenOf, Written.value?, if_neg (Nat.succ_ne_zero depth), Nat.add_sub_cancel,
    fields?_of_readFields h]
  rfl

theorem value?_array {α : Type} {depth : Nat} {write read : α → Json} {xs : List α}
    (h : ∀ x ∈ xs, Written.value? depth (writtenOf (write x)) = some (read x)) :
    Written.value? (depth + 1) (writtenOf (.array (xs.map write))) =
      some (.array (xs.map read)) := by
  have hitems : Written.values? depth (writtenItems (xs.map write)) = some (xs.map read) := by
    induction xs with
    | nil => rfl
    | cons x xs ih =>
      rw [List.map_cons, writtenItems, Written.values?, h x (by simp),
        ih fun y hy => h y (by simp [hy])]
      rfl
  rw [writtenOf, Written.value?, if_neg (Nat.succ_ne_zero depth), Nat.add_sub_cancel, hitems]
  rfl

theorem isFaithful_natural {n : Nat} (h : n < Text.wordLimit) : (natural n).isFaithful = true := by
  have hlt : (n : Int) < Text.wordLimit := Int.ofNat_lt.mpr h
  simp only [natural, isFaithful, JsonNumber.isFaithful, Bool.and_eq_true, decide_eq_true_eq]
  exact ⟨by omega, hlt⟩

theorem value?_word (depth : Nat) {n : Nat} (h : n < Text.wordLimit) :
    Written.value? depth (writtenOf (.natural n)) = some (.natural n) := by
  have hheight : (natural n).height = 0 := by simp [natural, height]
  rw [value?_writtenOf depth _ (isFaithful_natural h), hheight, if_pos (Nat.zero_le depth)]

theorem natural?_natural {limit n : Nat} (h : n < limit) :
    Json.natural? limit (.natural n) = some n := if_pos h

end Json

open Json (ReadFields)

/-! ## Entries -/

/-- An entry whose id fits 64 bits and whose time is one of the calendar. -/
def Entry.isPortable (e : Entry) : Bool := e.id < Text.wordLimit && e.time.isValid

/-- The value that the text of an entry is read as: its fields in the order of their names. -/
def Entry.asRead (e : Entry) : Json :=
  .ofFields [("id", .natural e.id), ("command", .string e.command),
    ("commandtime", .string e.time.text)]

theorem Entry.value?_written {e : Entry} (h : e.isPortable = true) (depth : Nat) :
    Json.Written.value? (depth + 1) (Json.writtenOf (e.toJsonWith Instant.text)) =
      some e.asRead := by
  simp only [isPortable, Bool.and_eq_true, decide_eq_true_eq] at h
  exact Json.value?_of_readFields (.cons ⟨rfl, Json.value?_word depth h.1⟩
    (.cons ⟨rfl, Json.value?_string depth _⟩ (.cons ⟨rfl, Json.value?_string depth _⟩ .nil)))

theorem Entry.ofJson?_asRead {e : Entry} (h : e.isPortable = true) :
    Entry.ofJson? e.asRead = some e := by
  simp only [isPortable, Bool.and_eq_true, decide_eq_true_eq] at h
  rw [Entry.ofJson?, asRead, Json.slots?_ofFields _ (by simp [Keyed.keys])]
  simp [Keyed.get?, Json.required?, Json.natural?_natural h.1, Json.string?,
    Instant.ofText?_text h.2]

/-! ## Messages -/

namespace Message

theorem ofText_of_payload {m m' : Message} {payload : Json}
    (hv : Json.Written.value? (Json.nestingLimit - 1)
      (Json.writtenOf (m.payloadWith Instant.text)) = some payload)
    (hp : ofPayload? m.kind payload = some m') : ofText m.text = .ok m' := by
  have hread : ReadFields (Json.nestingLimit - 1)
      [("type", .string m.kind.tag), ("payload", m.payloadWith Instant.text)]
      [("type", .string m.kind.tag), ("payload", payload)] :=
    .cons ⟨rfl, Json.value?_string _ _⟩ (.cons ⟨rfl, hv⟩ .nil)
  have hvalue : Json.Written.value? Json.nestingLimit (Json.writtenOf
      (.object [("type", .string m.kind.tag), ("payload", m.payloadWith Instant.text)])) =
      some (Json.ofFields [("type", .string m.kind.tag), ("payload", payload)]) :=
    Json.value?_of_readFields hread
  have hget (name : String) : Keyed.get? name (Keyed.ofList
      [("type", Json.string m.kind.tag), ("payload", payload)]) =
      Keyed.get? name [("type", .string m.kind.tag), ("payload", payload)] :=
    Keyed.get?_ofList name (by simp [Keyed.keys])
  rw [ofText, Json.ofText?, Json.parse?, text, textWith, Json.text, String.toList_ofList,
    Json.read?_render, Option.bind_some, hvalue]
  simp [ofJson, tag?, Json.field?, Json.ofFields, hget, Keyed.get?, Json.string?, ofTag?_tag, hp]

theorem ofJson?_memberId {id : MemberId} (h : id < Text.wordLimit) :
    MemberId.ofJson? (.natural id) = some id := if_pos h

/-- An announcement is read as it was written. -/
theorem ofText_text_announcement {leader : MemberId} (h : leader < Text.wordLimit) :
    ofText (text (.announcement leader)) = .ok (.announcement leader) := by
  have hread : ReadFields (Json.nestingLimit - 2) [("serverId", .natural leader)]
      [("serverId", .natural leader)] :=
    .cons ⟨rfl, Json.value?_word _ h⟩ .nil
  refine ofText_of_payload (Json.value?_of_readFields hread) ?_
  simp [kind, ofPayload?, Json.slots?_ofFields, Keyed.keys, Keyed.get?, Json.required?,
    ofJson?_memberId h]

theorem entries?_asRead {entries : List Entry} (h : ∀ e ∈ entries, e.isPortable = true) :
    entries? (.array (entries.map Entry.asRead)) = some entries := by
  rw [entries?, Json.array?, Option.bind_some]
  induction entries with
  | nil => rfl
  | cons e rest ih =>
    rw [List.map_cons, List.mapM_cons, Entry.ofJson?_asRead (h e (by simp)),
      ih fun x hx => h x (by simp [hx])]
    rfl

/-- A batch is read as it was written. -/
theorem ofText_text_batch {leader : MemberId} {entries : List Entry}
    (hl : leader < Text.wordLimit) (he : ∀ e ∈ entries, e.isPortable = true) :
    ofText (text (.batch leader entries)) = .ok (.batch leader entries) := by
  have hitems : Json.Written.value? (Json.nestingLimit - 2)
      (Json.writtenOf (.array (entries.map (Entry.toJsonWith Instant.text)))) =
      some (.array (entries.map Entry.asRead)) :=
    Json.value?_array fun e hmem => Entry.value?_written (he e hmem) _
  have hread : ReadFields (Json.nestingLimit - 2)
      [("serverId", .natural leader),
        ("entries", .array (entries.map (Entry.toJsonWith Instant.text)))]
      [("serverId", .natural leader), ("entries", .array (entries.map Entry.asRead))] :=
    .cons ⟨rfl, Json.value?_word _ hl⟩ (.cons ⟨rfl, hitems⟩ .nil)
  refine ofText_of_payload (Json.value?_of_readFields hread) ?_
  simp [kind, ofPayload?, Json.slots?_ofFields, Keyed.keys, Keyed.get?, Json.required?,
    ofJson?_memberId hl, entries?_asRead he]

end Message
end Accord
