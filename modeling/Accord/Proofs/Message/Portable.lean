import Accord.Proofs.Keyed
import Accord.Proofs.Message.RoundTrip

/-! # Every message is read as it was written

A message can be written if its numbers fit their 64 bits, the values that it carries are proper
ones and the times of its entries are those of the calendar. Of floats no more is asked than that
the text of each one is read as that float. Whatever its kind, with or without the fields that may
be left out, the text of such a message is read as that message unless it is nested too deeply. -/
namespace Accord

/-! ## Proper values -/

/-- Integers fit 64 bits, with a sign or without. -/
def JsonNumber.isProper : JsonNumber → Bool
  | .integer i => -(Text.signedLimit : Int) ≤ i && i < Text.wordLimit
  | .float _ => true

/-- The text of a float is read as that float. -/
def Number.Binary64.ReadsBack (x : Number.Binary64) : Prop :=
  Json.ofText? (Json.text (.number (.float x))) = some (.number (.float x))

theorem Number.Binary64.ReadsBack.isFaithful {x : Number.Binary64} (h : x.ReadsBack) :
    (JsonNumber.float x).isFaithful = true := beq_iff_eq.mpr (Json.numeral_value?_of_ofText? h)

namespace Json

mutual

/-- A value whose integers fit 64 bits and whose objects have their names in order. -/
def isProper : Json → Bool
  | .number n => n.isProper
  | .array vs => itemsProper vs
  | .object fs => (Keyed.keys fs).Pairwise (· < ·) && fieldsProper fs
  | _ => true

def itemsProper : List Json → Bool
  | [] => true
  | v :: vs => isProper v && itemsProper vs

def fieldsProper : List (String × Json) → Bool
  | [] => true
  | (_, v) :: fs => isProper v && fieldsProper fs

end

mutual

/-- The floats in a value. -/
def floats : Json → List Number.Binary64
  | .number (.float x) => [x]
  | .array vs => itemFloats vs
  | .object fs => fieldFloats fs
  | _ => []

def itemFloats : List Json → List Number.Binary64
  | [] => []
  | v :: vs => floats v ++ itemFloats vs

def fieldFloats : List (String × Json) → List Number.Binary64
  | [] => []
  | (_, v) :: fs => floats v ++ fieldFloats fs

end

mutual

theorem isFaithful_of_isProper (v : Json) (h : v.isProper = true)
    (hf : ∀ x ∈ v.floats, x.ReadsBack) : v.isFaithful = true := by
  match v with
  | .null => rfl
  | .bool b => rfl
  | .string s => rfl
  | .number (.integer i) =>
    rw [isProper] at h
    rw [isFaithful]
    exact h
  | .number (.float x) =>
    rw [isFaithful]
    exact (hf x (by rw [floats]; exact List.mem_singleton_self x)).isFaithful
  | .array vs =>
    rw [isProper] at h
    rw [floats] at hf
    rw [isFaithful]
    exact itemsFaithful_of_itemsProper vs h hf
  | .object fs =>
    rw [isProper, Bool.and_eq_true] at h
    rw [floats] at hf
    rw [isFaithful, Bool.and_eq_true]
    exact ⟨h.1, fieldsFaithful_of_fieldsProper fs h.2 hf⟩

theorem itemsFaithful_of_itemsProper (vs : List Json) (h : itemsProper vs = true)
    (hf : ∀ x ∈ itemFloats vs, x.ReadsBack) : itemsFaithful vs = true := by
  match vs with
  | [] => rfl
  | v :: vs =>
    rw [itemsProper, Bool.and_eq_true] at h
    rw [itemFloats, List.forall_mem_append] at hf
    rw [itemsFaithful, Bool.and_eq_true]
    exact ⟨isFaithful_of_isProper v h.1 hf.1, itemsFaithful_of_itemsProper vs h.2 hf.2⟩

theorem fieldsFaithful_of_fieldsProper (fs : List (String × Json)) (h : fieldsProper fs = true)
    (hf : ∀ x ∈ fieldFloats fs, x.ReadsBack) : fieldsFaithful fs = true := by
  match fs with
  | [] => rfl
  | (k, v) :: fs =>
    rw [fieldsProper, Bool.and_eq_true] at h
    rw [fieldFloats, List.forall_mem_append] at hf
    rw [fieldsFaithful, Bool.and_eq_true]
    exact ⟨isFaithful_of_isProper v h.1 hf.1, fieldsFaithful_of_fieldsProper fs h.2 hf.2⟩

end

end Json

/-! ## Messages -/

namespace Message

/-- The value that a message is written as. -/
def encoded (m : Message) : Json :=
  .object [("type", .string m.kind.tag), ("payload", m.payloadWith Instant.text)]

/-- The values that a message carries for its statement. -/
def values : Message → List Json
  | .roundRequest _ command _ => command.bound
  | _ => []

/-- Ids, log ids and rounds have 64 bits, the log id of a heartbeat with a sign; entries and values
can be written. -/
def isPortable : Message → Bool
  | .hello node => node < Text.wordLimit
  | .voteRequest candidate logId round =>
    candidate < Text.wordLimit && logId < Text.wordLimit && round.all (· < Text.wordLimit)
  | .vote voter _ round => voter < Text.wordLimit && round.all (· < Text.wordLimit)
  | .announcement leader => leader < Text.wordLimit
  | .heartbeat leader logId =>
    leader < Text.wordLimit && -(Text.signedLimit : Int) ≤ logId && logId < Text.signedLimit
  | .entriesRequest follower logId => follower < Text.wordLimit && logId < Text.wordLimit
  | .batch leader entries => leader < Text.wordLimit && entries.all (·.isPortable)
  | .roundRequest _ command round =>
    Json.itemsProper command.bound && round.all (· < Text.wordLimit)
  | .roundAnswer _ round => round.all (· < Text.wordLimit)
  | .applyEntry logId => logId < Text.wordLimit
  | .deleteEntry logId => logId < Text.wordLimit

/-- A message whose payload has only fields that are read as they were written. -/
theorem ofText_of_fields {m : Message} {fs : List (String × Json)}
    (hw : m.payloadWith Instant.text = .object fs) (hk : (Keyed.keys fs).Nodup)
    (hf : Json.fieldsFaithful fs = true) (hh : m.encoded.height ≤ Json.nestingLimit)
    (hp : ∀ payload : Json,
      (∀ names, payload.slots? names = some (names.map fun name => Keyed.get? name fs)) →
        ofPayload? m.kind payload = some m) : ofText m.text = .ok m := by
  have hdepth : Json.fieldsHeight fs ≤ Json.nestingLimit - 2 := by
    simp only [encoded, hw, Json.height, Json.fieldsHeight] at hh
    omega
  have hlimit : Json.nestingLimit - 1 = Json.nestingLimit - 2 + 1 := rfl
  refine ofText_of_payload ?_ (hp (.ofFields fs) fun names => Json.slots?_ofFields names hk)
  rw [hw, hlimit, Json.writtenOf, Json.Written.value?, if_neg (Nat.succ_ne_zero _),
    Nat.add_sub_cancel, Json.fields?_writtenFields _ fs hf, if_pos hdepth]
  rfl

theorem fieldsFaithful_roundField {round : Option Nat} (h : round.all (· < Text.wordLimit) = true) :
    Json.fieldsFaithful (roundField round) = true := by
  cases round with
  | none => rfl
  | some n =>
    have hn : n < Text.wordLimit := by simpa using h
    simp [roundField, Json.fieldsFaithful, Json.isFaithful_natural hn]

theorem word?_natural {n : Nat} (h : n < Text.wordLimit) : word? (.natural n) = some n := if_pos h

theorem signedWord?_integer {i : Int} (hl : -(Text.signedLimit : Int) ≤ i)
    (hu : i < Text.signedLimit) : signedWord? (.integer i) = some i := by
  simp [signedWord?, Json.integer?, Json.integer, hl, hu]

theorem isFaithful_signed {i : Int} (hl : -(Text.signedLimit : Int) ≤ i)
    (hu : i < Text.signedLimit) : (Json.integer i).isFaithful = true := by
  have hlimit : (Text.signedLimit : Int) < Text.wordLimit := by decide
  simp only [Json.integer, Json.isFaithful, JsonNumber.isFaithful, Bool.and_eq_true,
    decide_eq_true_eq]
  omega

theorem isFaithful_values {command : Command} (h : Json.itemsProper command.bound = true)
    (hf : ∀ x ∈ Json.itemFloats command.bound, x.ReadsBack) :
    (Json.ofOption (command.values.map Json.array)).isFaithful = true := by
  have hitems := Json.itemsFaithful_of_itemsProper command.bound h hf
  rw [Command.bound] at hitems
  cases hv : command.values with
  | none => rfl
  | some vs =>
    rw [hv, Option.getD_some] at hitems
    simpa [Json.ofOption, Json.isFaithful] using hitems

theorem method?_word (method : Method) : method? (.string method.word) = some method := by
  cases method <;> rfl

/-- The number of a round is read from its field, and none from a missing one. -/
theorem optional?_round {round : Option Nat} (h : round.all (· < Text.wordLimit) = true) :
    Json.optional? word? (round.map Json.natural) = some round := by
  cases round with
  | none => rfl
  | some n =>
    have hn : n < Text.wordLimit := by simpa using h
    rw [Option.map_some, Json.optional?, Json.natural, Json.nullable?]
    · rw [← Json.natural, word?_natural hn]
      rfl
    · intro hnull
      cases hnull

theorem optional?_values (values : Option (List Json)) :
    Json.optional? Json.array? (some (.ofOption (values.map Json.array))) = some values := by
  cases values with
  | none => rfl
  | some vs => rfl

theorem get?_roundField (round : Option Nat) :
    Keyed.get? "round" (roundField round) = round.map Json.natural := by
  cases round with
  | none => rfl
  | some n => rfl

theorem keys_roundField (round : Option Nat) :
    Keyed.keys (roundField round) = (round.map fun _ => "round").toList := by
  cases round with
  | none => rfl
  | some n => rfl

theorem nodup_keys_roundField (round : Option Nat) : (Keyed.keys (roundField round)).Nodup := by
  rw [keys_roundField]
  cases round with
  | none => exact List.nodup_nil
  | some n => exact List.nodup_singleton _

theorem mem_keys_roundField {name : String} {round : Option Nat} :
    name ∈ Keyed.keys (roundField round) ↔ round.isSome = true ∧ name = "round" := by
  rw [keys_roundField]
  cases round with
  | none => simp
  | some n => simp

/-- A message is read as it was written. -/
theorem ofText_text {m : Message} (h : m.isPortable = true)
    (hf : ∀ x ∈ Json.itemFloats m.values, x.ReadsBack)
    (hh : m.encoded.height ≤ Json.nestingLimit) : ofText m.text = .ok m := by
  cases m with
  | hello node =>
    simp only [isPortable, decide_eq_true_eq] at h
    refine ofText_of_fields rfl ?_ ?_ hh ?_
    · simp [Keyed.keys]
    · simp [Json.fieldsFaithful, Json.isFaithful_natural h]
    · intro payload hslots
      simp [kind, ofPayload?, hslots, Keyed.get?, Json.required?, ofJson?_memberId h]
  | voteRequest candidate logId round =>
    simp only [isPortable, Bool.and_eq_true, decide_eq_true_eq] at h
    obtain ⟨⟨hcandidate, hlog⟩, hround⟩ := h
    refine ofText_of_fields rfl ?_ ?_ hh ?_
    · simp [Keyed.keys_cons, mem_keys_roundField, nodup_keys_roundField]
    · simp [Json.fieldsFaithful, Json.isFaithful_natural hcandidate, Json.isFaithful_natural hlog,
        fieldsFaithful_roundField hround]
    · intro payload hslots
      simp [kind, ofPayload?, hslots, Keyed.get?, Json.required?, ofJson?_memberId hcandidate,
        word?_natural hlog, get?_roundField, optional?_round hround]
  | vote voter accept round =>
    simp only [isPortable, Bool.and_eq_true, decide_eq_true_eq] at h
    obtain ⟨hvoter, hround⟩ := h
    refine ofText_of_fields rfl ?_ ?_ hh ?_
    · simp [Keyed.keys_cons, mem_keys_roundField, nodup_keys_roundField]
    · simp [Json.fieldsFaithful, Json.isFaithful_natural hvoter, Json.isFaithful,
        fieldsFaithful_roundField hround]
    · intro payload hslots
      simp [kind, ofPayload?, hslots, Keyed.get?, Json.required?, ofJson?_memberId hvoter,
        Json.bool?, get?_roundField, optional?_round hround]
  | announcement leader =>
    simp only [isPortable, decide_eq_true_eq] at h
    exact ofText_text_announcement h
  | heartbeat leader logId =>
    simp only [isPortable, Bool.and_eq_true, decide_eq_true_eq] at h
    obtain ⟨⟨hleader, hlow⟩, hhigh⟩ := h
    refine ofText_of_fields rfl ?_ ?_ hh ?_
    · simp [Keyed.keys]
    · simp [Json.fieldsFaithful, Json.isFaithful_natural hleader, isFaithful_signed hlow hhigh]
    · intro payload hslots
      simp [kind, ofPayload?, hslots, Keyed.get?, Json.required?, ofJson?_memberId hleader,
        signedWord?_integer hlow hhigh]
  | entriesRequest follower logId =>
    simp only [isPortable, Bool.and_eq_true, decide_eq_true_eq] at h
    obtain ⟨hfollower, hlog⟩ := h
    refine ofText_of_fields rfl ?_ ?_ hh ?_
    · simp [Keyed.keys]
    · simp [Json.fieldsFaithful, Json.isFaithful_natural hfollower, Json.isFaithful_natural hlog]
    · intro payload hslots
      simp [kind, ofPayload?, hslots, Keyed.get?, Json.required?, ofJson?_memberId hfollower,
        word?_natural hlog]
  | batch leader entries =>
    simp only [isPortable, Bool.and_eq_true, decide_eq_true_eq, List.all_eq_true] at h
    exact ofText_text_batch h.1 h.2
  | roundRequest method command round =>
    simp only [isPortable, Bool.and_eq_true] at h
    obtain ⟨hvalues, hround⟩ := h
    refine ofText_of_fields rfl ?_ ?_ hh ?_
    · simp [Keyed.keys_cons, mem_keys_roundField, nodup_keys_roundField]
    · simp [Json.fieldsFaithful, Json.isFaithful, isFaithful_values hvalues hf,
        fieldsFaithful_roundField hround]
    · intro payload hslots
      simp [kind, ofPayload?, hslots, Keyed.get?, Json.required?, method?_word, Json.string?,
        optional?_values, get?_roundField, optional?_round hround]
  | roundAnswer digest round =>
    simp only [isPortable] at h
    refine ofText_of_fields rfl ?_ ?_ hh ?_
    · simp [Keyed.keys_cons, mem_keys_roundField, nodup_keys_roundField]
    · simp [Json.fieldsFaithful, Json.isFaithful, fieldsFaithful_roundField h]
    · intro payload hslots
      simp [kind, ofPayload?, hslots, Keyed.get?, Json.required?, Json.string?, get?_roundField,
        optional?_round h]
  | applyEntry logId =>
    simp only [isPortable, decide_eq_true_eq] at h
    refine ofText_of_fields rfl ?_ ?_ hh ?_
    · simp [Keyed.keys]
    · simp [Json.fieldsFaithful, Json.isFaithful_natural h]
    · intro payload hslots
      simp [kind, ofPayload?, hslots, Keyed.get?, Json.required?, word?_natural h]
  | deleteEntry logId =>
    simp only [isPortable, decide_eq_true_eq] at h
    refine ofText_of_fields rfl ?_ ?_ hh ?_
    · simp [Keyed.keys]
    · simp [Json.fieldsFaithful, Json.isFaithful_natural h]
    · intro payload hslots
      simp [kind, ofPayload?, hslots, Keyed.get?, Json.required?, word?_natural h]

end Message
end Accord
