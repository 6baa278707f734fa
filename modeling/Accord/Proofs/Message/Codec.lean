import Accord.Message.Codec
import Accord.Proofs.Json.Reading
import Accord.Proofs.Keyed

/-! # Messages are read as they were written

A message that is read from the text of a message is of the same kind, and the messages of an
election are read as they are or not at all: numbers that do not fit 64 bits are refused, and all
others are exact. -/
namespace Accord

namespace Json

theorem slots?_ofFields (names : List String) {fs : List (String × Json)}
    (hk : (Keyed.keys fs).Nodup) :
    slots? names (ofFields fs) = some (names.map fun name => Keyed.get? name fs) := by
  rw [ofFields, slots?]
  congr 1
  exact List.map_congr_left fun name _ => Keyed.get?_ofList name hk

/-! ## Values -/

theorem joinPieces?_unit {n : Nat} (h : n < 0xD800) (rest : List Piece) :
    joinPieces? (.unit n :: rest) = (joinPieces? rest).map (Char.ofNat n :: ·) := by
  match rest with
  | [] => simp [joinPieces?, h]
  | .char c :: rest => simp [joinPieces?, h]
  | .unit m :: rest => simp [joinPieces?, h]

theorem joinPieces?_pieces (cs : List Char) : joinPieces? (cs.map pieceOf) = some cs := by
  induction cs with
  | nil => rfl
  | cons c cs ih =>
    rw [List.map_cons, pieceOf]
    split
    · rename_i h
      simp only [Bool.and_eq_true, decide_eq_true_eq] at h
      rw [joinPieces?_unit (by omega), ih, Char.ofNat_toNat]
      rfl
    · rw [joinPieces?, ih]
      rfl

theorem stringOf?_piecesOf (s : String) : stringOf? (piecesOf s) = some s := by
  rw [stringOf?, piecesOf, joinPieces?_pieces]
  simp

theorem value?_string (depth : Nat) (s : String) :
    Written.value? depth (writtenOf (.string s)) = some (.string s) := by
  rw [writtenOf, Written.value?, stringOf?_piecesOf]
  rfl

/-- The fields of an object that is read are the fields that were written, each with the value that
is read for it. -/
def ReadFields (depth : Nat) : List (String × Json) → List (String × Json) → Prop :=
  List.Forall₂ fun f g => g.1 = f.1 ∧ Written.value? depth (writtenOf f.2) = some g.2

theorem readFields_of_fields? {depth : Nat} : ∀ {fs gs : List (String × Json)},
    Written.fields? depth (writtenFields fs) = some gs → ReadFields depth fs gs
  | [], gs, h => by
    cases h
    exact .nil
  | (k, v) :: fs, gs, h => by
    rw [writtenFields, Written.fields?, stringOf?_piecesOf] at h
    simp only [Option.bind_eq_bind, Option.bind_some, Option.bind_eq_some_iff, Option.pure_def,
      Option.some.injEq] at h
    obtain ⟨w, hw, gs', hg, rfl⟩ := h
    exact .cons ⟨rfl, hw⟩ (readFields_of_fields? hg)

theorem readFields_of_value? {depth : Nat} {fs : List (String × Json)} {w : Json}
    (h : Written.value? depth (writtenOf (.object fs)) = some w) :
    ∃ gs, w = ofFields gs ∧ ReadFields (depth - 1) fs gs := by
  rw [writtenOf, Written.value?] at h
  split at h
  · cases h
  · obtain ⟨gs, hg, rfl⟩ := Option.map_eq_some_iff.mp h
    exact ⟨gs, rfl, readFields_of_fields? hg⟩

theorem ReadFields.keys {depth : Nat} {fs gs : List (String × Json)} (h : ReadFields depth fs gs) :
    Keyed.keys gs = Keyed.keys fs := by
  induction h with
  | nil => rfl
  | cons hfg _ ih =>
    simp only [Keyed.keys, List.map_cons] at ih ⊢
    rw [hfg.1, ih]

theorem ReadFields.get?_none {depth : Nat} {fs gs : List (String × Json)}
    (h : ReadFields depth fs gs) {name : String} (hn : Keyed.get? name fs = none) :
    Keyed.get? name gs = none := by
  apply Keyed.get?_eq_none_of_not_mem
  rw [h.keys, Keyed.mem_keys_iff, hn]
  simp

theorem ReadFields.get?_some {depth : Nat} {fs gs : List (String × Json)}
    (h : ReadFields depth fs gs) {name : String} {v : Json} (hv : Keyed.get? name fs = some v) :
    ∃ w, Keyed.get? name gs = some w ∧ Written.value? depth (writtenOf v) = some w := by
  induction h with
  | nil => cases hv
  | @cons f g _ _ hfg _ ih =>
    obtain ⟨k, v'⟩ := f
    obtain ⟨l, w⟩ := g
    obtain ⟨rfl, hw⟩ := hfg
    rw [Keyed.get?] at hv ⊢
    split at hv
    · rename_i hk
      cases hv
      exact ⟨w, if_pos hk, hw⟩
    · rename_i hk
      rw [if_neg hk]
      exact ih hv

theorem absorb_whole : ∀ (ds : List Nat) (sig : Nat), (absorb sig ds).2 = 0 →
    (absorb sig ds).1 = ds.foldl (fun acc d => 10 * acc + d) sig
  | [], _, _ => rfl
  | d :: ds, sig, h => by
    rw [absorb] at h ⊢
    split at h
    · rename_i hd
      rw [if_pos hd]
      exact absorb_whole ds _ h
    · cases h

theorem integer_of_value? {negative : Bool} {ds : List Nat} {j : Int}
    (h : Numeral.value? ⟨negative, ds, [], none⟩ = some (.integer j)) :
    j = if negative then -(ofDigits ds : Int) else ofDigits ds := by
  have hf : ∀ x : Option Number.Binary64, x.map JsonNumber.float ≠ some (.integer j) := by
    intro x
    cases x <;> simp
  simp only [Numeral.value?, List.isEmpty_nil, Option.isNone_none, Bool.true_and, beq_iff_eq] at h
  split at h
  · rename_i h0
    have ha : (absorb 0 ds).1 = ofDigits ds := absorb_whole ds 0 h0
    cases negative with
    | false =>
      simp only [Bool.not_false, if_true, Option.some.injEq, JsonNumber.integer.injEq, ha] at h
      exact h.symm
    | true =>
      rw [if_neg (by decide)] at h
      split at h
      · simp only [Option.some.injEq, JsonNumber.integer.injEq, ha] at h
        exact h.symm
      · exact absurd h (hf _)
  · exact absurd h (hf _)

/-- An integer that is read from the numeral of an integer is that integer. -/
theorem value?_integer {depth : Nat} {i j : Int} {w : Json}
    (hw : Written.value? depth (writtenOf (.number (.integer i))) = some w)
    (hj : w.integer? = some j) : j = i := by
  rw [writtenOf, Written.value?] at hw
  obtain ⟨n, hn, rfl⟩ := Option.map_eq_some_iff.mp hw
  cases n with
  | float x => cases hj
  | integer k =>
    cases hj
    rw [integer_of_value? hn, ofDigits_digits]
    by_cases hi : i < 0
    · rw [decide_eq_true hi, if_pos rfl]
      omega
    · rw [decide_eq_false hi, if_neg Bool.false_ne_true]
      omega

theorem integer?_of_natural? {limit k : Nat} {w : Json} (h : w.natural? limit = some k) :
    w.integer? = some (k : Int) := by
  unfold natural? at h
  split at h
  · split at h
    · cases h; rfl
    · cases h
  · cases h

theorem value?_natural {depth n k limit : Nat} {w : Json}
    (hw : Written.value? depth (writtenOf (.natural n)) = some w)
    (hk : w.natural? limit = some k) : k = n :=
  Int.ofNat_inj.mp (value?_integer hw (integer?_of_natural? hk))

theorem value?_memberId {depth n : Nat} {k : MemberId} {w : Json}
    (hw : Written.value? depth (writtenOf (.natural n)) = some w)
    (hk : MemberId.ofJson? w = some k) : k = n := by
  have hs : w.integer?.isSome = true ∨ ∃ x, w = .number (.float x) := by
    rw [natural, writtenOf, Written.value?] at hw
    obtain ⟨m, _, rfl⟩ := Option.map_eq_some_iff.mp hw
    cases m with
    | integer i => exact .inl rfl
    | float x => exact .inr ⟨x, rfl⟩
  rcases hs with hs | ⟨x, rfl⟩
  · unfold MemberId.ofJson? at hk
    split at hk
    · cases hs
    · exact value?_natural hw hk
  · cases hk

end Json

namespace Message
open Json

/-! ## Kinds -/

theorem kind_of_ofPayload? {kind : Kind} {payload : Json} {m : Message}
    (h : ofPayload? kind payload = some m) : m.kind = kind := by
  cases kind <;> unfold ofPayload? at h <;> dsimp only at h <;> split at h <;>
    simp only [Option.bind_eq_bind, Option.bind_eq_some_iff, Option.pure_def, Option.some.injEq,
      reduceCtorEq] at h
  all_goals
    first
    | obtain ⟨_, _, rfl⟩ := h; rfl
    | obtain ⟨_, _, _, _, rfl⟩ := h; rfl
    | obtain ⟨_, _, _, _, _, _, rfl⟩ := h; rfl
    | obtain ⟨_, _, _, _, _, _, _, _, rfl⟩ := h; rfl

theorem ofTag?_tag (kind : Kind) : Kind.ofTag? kind.tag = some kind := by
  cases kind <;> decide

/-- A message that is read has the kind of the one that was written, and it comes from the payload
that was written. -/
theorem payload_of_ofText {m m' : Message} (h : ofText m.text = .ok m') :
    ∃ payload, Written.value? (nestingLimit - 1) (writtenOf (m.payloadWith Instant.text)) =
      some payload ∧ ofPayload? m.kind payload = some m' := by
  rw [ofText, ofText?, text, textWith, Json.text, String.toList_ofList, parse?, read?_render,
    Option.bind_some] at h
  split at h
  · rename_i v hv
    obtain ⟨gs, rfl, hg⟩ := readFields_of_value? hv
    cases hg with
    | cons ht hg =>
      cases hg with
      | cons hp hg =>
        cases hg
        rename_i t p
        obtain ⟨k, t⟩ := t
        obtain ⟨l, p⟩ := p
        obtain ⟨rfl, ht⟩ := ht
        obtain ⟨rfl, hp⟩ := hp
        rw [value?_string] at ht
        cases ht
        refine ⟨p, hp, ?_⟩
        have hk : (Keyed.keys [("type", Json.string m.kind.tag), ("payload", p)]).Nodup := by
          simp [Keyed.keys]
        have hf (name : String) := Keyed.get?_ofList name hk
        simp only [ofJson, tag?, field?, ofFields, hf, Keyed.get?, if_true, String.reduceEq, if_false,
          Option.bind_some, string?, ofTag?_tag] at h
        split at h
        · cases h
          assumption
        · cases h
  · cases h

theorem kind_of_ofText {m m' : Message} (h : ofText m.text = .ok m') : m'.kind = m.kind := by
  obtain ⟨payload, _, hp⟩ := payload_of_ofText h
  exact kind_of_ofPayload? hp

/-! ## Fields of messages -/

section

variable {depth : Nat} {fs gs : List (String × Json)}

theorem read_memberId (hg : ReadFields depth fs gs) {name : String} {id k : MemberId}
    (hv : Keyed.get? name fs = some (.natural id))
    (hk : required? MemberId.ofJson? (Keyed.get? name gs) = some k) : k = id := by
  obtain ⟨w, hw, hval⟩ := hg.get?_some hv
  rw [hw] at hk
  exact value?_memberId hval hk

theorem read_word (hg : ReadFields depth fs gs) {name : String} {n k : Nat}
    (hv : Keyed.get? name fs = some (.natural n))
    (hk : required? word? (Keyed.get? name gs) = some k) : k = n := by
  obtain ⟨w, hw, hval⟩ := hg.get?_some hv
  rw [hw] at hk
  exact value?_natural hval hk

theorem read_bool (hg : ReadFields depth fs gs) {name : String} {b c : Bool}
    (hv : Keyed.get? name fs = some (.bool b))
    (hc : required? bool? (Keyed.get? name gs) = some c) : c = b := by
  obtain ⟨w, hw, hval⟩ := hg.get?_some hv
  rw [hw] at hc
  cases hval
  exact (Option.some.inj hc).symm

theorem read_signedWord (hg : ReadFields depth fs gs) {name : String} {i j : Int}
    (hv : Keyed.get? name fs = some (.integer i))
    (hj : required? signedWord? (Keyed.get? name gs) = some j) : j = i := by
  obtain ⟨w, hw, hval⟩ := hg.get?_some hv
  rw [hw, required?, Option.bind_some, signedWord?] at hj
  obtain ⟨k, hk, hj⟩ := Option.bind_eq_some_iff.mp hj
  split at hj
  · cases hj
    exact value?_integer hval hk
  · cases hj

theorem read_string (hg : ReadFields depth fs gs) {name : String} {a b : String}
    (hv : Keyed.get? name fs = some (.string a))
    (hb : required? string? (Keyed.get? name gs) = some b) : b = a := by
  obtain ⟨w, hw, hval⟩ := hg.get?_some hv
  rw [value?_string] at hval
  rw [hw] at hb
  cases hval
  exact (Option.some.inj hb).symm

theorem read_method (hg : ReadFields depth fs gs) {name : String} {a b : Method}
    (hv : Keyed.get? name fs = some (.string a.word))
    (hb : required? method? (Keyed.get? name gs) = some b) : b = a := by
  obtain ⟨w, hw, hval⟩ := hg.get?_some hv
  rw [value?_string] at hval
  rw [hw] at hb
  cases hval
  cases a <;> exact (Option.some.inj hb).symm

theorem read_null (hg : ReadFields depth fs gs) {name : String} {b : Option (List Json)}
    (hv : Keyed.get? name fs = some .null)
    (hb : optional? array? (Keyed.get? name gs) = some b) : b = none := by
  obtain ⟨w, hw, hval⟩ := hg.get?_some hv
  rw [hw] at hb
  cases hval
  exact (Option.some.inj hb).symm

theorem read_round (hg : ReadFields depth fs gs) {round k : Option Nat}
    (hv : Keyed.get? "round" fs = round.map Json.natural)
    (hk : optional? word? (Keyed.get? "round" gs) = some k) : k = round := by
  cases round with
  | none =>
    rw [hg.get?_none hv] at hk
    exact (Option.some.inj hk).symm
  | some r =>
    obtain ⟨w, hw, hval⟩ := hg.get?_some hv
    rw [hw, optional?] at hk
    unfold nullable? at hk
    split at hk
    · rw [Json.natural, writtenOf, Written.value?] at hval
      obtain ⟨_, _, h⟩ := Option.map_eq_some_iff.mp hval
      cases h
    · obtain ⟨n, hn, rfl⟩ := Option.map_eq_some_iff.mp hk
      rw [value?_natural hval hn]

end

/-- The fields of the payload that a message is read from. -/
theorem fields_of_ofText {m m' : Message} {fs : List (String × Json)}
    (hf : m.payloadWith Instant.text = .object fs) (h : ofText m.text = .ok m') :
    ∃ gs, ReadFields (nestingLimit - 2) fs gs ∧ ofPayload? m.kind (ofFields gs) = some m' := by
  obtain ⟨payload, hv, hp⟩ := payload_of_ofText h
  rw [hf] at hv
  obtain ⟨gs, rfl, hg⟩ := readFields_of_value? hv
  exact ⟨gs, hg, hp⟩

theorem ofText_vote {voter : MemberId} {accept : Bool} {round : Option Nat} {m : Message}
    (h : ofText (text (.vote voter accept round)) = .ok m) : m = .vote voter accept round := by
  obtain ⟨gs, hg, hp⟩ := fields_of_ofText rfl h
  have hk : (Keyed.keys gs).Nodup := by
    rw [hg.keys]
    cases round <;> simp [Keyed.keys, roundField]
  simp only [Message.kind, ofPayload?, slots?_ofFields _ hk, List.map_cons, List.map_nil,
    Option.bind_eq_bind, Option.bind_eq_some_iff, Option.pure_def, Option.some.injEq] at hp
  obtain ⟨k, hk, b, hb, r, hr, rfl⟩ := hp
  have hround : Keyed.get? "round" ([("serverId", .natural voter), ("acceptLeader", .bool accept)] ++
      roundField round) = round.map Json.natural := by cases round <;> rfl
  rw [read_memberId hg rfl hk, read_bool hg rfl hb, read_round hg hround hr]

theorem ofText_voteRequest {candidate : MemberId} {logId : Nat} {round : Option Nat} {m : Message}
    (h : ofText (text (.voteRequest candidate logId round)) = .ok m) :
    m = .voteRequest candidate logId round := by
  obtain ⟨gs, hg, hp⟩ := fields_of_ofText rfl h
  have hk : (Keyed.keys gs).Nodup := by
    rw [hg.keys]
    cases round <;> simp [Keyed.keys, roundField]
  simp only [Message.kind, ofPayload?, slots?_ofFields _ hk, List.map_cons, List.map_nil,
    Option.bind_eq_bind, Option.bind_eq_some_iff, Option.pure_def, Option.some.injEq] at hp
  obtain ⟨k, hk, l, hl, r, hr, rfl⟩ := hp
  have hround : Keyed.get? "round" ([("serverId", .natural candidate), ("logId", .natural logId)] ++
      roundField round) = round.map Json.natural := by cases round <;> rfl
  rw [read_memberId hg rfl hk, read_word hg rfl hl, read_round hg hround hr]

theorem ofText_announcement {leader : MemberId} {m : Message}
    (h : ofText (text (.announcement leader)) = .ok m) : m = .announcement leader := by
  obtain ⟨gs, hg, hp⟩ := fields_of_ofText rfl h
  have hk : (Keyed.keys gs).Nodup := by
    rw [hg.keys]
    simp [Keyed.keys]
  simp only [Message.kind, ofPayload?, slots?_ofFields _ hk, List.map_cons, List.map_nil,
    Option.bind_eq_bind, Option.bind_eq_some_iff, Option.pure_def, Option.some.injEq] at hp
  obtain ⟨k, hk, rfl⟩ := hp
  rw [read_memberId hg rfl hk]

theorem ofText_heartbeat {leader : MemberId} {logId : Int} {m : Message}
    (h : ofText (text (.heartbeat leader logId)) = .ok m) : m = .heartbeat leader logId := by
  obtain ⟨gs, hg, hp⟩ := fields_of_ofText rfl h
  have hk : (Keyed.keys gs).Nodup := by
    rw [hg.keys]
    simp [Keyed.keys]
  simp only [Message.kind, ofPayload?, slots?_ofFields _ hk, List.map_cons, List.map_nil,
    Option.bind_eq_bind, Option.bind_eq_some_iff, Option.pure_def, Option.some.injEq] at hp
  obtain ⟨k, hk, l, hl, rfl⟩ := hp
  rw [read_memberId hg rfl hk, read_signedWord hg rfl hl]

theorem ofText_hello {node : MemberId} {m : Message} (h : ofText (text (.hello node)) = .ok m) :
    m = .hello node := by
  obtain ⟨gs, hg, hp⟩ := fields_of_ofText rfl h
  have hk : (Keyed.keys gs).Nodup := by
    rw [hg.keys]
    simp [Keyed.keys]
  simp only [Message.kind, ofPayload?, slots?_ofFields _ hk, List.map_cons, List.map_nil,
    Option.bind_eq_bind, Option.bind_eq_some_iff, Option.pure_def, Option.some.injEq] at hp
  obtain ⟨k, hk, rfl⟩ := hp
  rw [read_memberId hg rfl hk]

theorem ofText_entriesRequest {follower : MemberId} {logId : Nat} {m : Message}
    (h : ofText (text (.entriesRequest follower logId)) = .ok m) :
    m = .entriesRequest follower logId := by
  obtain ⟨gs, hg, hp⟩ := fields_of_ofText rfl h
  have hk : (Keyed.keys gs).Nodup := by
    rw [hg.keys]
    simp [Keyed.keys]
  simp only [Message.kind, ofPayload?, slots?_ofFields _ hk, List.map_cons, List.map_nil,
    Option.bind_eq_bind, Option.bind_eq_some_iff, Option.pure_def, Option.some.injEq] at hp
  obtain ⟨k, hk, l, hl, rfl⟩ := hp
  rw [read_memberId hg rfl hk, read_word hg rfl hl]

theorem ofText_roundRequest {method : Method} {query : String} {round : Option Nat} {m : Message}
    (h : ofText (text (.roundRequest method ⟨query, none⟩ round)) = .ok m) :
    m = .roundRequest method ⟨query, none⟩ round := by
  obtain ⟨gs, hg, hp⟩ := fields_of_ofText rfl h
  have hk : (Keyed.keys gs).Nodup := by
    rw [hg.keys]
    cases round <;> simp [Keyed.keys, roundField]
  simp only [Message.kind, ofPayload?, slots?_ofFields _ hk, List.map_cons, List.map_nil,
    Option.bind_eq_bind, Option.bind_eq_some_iff, Option.pure_def, Option.some.injEq] at hp
  obtain ⟨a, ha, q, hq, v, hv, r, hr, rfl⟩ := hp
  have hround : Keyed.get? "round" ([("method", .string method.word), ("query", .string query),
      ("values", .null)] ++ roundField round) = round.map Json.natural := by cases round <;> rfl
  rw [read_method hg rfl ha, read_string hg rfl hq, read_null hg rfl hv, read_round hg hround hr]

/-- Whatever a request is about, the number of its round is read as it was written. -/
theorem round_of_ofText {method : Method} {command : Command} {round : Option Nat} {m : Message}
    (h : ofText (text (.roundRequest method command round)) = .ok m) :
    ∃ command', m = .roundRequest method command' round := by
  obtain ⟨gs, hg, hp⟩ := fields_of_ofText rfl h
  have hk : (Keyed.keys gs).Nodup := by
    rw [hg.keys]
    cases round <;> simp [Keyed.keys, roundField]
  simp only [Message.kind, ofPayload?, slots?_ofFields _ hk, List.map_cons, List.map_nil,
    Option.bind_eq_bind, Option.bind_eq_some_iff, Option.pure_def, Option.some.injEq] at hp
  obtain ⟨a, ha, q, _, v, _, r, hr, rfl⟩ := hp
  have hround : Keyed.get? "round" ([("method", .string method.word),
      ("query", .string command.query), ("values", .ofOption (command.values.map Json.array))] ++
        roundField round) = round.map Json.natural := by cases round <;> rfl
  exact ⟨⟨q, v⟩, by rw [read_method hg rfl ha, read_round hg hround hr]⟩

theorem ofText_roundAnswer {digest : String} {round : Option Nat} {m : Message}
    (h : ofText (text (.roundAnswer digest round)) = .ok m) : m = .roundAnswer digest round := by
  obtain ⟨gs, hg, hp⟩ := fields_of_ofText rfl h
  have hk : (Keyed.keys gs).Nodup := by
    rw [hg.keys]
    cases round <;> simp [Keyed.keys, roundField]
  simp only [Message.kind, ofPayload?, slots?_ofFields _ hk, List.map_cons, List.map_nil,
    Option.bind_eq_bind, Option.bind_eq_some_iff, Option.pure_def, Option.some.injEq] at hp
  obtain ⟨d, hd, r, hr, rfl⟩ := hp
  have hround : Keyed.get? "round" (("result", .string digest) :: roundField round) =
      round.map Json.natural := by cases round <;> rfl
  rw [read_string hg rfl hd, read_round hg hround hr]

theorem ofText_applyEntry {logId : Nat} {m : Message}
    (h : ofText (text (.applyEntry logId)) = .ok m) : m = .applyEntry logId := by
  obtain ⟨gs, hg, hp⟩ := fields_of_ofText rfl h
  have hk : (Keyed.keys gs).Nodup := by
    rw [hg.keys]
    simp [Keyed.keys]
  simp only [Message.kind, ofPayload?, slots?_ofFields _ hk, List.map_cons, List.map_nil,
    Option.bind_eq_bind, Option.bind_eq_some_iff, Option.pure_def, Option.some.injEq] at hp
  obtain ⟨l, hl, rfl⟩ := hp
  rw [read_word hg rfl hl]

theorem ofText_deleteEntry {logId : Nat} {m : Message}
    (h : ofText (text (.deleteEntry logId)) = .ok m) : m = .deleteEntry logId := by
  obtain ⟨gs, hg, hp⟩ := fields_of_ofText rfl h
  have hk : (Keyed.keys gs).Nodup := by
    rw [hg.keys]
    simp [Keyed.keys]
  simp only [Message.kind, ofPayload?, slots?_ofFields _ hk, List.map_cons, List.map_nil,
    Option.bind_eq_bind, Option.bind_eq_some_iff, Option.pure_def, Option.some.injEq] at hp
  obtain ⟨l, hl, rfl⟩ := hp
  rw [read_word hg rfl hl]

/-- Messages without floats and times. -/
def isExact : Message → Bool
  | .batch _ _ => false
  | .roundRequest _ command _ => command.values.isNone
  | _ => true

/-- A message without floats and times is read as it was written, if it is read at all. -/
theorem ofText_exact {m m' : Message} (h : ofText m.text = .ok m') (he : m.isExact = true) :
    m' = m := by
  cases m with
  | hello node => exact ofText_hello h
  | voteRequest candidate logId round => exact ofText_voteRequest h
  | vote voter accept round => exact ofText_vote h
  | announcement leader => exact ofText_announcement h
  | heartbeat leader logId => exact ofText_heartbeat h
  | entriesRequest follower logId => exact ofText_entriesRequest h
  | batch leader entries => cases he
  | roundRequest method command round =>
    obtain ⟨query, values⟩ := command
    cases values with
    | none => exact ofText_roundRequest h
    | some values => cases he
  | roundAnswer digest round => exact ofText_roundAnswer h
  | applyEntry logId => exact ofText_applyEntry h
  | deleteEntry logId => exact ofText_deleteEntry h

/-- The messages by which leaders are found. -/
def Kind.isElectoral : Kind → Bool
  | .voteRequest => true
  | .vote => true
  | .announcement => true
  | .heartbeat => true
  | _ => false

/-- What reads as a message of an election is the message that was written. -/
theorem ofText_electoral {m m' : Message} (h : ofText m.text = .ok m')
    (hk : m'.kind.isElectoral = true) : m' = m := by
  rw [kind_of_ofText h] at hk
  refine ofText_exact h ?_
  cases m with
  | batch => cases hk
  | roundRequest => cases hk
  | _ => rfl

end Message
end Accord
