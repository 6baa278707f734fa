import Accord.Proofs.Node.Deeds
import Accord.Proofs.Tally.Agreement

/-! # Rounds in the course of deeds

Deeds number their rounds upwards. A round that is put to the vote in the course of deeds is still
without an answer at their end, so a client is told of a success only if its round was in flight
before and the answers to it agree. -/
namespace Accord.Node

variable {o : Occasion}

/-- A round that has just been put to the vote. -/
structure Proposed (r : Round) (n : Node) : Prop where
  number : r.number = n.lastRound
  unanswered : r.tally = .initial
  connected : n.isCutOff = false
  read : r.op.method = .get → r.logId = none
  write : r.op.method = .post → ∃ logId, r.logId = some logId ∧ r.result = .ok (.natural logId) ∧
    ∃ log time, n.store.log = log ++ [⟨logId, r.op.command.text, time⟩]

/-- What deeds do to the round in flight. -/
structure Progress (n m : Node) : Prop where
  lastRound_le : n.lastRound ≤ m.lastRound
  round : m.round = none ∨ m.round = n.round ∨
    ∃ r, m.round = some r ∧ n.lastRound < r.number ∧ Proposed r m

theorem Progress.refl (n : Node) : Progress n n := ⟨le_rfl, .inr (.inl rfl)⟩

theorem append_log {command : Command} {logId : Nat} {n : Node}
    (h : (n.appendCommand command).1 = .ok logId) :
    ∃ log, n.store.log <+: log ∧
      (n.appendCommand command).2.store.log = log ++ [⟨logId, command.text, n.clock.today⟩] := by
  simp only [appendCommand, useStore, Store.append, Store.appendText] at h ⊢
  split at h
  · rename_i ha
    rw [if_pos ha]
    cases h
    refine ⟨n.store.rivals.appendTo n.clock.today n.store.log, ?_, rfl⟩
    rw [Rivals.appendTo]
    generalize n.store.rivals.writers = writers
    generalize n.store.log = log
    induction writers generalizing log with
    | nil => exact List.prefix_refl _
    | cons rival rest ih => exact (List.prefix_append log _).trans (ih (log.append rival.command _))
  · cases h

theorem Progress.deed {n a b : Node} (h : Progress n a) (hd : Deed o a b) : Progress n b := by
  -- a deed that leaves the round alone
  have hkeep (hl : b.lastRound = a.lastRound) (hr : b.round = a.round) (hs : b.store = a.store)
      (hc : b.isCutOff = a.isCutOff) : Progress n b := by
    refine ⟨hl ▸ h.lastRound_le, ?_⟩
    rw [hr]
    refine h.round.imp_right (Or.imp_right ?_)
    rintro ⟨r, hr, hlt, hp⟩
    refine ⟨r, hr, hlt, hl ▸ hp.number, hp.unanswered, hc ▸ hp.connected, hp.read, ?_⟩
    rw [hs]
    exact hp.write
  cases hd with
  | begin hq hr hl ho =>
    have hlt : n.lastRound < a.lastRound + 1 := Nat.lt_succ_of_le h.lastRound_le
    cases ho with
    | cutOff => exact hkeep rfl rfl rfl rfl
    | read hc hm =>
      refine ⟨hlt.le, .inr (.inr ⟨_, rfl, hlt, rfl, rfl, hc, fun _ => rfl, fun hp => ?_⟩)⟩
      rw [newRound, hm] at hp
      cases hp
    | unwritten => exact ⟨hlt.le, .inl hr⟩
    | write hc hm ha =>
      refine ⟨hlt.le, .inr (.inr ⟨_, rfl, hlt, rfl, rfl, hc, fun hg => ?_, fun _ => ?_⟩)⟩
      · rw [newRound, hm] at hg
        cases hg
      · obtain ⟨log, _, hlog⟩ := append_log ha
        exact ⟨_, rfl, rfl, log, _, hlog⟩
  | succeed _ _ hc => cases hc <;> exact ⟨h.lastRound_le, .inl rfl⟩
  | fail _ hd => cases hd <;> exact ⟨h.lastRound_le, .inl rfl⟩
  | _ => exact hkeep rfl rfl rfl rfl

theorem Deeds.progress {n m : Node} (h : Deeds o n m) : Progress n m := by
  induction h with
  | refl => exact .refl n
  | tail _ hd ih => exact ih.deed hd

/-! ## Success -/

/-- A round that succeeds by its answers. -/
structure Backed (r : Round) (n : Node) : Prop where
  round : n.round = some r
  agreed : r.tally.resolve n.directory.count r.ownDigest = some true
  connected : n.directory.count ≠ 0

theorem backed_of_decision {n : Node} {r : Round} (hs : n.topology.size ≠ 1) (hr : n.round = some r)
    (hd : n.decision r = some true) : Backed r n := by
  simp only [decision] at hd
  split at hd
  · exact absurd (eq_of_beq (Option.some.inj hd)) hs
  · exact ⟨hr, hd, ‹_›⟩

theorem Proposed.not_backed {n : Node} {r : Round} (h : Proposed r n) : ¬ Backed r n := by
  rintro ⟨_, ha, hc⟩
  rw [h.unanswered] at ha
  exact hc (Nat.le_zero.mp (Agreement.le_votes ha))

/-- What a client is told of a success. -/
structure Granted (r : Round) (answer : Answer) (data : Json) : Prop where
  op : answer.op = r.op.number
  read : r.op.method = .get → r.result = .ok data

/-- A client is told of a success by the deed that ends its round. -/
theorem Deed.success {n m : Node} (h : Deed o n m) {answer : Answer} {data : Json}
    (ha : answer ∈ m.answers) (hok : answer.reply = .ok data) :
    answer ∈ n.answers ∨ ∃ r, n.round = some r ∧ n.decision r = some true ∧ Carried r n m ∧
      Granted r answer data := by
  have hadd {number : Nat} {reply : Reply} (ha : answer ∈ n.answers ++ [⟨number, reply⟩]) :
      answer ∈ n.answers ∨ answer = ⟨number, reply⟩ := by
    simpa using ha
  have hno {number : Nat} {e : ReplyError} (ha : answer ∈ n.answers ++ [⟨number, .error e⟩]) :
      answer ∈ n.answers := by
    rcases hadd ha with ha | rfl
    · exact ha
    · cases hok
  cases h with
  | begin _ _ _ ho =>
    cases ho with
    | cutOff => exact .inl (hno ha)
    | unwritten => exact .inl (hno ha)
    | _ => exact .inl ha
  | succeed hr hd hc =>
    cases hc with
    | read hm =>
      refine (hadd ha).imp_right ?_
      rintro rfl
      refine ⟨_, hr, hd, .read hm, rfl, fun _ => ?_⟩
      dsimp only at hok
      rename_i r _
      cases hres : r.result with
      | ok v => rw [hres] at hok; cases hok; rfl
      | error e => rw [hres] at hok; cases hok
    | write hm hl happly =>
      refine (hadd ha).imp_right ?_
      rintro rfl
      refine ⟨_, hr, hd, .write hm hl happly, rfl, fun hg => ?_⟩
      rw [hm] at hg
      cases hg
    | unwritten => exact .inl (hno ha)
    | void => exact .inl (hno ha)
  | fail _ hd => cases hd <;> exact .inl (hno ha)
  | dismiss => exact .inl (hno ha)
  | _ => exact .inl ha

/-- A client is told of a success only by a round that was in flight. -/
theorem Deeds.success {n m : Node} (h : Deeds o n m) (hs : n.topology.size ≠ 1) {answer : Answer}
    {data : Json} (ha : answer ∈ m.answers) (hok : answer.reply = .ok data) :
    answer ∈ n.answers ∨ ∃ r, Backed r n ∧ Granted r answer data := by
  induction h with
  | refl => exact .inl ha
  | @tail a b hab hd ih =>
    have hsame := Deeds.same hab
    rcases hd.success ha hok with ha | ⟨r, hround, hdecided, _, hg⟩
    · exact ih ha
    · have hb := backed_of_decision (by rw [hsame.topology]; exact hs) hround hdecided
      rcases (Deeds.progress hab).round with hn | hr | ⟨r', hr', _, hp⟩
      · exact absurd (hn.symm.trans hb.round) (by simp)
      · exact .inr ⟨r, ⟨hr ▸ hb.round, hsame.directory ▸ hb.agreed, hsame.directory ▸ hb.connected⟩,
          hg⟩
      · obtain rfl := Option.some.inj (hr'.symm.trans hb.round)
        exact absurd hb hp.not_backed

end Accord.Node
