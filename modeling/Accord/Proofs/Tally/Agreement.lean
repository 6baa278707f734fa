import Accord.Proofs.Keyed
import Accord.Tally.Agreement

/-! # What a successful round says about its answers

A tally keeps who has answered and how often each digest was given, but not who gave which digest.
`Records` ties it to the answers behind it, the first one of each voter. A round succeeds
by a strict plurality of them: at least half of the peers gave the leader's digest, and every other
digest has fewer voters. -/
namespace Accord.Agreement

variable {a : Agreement} {answers : List (MemberId × String)} {digest own : String}
  {voter : MemberId} {peers : Nat}

theorem hasAnswered_iff : a.hasAnswered voter = true ↔ voter ∈ a.voters := List.contains_iff_mem

theorem record_of_hasAnswered (h : a.hasAnswered voter = true) (digest : String) :
    a.record voter digest = a := if_pos h

theorem le_votes {decision : Bool} (h : a.resolve peers own = some decision) : peers ≤ a.votes := by
  rw [resolve] at h
  split at h
  · cases h
  · exact not_lt.mp ‹_›

/-! ## The answers behind a tally -/

/-- The tally `a` is that of these answers: it has their voters, and counts each digest as often as
it was given. -/
structure Records (answers : List (MemberId × String)) (a : Agreement) : Prop where
  once : (answers.map (·.1)).Nodup
  voters : a.voters = answers.map (·.1)
  ascending : (Keyed.keys a.counts).Pairwise (· < ·)
  given : ∀ entry ∈ a.counts, 0 < entry.2
  count : ∀ digest, a.count digest = answers.countP (·.2 == digest)

theorem records_initial : Records [] initial where
  once := List.nodup_nil
  voters := rfl
  ascending := List.Pairwise.nil
  given := List.forall_mem_nil _
  count _ := rfl

theorem Records.votes (h : Records answers a) : a.votes = answers.length := by
  rw [Agreement.votes, h.voters, List.length_map]

theorem Records.hasAnswered_iff (h : Records answers a) :
    a.hasAnswered voter = true ↔ ∃ digest, (voter, digest) ∈ answers := by
  simp [Agreement.hasAnswered_iff, h.voters]

theorem count_put (digest other : String) (a : Agreement) (voters : List MemberId) (n : Nat) :
    count other ⟨voters, Keyed.put digest n a.counts⟩ =
      if other = digest then n else a.count other := by
  unfold count
  split
  · rename_i he
    rw [he, Keyed.get?_put_self]
    rfl
  · rename_i hne
    rw [Keyed.get?_put_of_ne hne]

/-- A new voter's answer joins the others. -/
theorem Records.record (h : Records answers a) (hnew : a.hasAnswered voter = false)
    (digest : String) : Records (answers ++ [(voter, digest)]) (a.record voter digest) := by
  rw [Agreement.record, hnew, if_neg Bool.false_ne_true]
  constructor
  · have hfresh : voter ∉ answers.map (·.1) := by
      rw [← h.voters, ← Agreement.hasAnswered_iff, hnew]
      exact Bool.false_ne_true
    rw [List.map_append, List.nodup_append]
    refine ⟨h.once, List.nodup_singleton _, ?_⟩
    rintro x hx y hy rfl
    obtain rfl := List.mem_singleton.mp hy
    exact hfresh hx
  · rw [List.map_append, h.voters]
    rfl
  · exact Keyed.pairwise_keys_put h.ascending _ _
  · intro entry hentry
    rcases Keyed.mem_put hentry with rfl | hold
    · exact Nat.succ_pos _
    · exact h.given entry hold
  · intro other
    rw [count_put, List.countP_append, List.countP_singleton, h.count, h.count]
    by_cases hother : other = digest
    · subst hother
      simp
    · simp [hother, Ne.symm hother]

/-- Whatever a voter answers, the tally is that of some answers again. -/
theorem Records.record_or_same (h : Records answers a) (voter : MemberId) (digest : String) :
    Records (answers ++ [(voter, digest)]) (a.record voter digest) ∨
      Records answers (a.record voter digest) := by
  cases hanswered : a.hasAnswered voter with
  | false => exact .inl (h.record hanswered digest)
  | true =>
    rw [record_of_hasAnswered hanswered]
    exact .inr h

/-- The voters of a digest. -/
def camp (answers : List (MemberId × String)) (digest : String) : Finset MemberId :=
  ((answers.filter (·.2 == digest)).map (·.1)).toFinset

theorem mem_camp : voter ∈ camp answers digest ↔ (voter, digest) ∈ answers := by
  simp only [camp, List.mem_toFinset, List.mem_map, List.mem_filter, beq_iff_eq]
  constructor
  · rintro ⟨⟨v, d⟩, ⟨hm, rfl⟩, rfl⟩
    exact hm
  · intro h
    exact ⟨(voter, digest), ⟨h, rfl⟩, rfl⟩

theorem Records.card_camp (h : Records answers a) (digest : String) :
    (camp answers digest).card = a.count digest := by
  have hn : ((answers.filter (·.2 == digest)).map (·.1)).Nodup :=
    h.once.sublist (List.filter_sublist.map _)
  rw [camp, List.toFinset_card_of_nodup hn, List.length_map, h.count, List.countP_eq_length_filter]

/-! ## The most frequent digest -/

theorem Records.nodup_keys (h : Records answers a) : (Keyed.keys a.counts).Nodup :=
  h.ascending.imp fun hlt => hlt.ne

/-- A digest is in the tally with its count as soon as someone gave it. -/
theorem Records.mem_counts (h : Records answers a) {n : Nat} :
    (digest, n) ∈ a.counts ↔ 0 < n ∧ a.count digest = n := by
  constructor
  · intro hm
    refine ⟨h.given _ hm, ?_⟩
    rw [Agreement.count, Keyed.get?_of_mem h.nodup_keys hm]
    rfl
  · rintro ⟨hpos, rfl⟩
    rw [Agreement.count] at hpos ⊢
    cases hget : Keyed.get? digest a.counts with
    | none =>
      rw [hget] at hpos
      cases hpos
    | some n => exact Keyed.mem_of_get? hget

theorem top_le_iff {n : Nat} : a.top ≤ n ↔ ∀ entry ∈ a.counts, entry.2 ≤ n := by
  rw [← List.forall_mem_map (P := (· ≤ n)), top, List.foldl_max]
  cases hmax : (a.counts.map (·.2)).max? with
  | none =>
    rw [List.max?_eq_none_iff.mp hmax]
    simp
  | some m =>
    rw [Option.getD_some, max_le_iff, List.max?_le_iff hmax]
    exact and_iff_right (Nat.zero_le n)

theorem count_le_top {n : Nat} (h : (digest, n) ∈ a.counts) : n ≤ a.top :=
  top_le_iff.mp le_rfl _ h

theorem Records.resolve_true (h : Records answers a) (hr : a.resolve peers own = some true) :
    peers ≤ a.votes ∧ peers ≤ 2 * a.count own ∧ 0 < a.count own ∧
      ∀ digest, digest ≠ own → a.count digest < a.count own := by
  refine ⟨le_votes hr, ?_⟩
  rw [resolve, if_neg (le_votes hr).not_gt] at hr
  split at hr
  · rename_i d n hmost
    simp only [Option.some.injEq, Bool.and_eq_true, beq_iff_eq, decide_eq_true_eq] at hr
    obtain ⟨rfl, hhalf⟩ := hr
    have hmem {x : String × Nat} : x ∈ a.counts ∧ x.2 = a.top ↔ x = (d, n) := by
      have hx : x ∈ a.counts.filter (·.2 == a.top) ↔ x ∈ [(d, n)] := by rw [hmost]
      rwa [List.mem_filter, List.mem_singleton, beq_iff_eq] at hx
    obtain ⟨hin, htop⟩ := hmem.mpr rfl
    obtain ⟨hpos, hcount⟩ := h.mem_counts.mp hin
    rw [hcount]
    refine ⟨hhalf, hpos, fun x hx => ?_⟩
    rcases Nat.eq_zero_or_pos (a.count x) with hzero | hx₀
    · rwa [hzero]
    · have hinx : (x, a.count x) ∈ a.counts := h.mem_counts.mpr ⟨hx₀, rfl⟩
      refine (htop ▸ count_le_top hinx).lt_of_ne fun he => hx ?_
      exact congrArg Prod.fst (hmem.mp ⟨hinx, he.trans htop⟩)
  · cases hr

end Accord.Agreement
