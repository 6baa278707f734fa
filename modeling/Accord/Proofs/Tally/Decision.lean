import Accord.Proofs.Tally.Agreement

/-! # How a round is decided

A tally counts the first digest of every voter. Whatever digests are recorded, the decision is a
matter of these alone: how many voters there are, and how many of them gave which digest. So neither
the order in which the voters answered nor what they said later has a part in it. -/
namespace Accord.Agreement

variable {a : Agreement} {answers : List (MemberId × String)} {digest own : String}
  {voter : MemberId} {peers : Nat}

/-! ## Decisions of a tally -/

/-- The leader's digest has voters, more than any other digest, and at least half of the peers. -/
structure Prevails (count : String → Nat) (peers : Nat) (own : String) : Prop where
  given : 0 < count own
  most : ∀ digest, digest ≠ own → count digest < count own
  half : peers ≤ 2 * count own

/-- A digest with more voters than any other is the only one of the most frequent digests. -/
theorem Prevails.counts_top (h : Prevails (a.count ·) peers own) (ht : Records answers a) :
    a.counts.filter (·.2 == a.top) = [(own, a.count own)] := by
  have hmem : (own, a.count own) ∈ a.counts := ht.mem_counts.mpr ⟨h.given, rfl⟩
  have hle {x : String × Nat} (hx : x ∈ a.counts) : x.2 ≤ a.count own := by
    obtain ⟨_, hcount⟩ := ht.mem_counts.mp hx
    rw [← hcount]
    by_cases hd : x.1 = own
    · rw [hd]
    · exact (h.most x.1 hd).le
  have htop : a.top = a.count own := le_antisymm (top_le_iff.mpr fun _ => hle) (count_le_top hmem)
  have hone : a.counts.count (own, a.count own) = 1 :=
    List.count_eq_one_of_mem (List.Nodup.of_map _ ht.nodup_keys) hmem
  calc a.counts.filter (·.2 == a.top)
      = a.counts.filter (· == (own, a.count own)) := by
        refine List.filter_congr fun x hx => ?_
        obtain ⟨_, hcount⟩ := ht.mem_counts.mp hx
        rw [htop, Bool.eq_iff_iff, beq_iff_eq, beq_iff_eq]
        refine ⟨fun heq => ?_, fun heq => by rw [heq]⟩
        by_contra hd
        refine (h.most x.1 fun hx => hd ?_).ne (hcount.trans heq)
        exact Prod.ext hx heq
    _ = [(own, a.count own)] := by rw [List.filter_beq, hone]; rfl

theorem resolve_eq_none_iff : a.resolve peers own = none ↔ a.votes < peers := by
  unfold resolve
  split
  · simp [*]
  · rename_i hvotes
    simp only [hvotes, iff_false]
    split
    · exact Option.some_ne_none _
    · exact Option.some_ne_none _

theorem Records.resolve_eq_true_iff (h : Records answers a) : a.resolve peers own = some true ↔
    peers ≤ a.votes ∧ Prevails (a.count ·) peers own := by
  constructor
  · intro hr
    obtain ⟨hvotes, hhalf, hgiven, hmost⟩ := h.resolve_true hr
    exact ⟨hvotes, hgiven, hmost, hhalf⟩
  · rintro ⟨hvotes, hp⟩
    rw [resolve, if_neg (not_lt.mpr hvotes), hp.counts_top h]
    simp [hp.half]

theorem Records.resolve_eq_false_iff (h : Records answers a) : a.resolve peers own = some false ↔
    peers ≤ a.votes ∧ ¬ Prevails (a.count ·) peers own := by
  have hnone : a.resolve peers own = none ↔ a.votes < peers := resolve_eq_none_iff
  have htrue : a.resolve peers own = some true ↔ _ := h.resolve_eq_true_iff
  rw [← not_lt, ← hnone] at htrue ⊢
  cases hr : a.resolve peers own with
  | none => simp
  | some decision => cases decision <;> simp_all

/-- The decision depends on the numbers of voters only, and not on the order of their answers. -/
theorem Records.resolve_congr (h : Records answers a) {b : Agreement}
    {others : List (MemberId × String)} (hb : Records others b) (hvotes : a.votes = b.votes)
    (hcount : ∀ digest, a.count digest = b.count digest) :
    a.resolve peers own = b.resolve peers own := by
  ext decision
  cases decision with
  | true => simp only [h.resolve_eq_true_iff, hb.resolve_eq_true_iff, hvotes, hcount]
  | false => simp only [h.resolve_eq_false_iff, hb.resolve_eq_false_iff, hvotes, hcount]

/-! ## Records of calls -/

/-- The tally of some answers, recorded one after another. -/
def ofCalls (calls : List (MemberId × String)) : Agreement :=
  calls.foldl (fun a call => a.record call.1 call.2) initial

/-- The digest that counts for a voter is the first one that it gave. -/
def counted? (calls : List (MemberId × String)) (voter : MemberId) : Option String :=
  (calls.find? (·.1 == voter)).map (·.2)

/-- All who have voted. -/
def electorate (calls : List (MemberId × String)) : Finset MemberId :=
  (calls.map (·.1)).toFinset

/-- The voters for whom a digest counts. -/
def supporters (calls : List (MemberId × String)) (digest : String) : Finset MemberId :=
  (electorate calls).filter fun voter => counted? calls voter = some digest

variable {calls : List (MemberId × String)}

theorem mem_electorate :
    voter ∈ electorate calls ↔ ∃ digest, counted? calls voter = some digest := by
  rw [← Option.isSome_iff_exists, counted?, Option.isSome_map, List.find?_isSome]
  simp [electorate]

theorem mem_supporters : voter ∈ supporters calls digest ↔ counted? calls voter = some digest := by
  rw [supporters, Finset.mem_filter, and_iff_right_iff_imp]
  intro h
  exact mem_electorate.mpr ⟨digest, h⟩

theorem counted?_concat (call : MemberId × String) : counted? (calls ++ [call]) voter =
    (counted? calls voter).or (if call.1 = voter then some call.2 else none) := by
  rw [counted?, counted?, List.find?_append]
  cases calls.find? (·.1 == voter) with
  | some first => rfl
  | none => by_cases h : call.1 = voter <;> simp [h]

theorem ofCalls_concat (call : MemberId × String) :
    ofCalls (calls ++ [call]) = (ofCalls calls).record call.1 call.2 := by
  rw [ofCalls, List.foldl_append]
  rfl

/-- The tally of some calls is that of the answers that count for their voters. -/
theorem records_ofCalls (calls : List (MemberId × String)) :
    ∃ answers, Records answers (ofCalls calls) ∧
      ∀ {voter digest}, (voter, digest) ∈ answers ↔ counted? calls voter = some digest := by
  induction calls using List.reverseRecOn with
  | nil => exact ⟨[], records_initial, by simp [counted?]⟩
  | append_singleton calls call ih =>
    obtain ⟨answers, ht, hmem⟩ := ih
    have hbefore : (ofCalls calls).hasAnswered call.1 = (counted? calls call.1).isSome := by
      rw [Bool.eq_iff_iff, ht.hasAnswered_iff, Option.isSome_iff_exists]
      simp only [hmem]
    rw [ofCalls_concat]
    simp only [counted?_concat]
    cases hfirst : counted? calls call.1 with
    | some first =>
      -- a later answer: it is not taken, and does not count
      rw [hfirst, Option.isSome_some] at hbefore
      rw [record_of_hasAnswered hbefore]
      refine ⟨answers, ht, fun {voter digest} => ?_⟩
      by_cases hvoter : call.1 = voter
      · subst hvoter
        rw [hmem, hfirst, Option.some_or]
      · rw [hmem, if_neg hvoter, Option.or_none]
    | none =>
      rw [hfirst, Option.isSome_none] at hbefore
      refine ⟨answers ++ [call], ht.record hbefore call.2, fun {voter digest} => ?_⟩
      rw [List.mem_append, List.mem_singleton, hmem]
      by_cases hvoter : call.1 = voter
      · subst hvoter
        simp [hfirst, Prod.ext_iff, eq_comm]
      · simp [hvoter, Prod.ext_iff, Ne.symm hvoter]

theorem votes_ofCalls (calls : List (MemberId × String)) :
    (ofCalls calls).votes = (electorate calls).card := by
  obtain ⟨answers, ht, hmem⟩ := records_ofCalls calls
  have hset : (answers.map (·.1)).toFinset = electorate calls := by
    ext voter
    simp [mem_electorate, hmem]
  rw [← hset, List.toFinset_card_of_nodup ht.once, List.length_map, ht.votes]

theorem count_ofCalls (calls : List (MemberId × String)) (digest : String) :
    (ofCalls calls).count digest = (supporters calls digest).card := by
  obtain ⟨answers, ht, hmem⟩ := records_ofCalls calls
  rw [← ht.card_camp]
  congr 1
  ext voter
  rw [mem_camp, hmem, mem_supporters]

/-- A round is undecided as long as fewer voters than peers have answered. Then it succeeds if the
leader's digest counts for some voter, for more voters than any other digest and for at least half
as many voters as there are peers, and fails otherwise. Answers in which the same digest counts for
each voter decide it alike. -/
theorem resolve_by_first_answers (calls : List (MemberId × String)) (peers : Nat) (own : String) :
    ((ofCalls calls).resolve peers own = none ↔ (electorate calls).card < peers) ∧
    ((ofCalls calls).resolve peers own = some true ↔ peers ≤ (electorate calls).card ∧
      Prevails (fun digest => (supporters calls digest).card) peers own) ∧
    ((ofCalls calls).resolve peers own = some false ↔ peers ≤ (electorate calls).card ∧
      ¬ Prevails (fun digest => (supporters calls digest).card) peers own) ∧
    ∀ others : List (MemberId × String),
      (∀ voter, counted? others voter = counted? calls voter) →
        (ofCalls others).resolve peers own = (ofCalls calls).resolve peers own := by
  obtain ⟨answers, ht, _⟩ := records_ofCalls calls
  simp only [resolve_eq_none_iff, ht.resolve_eq_true_iff, ht.resolve_eq_false_iff, votes_ofCalls,
    count_ofCalls, true_and]
  intro others hsame
  obtain ⟨_, hothers, _⟩ := records_ofCalls others
  refine hothers.resolve_congr ht ?_ fun digest => ?_
  · rw [votes_ofCalls, votes_ofCalls]
    congr 1
    ext voter
    rw [mem_electorate, mem_electorate, hsame]
  · rw [count_ofCalls, count_ofCalls]
    congr 1
    ext voter
    rw [mem_supporters, mem_supporters, hsame]

/-- Two of three voters agree with the leader. They may answer in another order, and change their
minds afterwards. -/
theorem late_answers_do_not_count :
    let calls := [(1, "a"), (3, "a"), (4, "b")]
    let others := [(4, "b"), (1, "a"), (1, "b"), (3, "a"), (4, "a")]
    (∀ voter, counted? others voter = counted? calls voter) ∧
      (ofCalls calls).resolve 3 "a" = some true ∧
      (ofCalls others).resolve 3 "a" = (ofCalls calls).resolve 3 "a" := by
  intro calls others
  have hsame : ∀ voter, counted? others voter = counted? calls voter := by
    intro voter
    simp only [calls, others, counted?, List.find?_cons, List.find?_nil]
    rcases eq_or_ne 1 voter with rfl | h1
    · rfl
    rcases eq_or_ne 3 voter with rfl | h3
    · rfl
    rcases eq_or_ne 4 voter with rfl | h4
    · rfl
    simp [beq_eq_false_iff_ne.mpr h1, beq_eq_false_iff_ne.mpr h3, beq_eq_false_iff_ne.mpr h4]
  obtain ⟨-, -, -, hothers⟩ := resolve_by_first_answers calls 3 "a"
  exact ⟨hsame, by decide, hothers others hsame⟩

end Accord.Agreement
