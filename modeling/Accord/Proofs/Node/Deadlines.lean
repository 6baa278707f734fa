import Accord.Proofs.Node.Timers

/-! # Deadlines

A node tells when it has something to do next: at the earliest of the deadlines of its timers, of
its round in flight and of its wait for entries. Before that moment it does nothing. Once the moment
has come it does what is due and is then at rest again: whatever it begins on the way, an election,
a round or a new wait, has a deadline that is still ahead. -/
namespace Accord

/-- A deadline that has not come, if there is one. -/
def Ahead (now : Moment) (deadline : Option Moment) : Prop :=
  ∀ due, deadline = some due → now < due

section

variable {now : Moment} {deadline : Option Moment}

theorem ahead_none (now : Moment) : Ahead now none := by
  intro due h
  cases h

theorem ahead_some {due : Moment} (h : now < due) : Ahead now (some due) := by
  intro due' heq
  cases heq
  exact h

theorem ahead_arm {span : Span} (h : 0 < span.nanos) (now : Moment) :
    Ahead now (Timer.arm now span).deadline :=
  ahead_some (Nat.lt_add_of_pos_right h)

theorem not_any_le_iff : ¬ deadline.any (· ≤ now) = true ↔ Ahead now deadline := by
  cases deadline with
  | none => exact iff_of_true Bool.false_ne_true (ahead_none now)
  | some due => simp [Ahead]

theorem Timer.not_hasRunOut_iff {t : Timer} :
    ¬ t.hasRunOut now = true ↔ Ahead now t.deadline := by
  rw [← not_any_le_iff, hasRunOut]
  cases t.deadline with
  | none => rfl
  | some due => rfl

/-- The earliest of some deadlines is ahead when all of them are. -/
theorem ahead_min?_iff {deadlines : List (Option Moment)} :
    Ahead now deadlines.reduceOption.min? ↔ ∀ deadline ∈ deadlines, Ahead now deadline := by
  have hmem (due : Moment) : due ∈ deadlines.reduceOption ↔ some due ∈ deadlines :=
    List.reduceOption_mem_iff
  constructor
  · intro h deadline hd due heq
    subst heq
    have hdue := (hmem due).mpr hd
    cases hm : deadlines.reduceOption.min? with
    | none => simp [List.min?_eq_none_iff.mp hm] at hdue
    | some least =>
      have hle : least ≤ due := (List.le_min?_iff hm).mp le_rfl due hdue
      exact Nat.lt_of_lt_of_le (h least hm) hle
  · intro h due hm
    exact h _ ((hmem due).mp (List.min?_mem hm)) due rfl

end

/-! ## Periods -/

/-- Bounds of less than a machine word of milliseconds are not cut. -/
theorem Span.millisWord_of_lt {s : Span} (h : s.nanos < 1000000 * Text.wordLimit) :
    s.millisWord = s.nanos / 1000000 :=
  Nat.mod_eq_of_lt (Nat.div_lt_of_lt_mul h)

namespace Timing

variable {t : Timing}

/-- What is left of the lower bound in a machine word is the shortest of the election timeouts. -/
theorem electionSpan_ge_iff :
    (∀ pick, 1000000 ≤ (t.electionSpan pick).nanos) ↔ 1 ≤ t.electionMin.millisWord := by
  simp only [electionSpan, Span.ofMillis]
  constructor
  · intro h
    have hleast := h 0
    rw [Nat.zero_mod] at hleast
    omega
  · intro h pick
    omega

theorem electionSpan_ge (hv : t.validate = .ok ()) (hmin : 1000000 ≤ t.electionMin.nanos)
    (hmax : t.electionMax.nanos < 1000000 * Text.wordLimit) (pick : Nat) :
    1000000 ≤ (t.electionSpan pick).nanos := by
  have hle : t.electionMin.nanos ≤ t.electionMax.nanos := by
    rw [validate] at hv
    split at hv
    · cases hv
    · exact not_lt.mp ‹_›
  have hword : 1 ≤ t.electionMin.millisWord := by
    rw [Span.millisWord_of_lt (hle.trans_lt hmax)]
    exact Nat.div_pos hmin (by decide)
  exact electionSpan_ge_iff.mpr hword pick

/-- Periods that take some time. -/
structure Lasting (t : Timing) : Prop where
  heartbeat : 0 < t.heartbeat.nanos
  vote : 0 < t.vote.nanos
  voting : 0 < t.voting.nanos
  election : ∀ pick, 0 < (t.electionSpan pick).nanos

theorem lasting (hv : t.validate = .ok ()) (hh : 0 < t.heartbeat.nanos)
    (he : ∀ pick, 1000000 ≤ (t.electionSpan pick).nanos) : t.Lasting := by
  rw [validate] at hv
  split at hv
  · cases hv
  · split at hv
    · cases hv
    · rename_i hvote
      split at hv
      · cases hv
      · rename_i hvoting
        exact ⟨hh, by omega, Nat.pos_of_ne_zero hvoting, fun pick => by have := he pick; omega⟩

end Timing

/-! ## Standings -/

/-- None of the three timers has run out. -/
structure Standing.Calm (now : Moment) (s : Standing) : Prop where
  election : Ahead now s.election.deadline
  vote : Ahead now s.vote.deadline
  heartbeat : Ahead now s.heartbeat.deadline

namespace Standing

variable {timing : Timing}

theorem calm_search (h : timing.Lasting) (now : Moment) (pick : Nat) (s : Standing) :
    (s.search timing now (timing.electionSpan pick)).Calm now :=
  ⟨ahead_arm (h.election pick) now, ahead_arm h.vote now, ahead_none now⟩

theorem calm_lead (h : timing.Lasting) (now : Moment) (s : Standing) :
    (s.lead timing now).Calm now :=
  ⟨ahead_none now, ahead_none now, ahead_arm h.heartbeat now⟩

end Standing

namespace Node

variable {n m : Node}

theorem calm_loseLeader (h : n.timing.Lasting) : n.loseLeader.standing.Calm n.clock.now := by
  unfold loseLeader seek
  obtain ⟨pick, dice⟩ := n.dice.roll
  exact Standing.calm_search h n.clock.now pick { n.standing with leader := none }

theorem calm_node_search (h : n.timing.Lasting) : n.search.standing.Calm n.clock.now := by
  unfold search
  obtain ⟨pick, dice⟩ := n.dice.roll
  exact Standing.calm_search h n.clock.now pick n.standing

theorem search_ballot (n : Node) : n.search.ballot = n.ballot := by
  unfold search
  obtain ⟨pick, dice⟩ := n.dice.roll
  rfl

theorem loseLeader_ballot (n : Node) : n.loseLeader.ballot = n.ballot := by
  unfold loseLeader seek
  obtain ⟨pick, dice⟩ := n.dice.roll
  rfl

/-- At most one election is begun. -/
def Elects (n m : Node) : Prop := m.ballot = n.ballot ∨ m.ballot = n.ballot.begin

theorem askForVotes_elects (n : Node) : Elects n n.askForVotes := by
  unfold askForVotes
  split
  · split
    · exact .inl rfl
    · exact .inl rfl
  · split
    · exact .inl rfl
    · exact .inr rfl

theorem askForVotes_same (n : Node) :
    n.askForVotes.timing = n.timing ∧ n.askForVotes.clock = n.clock := by
  unfold askForVotes
  split
  · split
    · exact ⟨rfl, rfl⟩
    · exact ⟨rfl, rfl⟩
  · split
    · exact ⟨rfl, rfl⟩
    · exact ⟨rfl, rfl⟩

/-- A candidate that knew no leader leads now, or it waits with fresh timers. -/
theorem calm_stand (h : n.timing.Lasting) (hr : n.role = .leaderless) :
    n.stand.standing.Calm n.clock.now := by
  obtain ⟨htiming, hclock⟩ := n.askForVotes_same
  simp only [stand]
  split
  · rw [← hclock]
    exact calm_node_search (by rw [htiming]; exact h)
  · rename_i hne
    rcases n.askForVotes_standing with hp | hs
    · rw [hp]
      exact Standing.calm_lead h n.clock.now n.standing
    · rw [role, hs] at hne
      exact absurd hr hne

theorem stand_elects (n : Node) : Elects n n.stand := by
  simp only [stand]
  split
  · rw [Elects, search_ballot]
    exact n.askForVotes_elects
  · exact n.askForVotes_elects

/-! ## Rest -/

/-- Nothing is due. -/
structure Rests (n : Node) : Prop where
  standing : n.standing.Calm n.clock.now
  round : Ahead n.clock.now (n.round.map (·.deadline))
  catchUp : Ahead n.clock.now n.catchUpDeadline

theorem rests_iff : n.Rests ↔ Ahead n.clock.now n.nextDue := by
  rw [nextDue, ahead_min?_iff]
  constructor
  · intro h
    simp only [List.mem_cons, List.not_mem_nil, or_false, forall_eq_or_imp, forall_eq]
    exact ⟨h.standing.election, h.standing.vote, h.standing.heartbeat, h.round, h.catchUp⟩
  · intro h
    simp only [List.mem_cons, List.not_mem_nil, or_false, forall_eq_or_imp, forall_eq] at h
    obtain ⟨helection, hvote, hheartbeat, hround, hcatchUp⟩ := h
    exact ⟨⟨helection, hvote, hheartbeat⟩, hround, hcatchUp⟩

/-- A node that draws no time at all to wait for an election is due again at once. -/
theorem search_due (h : (n.timing.electionSpan n.dice.roll.1).nanos = 0) :
    ¬ Ahead n.search.clock.now n.search.nextDue := by
  rw [← rests_iff]
  intro hrests
  have hlt := hrests.standing.election
    (n.clock.now + (n.timing.electionSpan n.dice.roll.1).nanos) rfl
  rw [h] at hlt
  exact lt_irrefl n.clock.now hlt

theorem tickHeartbeat_of_ahead (h : Ahead now n.standing.heartbeat.deadline) :
    n.tickHeartbeat now = n := if_neg (Timer.not_hasRunOut_iff.mpr h)

theorem tickElection_of_ahead (h : Ahead now n.standing.election.deadline) :
    n.tickElection now = n := if_neg (Timer.not_hasRunOut_iff.mpr h)

theorem tickVote_of_ahead (h : Ahead now n.standing.vote.deadline) : n.tickVote now = n :=
  if_neg (Timer.not_hasRunOut_iff.mpr h)

theorem tickRound_of_ahead (h : Ahead now (n.round.map (·.deadline))) : n.tickRound now = n :=
  if_neg (not_any_le_iff.mpr h)

theorem tickCatchUp_of_ahead (h : Ahead now n.catchUpDeadline) : n.tickCatchUp now = n :=
  if_neg (not_any_le_iff.mpr h)

theorem Rests.tick (h : n.Rests) : n.tick = n := by
  rw [Node.tick, tickAt, tickHeartbeat_of_ahead h.standing.heartbeat,
    tickElection_of_ahead h.standing.election, tickVote_of_ahead h.standing.vote,
    tickRound_of_ahead h.round, tickCatchUp_of_ahead h.catchUp]

/-! ## Doing what is due

After each stage the deadline that it looks at is ahead, and those that the stages before it have
seen to stay so. Only a candidate touches more than its own timer: it sets all three. -/

theorem ahead_tickHeartbeat (h : n.timing.Lasting) :
    Ahead n.clock.now (n.tickHeartbeat n.clock.now).standing.heartbeat.deadline := by
  simp only [tickHeartbeat]
  split
  · split
    · exact ahead_arm h.heartbeat n.clock.now
    · exact ahead_none n.clock.now
  · rename_i hdue
    exact Timer.not_hasRunOut_iff.mp hdue

theorem tickHeartbeat_ballot (now : Moment) (n : Node) :
    (n.tickHeartbeat now).ballot = n.ballot := by
  simp only [tickHeartbeat]
  split
  · split
    · rfl
    · rfl
  · rfl

/-- What the second stage leaves to the third: nothing if the node has stood for election. -/
inductive Candidacy (n m : Node) : Prop
  | stood (hc : m.standing.Calm n.clock.now) (hb : Elects n m)
  | passed (he : Ahead n.clock.now m.standing.election.deadline)
      (hh : m.standing.heartbeat = n.standing.heartbeat) (hb : m.ballot = n.ballot)

theorem candidacy_tickElection (h : n.timing.Lasting) :
    Candidacy n (n.tickElection n.clock.now) := by
  simp only [tickElection]
  split
  · split
    · rename_i hr
      have hcalm :=
        calm_stand (n := { n with standing := { n.standing with election := .idle } }) h hr
      exact .stood hcalm (stand_elects _)
    · exact .passed (ahead_none n.clock.now) rfl rfl
  · rename_i hdue
    exact .passed (Timer.not_hasRunOut_iff.mp hdue) rfl rfl

theorem calm_tickVote (h : n.timing.Lasting)
    (he : Ahead n.clock.now n.standing.election.deadline)
    (hh : Ahead n.clock.now n.standing.heartbeat.deadline) :
    (n.tickVote n.clock.now).standing.Calm n.clock.now := by
  simp only [tickVote]
  split
  · split
    · exact ⟨he, ahead_none n.clock.now, hh⟩
    · exact calm_loseLeader (n := { n with standing := { n.standing with vote := .idle } }) h
    · rename_i hr
      exact calm_stand (n := { n with standing := { n.standing with vote := .idle } }) h hr
  · rename_i hdue
    exact ⟨he, Timer.not_hasRunOut_iff.mp hdue, hh⟩

theorem tickVote_elects (now : Moment) (n : Node) : Elects n (n.tickVote now) := by
  simp only [tickVote]
  split
  · split
    · exact .inl rfl
    · exact .inl (loseLeader_ballot _)
    · exact stand_elects _
  · exact .inl rfl

/-- The elections are over: the timers are set again, and there has been one election at most. -/
theorem calm_tickElection_tickVote (h : n.timing.Lasting)
    (hh : Ahead n.clock.now n.standing.heartbeat.deadline) :
    ((n.tickElection n.clock.now).tickVote n.clock.now).standing.Calm n.clock.now ∧
      Elects n ((n.tickElection n.clock.now).tickVote n.clock.now) := by
  have hsame : Same n (n.tickElection n.clock.now) :=
    Deeds.same (deeds_tickElection (o := .timer n.store) n.clock.now rfl)
  have hcandidacy := candidacy_tickElection h
  generalize n.tickElection n.clock.now = m at hsame hcandidacy
  have hclock : m.clock = n.clock := hsame.clock
  cases hcandidacy with
  | stood hc hb =>
    -- The candidate waits for votes with a fresh timer, so the next stage finds nothing due.
    rw [tickVote_of_ahead hc.vote]
    exact ⟨hc, hb⟩
  | passed he hheartbeat hb =>
    constructor
    · rw [← hclock] at he hh ⊢
      refine calm_tickVote (by rw [hsame.timing]; exact h) he ?_
      rw [hheartbeat]
      exact hh
    · rw [Elects, ← hb]
      exact tickVote_elects n.clock.now m

/-! A round that is put to the vote has all the time that a round may take. -/

theorem Opened.ahead {op : Operation} (h : Opened op n m) (hv : 0 < n.timing.voting.nanos)
    (hr : n.round = none) : Ahead n.clock.now (m.round.map (·.deadline)) := by
  have hnew : n.clock.now < n.clock.now + n.timing.voting.nanos := Nat.lt_add_of_pos_right hv
  cases h with
  | cutOff =>
    have hround : (n.answer op (.error .outvoted)).round = none := hr
    rw [hround]
    exact ahead_none n.clock.now
  | read => exact ahead_some hnew
  | unwritten =>
    simp only [hr]
    exact ahead_none n.clock.now
  | write => exact ahead_some hnew

theorem ahead_decideRound {now : Moment} (h : Ahead now (n.round.map (·.deadline))) :
    Ahead now (n.decideRound.round.map (·.deadline)) := by
  unfold decideRound
  split
  · rw [endRound_round]
    exact ahead_none now
  · rw [endRound_round]
    exact ahead_none now
  · exact h

theorem ahead_drainQueue (ops : List Operation) (hv : 0 < n.timing.voting.nanos)
    (h : Ahead n.clock.now (n.round.map (·.deadline))) :
    Ahead n.clock.now ((n.drainQueue ops).round.map (·.deadline)) := by
  induction ops generalizing n with
  | nil => exact h
  | cons op rest ih =>
    rw [drainQueue]
    split
    -- A round begins only where none is in flight, so its deadline is the only one to look at.
    · rename_i hfree
      have hnone : n.round = none := by
        rw [Bool.and_eq_true, Option.isNone_iff_eq_none] at hfree
        exact hfree.1
      have hdeals : Deals n (n.openRound op).decideRound :=
        (opened op n).deals.trans (deals_decideRound _)
      have hopen := ahead_decideRound ((opened op n).ahead hv hnone)
      rw [← hdeals.clock] at hopen ⊢
      exact ih (by rw [hdeals.timing]; exact hv) hopen
    · exact h

theorem ahead_timeOutRound (hv : 0 < n.timing.voting.nanos) :
    Ahead n.clock.now (n.timeOutRound.round.map (·.deadline)) := by
  have hdeals := deals_endRound (some .timeout) n
  have hnone := endRound_round (some .timeout) n
  rw [timeOutRound, proceed]
  generalize n.endRound (some .timeout) = m at hdeals hnone
  rw [← hdeals.clock]
  refine ahead_drainQueue m.queue (by rw [hdeals.timing]; exact hv) ?_
  rw [hnone]
  exact ahead_none m.clock.now

theorem deals_tickRound (now : Moment) (n : Node) : Deals n (n.tickRound now) := by
  rw [tickRound]
  split
  · exact deals_timeOutRound n
  · exact .refl n

theorem ahead_tickRound (hv : 0 < n.timing.voting.nanos) :
    Ahead n.clock.now ((n.tickRound n.clock.now).round.map (·.deadline)) := by
  rw [tickRound]
  split
  · exact ahead_timeOutRound hv
  · rename_i hdue
    exact not_any_le_iff.mp hdue

/-- The last stage ends the wait for entries and leaves all else alone. -/
theorem Rests.tickCatchUp (hs : n.standing.Calm n.clock.now)
    (hr : Ahead n.clock.now (n.round.map (·.deadline))) : (n.tickCatchUp n.clock.now).Rests := by
  rw [Node.tickCatchUp]
  split
  · exact ⟨hs, hr, ahead_none n.clock.now⟩
  · rename_i hdue
    exact ⟨hs, hr, not_any_le_iff.mp hdue⟩

theorem tickCatchUp_ballot (now : Moment) (n : Node) :
    (n.tickCatchUp now).ballot = n.ballot := by
  rw [tickCatchUp]
  split
  · rfl
  · rfl

theorem rests_tick (h : n.timing.Lasting) : n.tick.Rests ∧ Elects n n.tick := by
  have hsame : Same n (n.tickHeartbeat n.clock.now) :=
    Deeds.same (deeds_tickHeartbeat (o := .other) n.clock.now n)
  have hheartbeat := ahead_tickHeartbeat h
  have hballot := tickHeartbeat_ballot n.clock.now n
  rw [tick, tickAt]
  generalize n.tickHeartbeat n.clock.now = a at hsame hheartbeat hballot
  have ha : a.timing.Lasting := by rw [hsame.timing]; exact h
  -- No stage touches the clock, so each of them is given what its own node reads there.
  rw [← hsame.clock] at hheartbeat ⊢
  obtain ⟨hcalm, helects⟩ := calm_tickElection_tickVote ha hheartbeat
  have hpolls : Same a ((a.tickElection a.clock.now).tickVote a.clock.now) :=
    (Deeds.same (deeds_tickElection (o := .timer a.store) _ rfl)).trans
      (Deeds.same (deeds_tickVote (o := .timer (a.tickElection a.clock.now).store) _ rfl))
  generalize (a.tickElection a.clock.now).tickVote a.clock.now = b at hcalm helects hpolls
  have hb : 0 < b.timing.voting.nanos := by rw [hpolls.timing]; exact ha.voting
  rw [← hpolls.clock] at hcalm ⊢
  have hdeals := deals_tickRound b.clock.now b
  have hround := ahead_tickRound hb
  generalize b.tickRound b.clock.now = c at hdeals hround
  rw [← hdeals.clock] at hcalm hround ⊢
  constructor
  · refine Rests.tickCatchUp ?_ hround
    rw [hdeals.standing]
    exact hcalm
  · rw [Elects, tickCatchUp_ballot, hdeals.ballot, ← hballot]
    exact helects

theorem tick_clock (n : Node) : n.tick.clock = n.clock := (Deeds.same (deeds_tick n)).clock

/-- A node whose next deadline is still to come, or that has none, does nothing, and so it sends and
answers nothing. A node whose next deadline has come has afterwards only deadlines that are still to
come, and it has begun one election at most. -/
theorem nextDue_exact (hv : n.timing.validate = .ok ()) (hh : 0 < n.timing.heartbeat.nanos)
    (he : ∀ pick, 1000000 ≤ (n.timing.electionSpan pick).nanos) :
    ((∀ due, n.nextDue = some due → n.clock.now < due) → n.tick = n) ∧
    (∀ due, n.nextDue = some due → due ≤ n.clock.now →
      (∀ next, n.tick.nextDue = some next → n.clock.now < next) ∧
      (n.tick.ballot = n.ballot ∨ n.tick.ballot = n.ballot.begin)) := by
  constructor
  · intro hahead
    exact (rests_iff.mpr hahead).tick
  · intro due _ _
    obtain ⟨hrests, helects⟩ := rests_tick (Timing.lasting hv hh he)
    refine ⟨?_, helects⟩
    rw [← tick_clock n]
    exact rests_iff.mp hrests

/-- Both the timer for elections and the one for votes have run out. -/
def overdue : Node := ofTwo.setClock ⟨2000000000, ofTwo.clock.today⟩

theorem overdue_elects_once : overdue.nextDue = some 201000000 ∧
    (∀ next, overdue.tick.nextDue = some next → 2000000000 < next) ∧
    (overdue.tick.ballot = overdue.ballot ∨ overdue.tick.ballot = overdue.ballot.begin) := by
  have hdue : overdue.nextDue = some 201000000 := by decide +kernel
  have htimeouts := Timing.electionSpan_ge (t := overdue.timing) (by decide +kernel)
    (by decide +kernel) (by decide +kernel)
  have hexact := nextDue_exact (n := overdue) (by decide +kernel) (by decide +kernel) htimeouts
  exact ⟨hdue, hexact.2 _ hdue (by decide +kernel)⟩

end Node
end Accord
