import Accord.Proofs.Cluster.Election
import Accord.Proofs.Node.Operations

/-! # Elections that outlive a leader

An election is decided once all connected peers have voted, by a candidate that knows no leader at
that moment. The votes are kept while the candidate follows somebody else, so that it may win on
them once that leader is lost. There is no other way: a candidate that followed another node after
its election began has lost its leader again before it takes the lead. -/
namespace Accord

namespace Node

variable {o : Occasion} {n m : Node}

theorem follower_iff : n.role = .follower ↔
    ∃ leader, n.standing.leader = some leader ∧ leader ≠ n.standing.self := by
  rw [role, Standing.role]
  cases n.standing.leader with
  | none => simp
  | some leader => by_cases h : leader = n.standing.self <;> simp [h]

theorem role_congr (hs : m.standing.self = n.standing.self)
    (hl : m.standing.leader = n.standing.leader) : m.role = n.role := by
  simp only [role, Standing.role, hs, hl]

/-- A follower neither hears that it leads itself nor misses the leader that it follows. -/
structure Attached (o : Occasion) (n : Node) : Prop where
  role : n.role = .follower
  news : o ≠ .news n.standing.self
  peer : ∀ leader, n.standing.leader = some leader → o ≠ .departure leader
  timer : ∀ store, o ≠ .timer store

theorem Attached.of_eq (h : Attached o n) (hs : m.standing.self = n.standing.self)
    (hl : m.standing.leader = n.standing.leader) : Attached o m where
  role := (role_congr hs hl).trans h.role
  news := hs ▸ h.news
  peer := hl ▸ h.peer
  timer := h.timer

/-- One deed of a follower: it goes on following somebody. -/
theorem Deed.attached (h : Deed o n m) (hn : Attached o n) : Attached o m := by
  obtain ⟨current, hcurrent, _⟩ := follower_iff.mp hn.role
  cases h with
  | wait _ _ _ hs hl => exact hn.of_eq hs hl
  | forget _ _ _ _ hf =>
    cases hf with
    | departed ho hl => exact absurd ho (hn.peer _ hl)
    | silent ho => exact absurd ho (hn.timer _)
  | @follow leader standing requestedAt hh hs hl =>
    refine ⟨follower_iff.mpr ⟨leader, hl, ?_⟩, ?_, ?_, ?_⟩
    · intro he
      exact hn.news (hh.trans (congrArg _ (he.trans hs)))
    · exact hs ▸ hn.news
    · intro leader' _ ho
      cases hh.symm.trans ho
    · exact hn.timer
  | win _ _ hnone => cases hnone.symm.trans hcurrent
  | reign hw => exact absurd hw (hn.timer _)
  | stand hw => exact absurd hw (hn.timer _)
  | begin _ _ _ ho => cases ho <;> exact hn.of_eq rfl rfl
  | succeed _ _ hc => cases hc <;> exact hn.of_eq rfl rfl
  | fail _ hd => cases hd <;> exact hn.of_eq rfl rfl
  | _ => exact hn.of_eq rfl rfl

theorem Deeds.attached (h : Deeds o n m) (hn : Attached o n) : Attached o m := by
  induction h with
  | refl => exact hn
  | tail _ hd ih => exact hd.attached ih

/-- What happens for no particular reason leaves a follower a follower. -/
theorem Deeds.follower (h : Deeds .other n m) (hn : n.role = .follower) : m.role = .follower := by
  have hattached : Attached .other n :=
    ⟨hn, by rintro ⟨⟩, by rintro _ _ ⟨⟩, by rintro _ ⟨⟩⟩
  exact (Deeds.attached h hattached).role

/-- A follower that stands for election goes on following, unless it is alone in its cluster. -/
theorem stand_follower (hn : n.role = .follower) (hs : n.topology.size ≠ 1) :
    n.stand.role = .follower := by
  have hask : n.askForVotes.role = .follower := by
    unfold askForVotes
    rw [if_neg hs]
    split
    · exact hn
    · split <;> exact hn
  simp only [stand]
  rw [if_neg (by rw [hask]; decide), hask]

/-- A follower that has had a sign of its leader in time goes on following. -/
theorem tick_follower (hn : n.role = .follower)
    (hv : n.standing.vote.hasRunOut n.clock.now = false) : n.tick.role = .follower := by
  rw [tick, tickAt]
  generalize n.clock.now = now at hv ⊢
  have hsign : (n.tickHeartbeat now).role = .follower :=
    Deeds.follower (deeds_tickHeartbeat now n) hn
  have hvote : (n.tickHeartbeat now).standing.vote = n.standing.vote := by
    simp only [tickHeartbeat]
    split
    · split <;> rfl
    · rfl
  generalize n.tickHeartbeat now = a at hsign hvote
  have helection : (a.tickElection now).role = .follower ∧
      (a.tickElection now).standing.vote = a.standing.vote := by
    simp only [tickElection]
    split
    · rw [if_neg]
      · exact ⟨hsign, rfl⟩
      · intro hr
        cases hsign.symm.trans hr
    · exact ⟨hsign, rfl⟩
  have hstill : (a.tickElection now).tickVote now = a.tickElection now := by
    rw [tickVote, helection.2, hvote, if_neg (by rw [hv]; decide)]
  rw [hstill]
  exact Deeds.follower ((deeds_tickRound now _).trans (deeds_tickCatchUp now _)) helection.1

end Node

/-! ## Turns -/

namespace Turn

instance (t : Turn) (c : MemberId) (k logId : Nat) : Decidable (t.Begins c k logId) :=
  decidable_of_iff ((t.before.node? c).any (fun n =>
      n.ballot.round < k ∧ n.lastId.toOption = some logId) = true ∧
    (t.after.node? c).any (fun m => k ≤ m.ballot.round) = true) <| by
      have hok {e : Except StoreError Nat} : e.toOption = some logId ↔ e = .ok logId := by
        cases e <;> simp [Except.toOption]
      simp only [Option.any_eq_true, decide_eq_true_eq, Begins, hok]
      constructor
      · rintro ⟨⟨n, hn, hlt, hl⟩, m, hm, hle⟩
        exact ⟨n, m, hn, hm, hlt, hle, hl⟩
      · rintro ⟨n, m, hn, hm, hlt, hle, hl⟩
        exact ⟨⟨n, hn, hlt, hl⟩, m, hm, hle⟩

/-- After this turn `c` follows another node. -/
def Follows (t : Turn) (c : MemberId) : Prop :=
  ∃ m, t.after.node? c = some m ∧ m.role = .follower

instance (t : Turn) (c : MemberId) : Decidable (t.Follows c) :=
  decidable_of_iff ((t.after.node? c).any (·.role = .follower) = true) <| by
    simp only [Option.any_eq_true, decide_eq_true_eq, Follows]

/-- In this turn `c` presumes the node that it follows lost: the connection has ended, or there was
no sign of it in time. -/
def Loses (t : Turn) (c : MemberId) : Prop :=
  ∃ n, t.before.node? c = some n ∧ n.role = .follower ∧
    ((∃ leader, n.standing.leader = some leader ∧ t.action = .disconnected c leader) ∨
      t.action = .tick c ∧ n.standing.vote.hasRunOut t.before.clock.now = true)

end Turn

section

variable {size : Nat} {turns : List Turn} {w : World} {t : Turn} {c : MemberId}

/-- What has happened when time passes for a node or it is told of a departure. -/
theorem Turn.Acts.action {s : Stimulus} {n : Node} (h : t.Acts c s n) :
    (s = .tick → t.action = .tick c) ∧
      ∀ peer, s = .disconnected peer → t.action = .disconnected c peer := by
  have hs := h.stimulus
  obtain ⟨w, a⟩ := t
  cases a with
  | tick id =>
    cases hs
    exact ⟨fun _ => rfl, by rintro _ ⟨⟩⟩
  | disconnected id peer =>
    cases hs
    refine ⟨by rintro ⟨⟩, fun _ he => ?_⟩
    cases he
    rfl
  | deliver ends =>
    obtain ⟨x, _, he⟩ := Option.map_eq_some_iff.mp hs
    cases he
    exact ⟨by rintro ⟨⟩, by rintro _ ⟨⟩⟩
  | _ => cases hs <;> exact ⟨by rintro ⟨⟩, by rintro _ ⟨⟩⟩

theorem Stimulus.occasion_message (sender : MemberId) (m : Message) (n : Node) :
    (∀ store, (Stimulus.message sender m).occasion n ≠ .timer store) ∧
      ∀ peer, (Stimulus.message sender m).occasion n ≠ .departure peer := by
  simp only [occasion]
  split
  · rename_i m' _
    cases m' <;> exact ⟨by rintro _ ⟨⟩, by rintro _ ⟨⟩⟩
  · exact ⟨by rintro _ ⟨⟩, by rintro _ ⟨⟩⟩

/-- A follower goes on following until it loses its leader. -/
theorem Turn.NodeStep.follower {n m : Node} (h : t.NodeStep c n m)
    (r : Run Action.AnyOrder size turns t.before) (ha : t.action.AnyOrder t.before) (hs : 1 < size)
    (hn : t.before.node? c = some n) (hf : n.role = .follower) (hno : ¬ t.Loses c) :
    m.role = .follower := by
  cases h with
  | rewired hr =>
    obtain ⟨_, _, _, _, rfl⟩ := hr
    exact hf
  | @acted s hact =>
    have hp := r.proper hn
    change (s.react (n.setClock t.before.clock)).role = .follower
    have hstays (htimer : ∀ store, s.occasion (n.setClock t.before.clock) ≠ .timer store)
        (hpeer : ∀ leader, n.standing.leader = some leader →
          s.occasion (n.setClock t.before.clock) ≠ .departure leader) :
        (s.react (n.setClock t.before.clock)).role = .follower := by
      have hin := s.intake_standing (n.setClock t.before.clock)
      refine (Node.Deeds.attached (s.deeds_react (n.setClock t.before.clock)) ⟨?_, ?_, ?_, htimer⟩).role
      · rw [Node.role, hin]
        exact hf
      · rw [hin, show (n.setClock t.before.clock).standing.self = c from hp.standing]
        exact hact.leader_ne r ha
      · rw [hin]
        exact hpeer
    cases s with
    | campaign =>
      refine Node.stand_follower hf fun h => hs.ne' ?_
      exact hp.size.symm.trans h
    | tick =>
      refine Node.tick_follower hf (Bool.eq_false_iff.mpr fun hv => hno ?_)
      exact ⟨n, hn, hf, .inr ⟨hact.action.1 rfl, hv⟩⟩
    | disconnected peer =>
      refine hstays (by rintro _ ⟨⟩) fun leader hl ho => hno ?_
      exact ⟨n, hn, hf, .inl ⟨leader, hl, hact.action.2 leader (by cases ho; rfl)⟩⟩
    | client op => exact hstays (by rintro _ ⟨⟩) (by rintro _ _ ⟨⟩)
    | connected peer => exact hstays (by rintro _ ⟨⟩) (by rintro _ _ ⟨⟩)
    | message sender m =>
      have hocc := Stimulus.occasion_message sender m (n.setClock t.before.clock)
      exact hstays hocc.1 fun leader _ => hocc.2 leader

/-- A node that follows another one after a turn still follows one at the end of the run, unless it
has lost a leader since. -/
theorem Run.follower (hs : 1 < size) {u : Turn} {late : List Turn}
    (r : Run Action.AnyOrder size (turns ++ u :: late) w) (hu : u.Follows c)
    (hno : ∀ v ∈ late, ¬ v.Loses c) {m : Node} (hm : w.node? c = some m) : m.role = .follower := by
  induction late using List.reverseRecOn generalizing w m with
  | nil =>
    obtain ⟨_, _, rfl⟩ := r.last
    obtain ⟨m', hm', hf⟩ := hu
    cases hm.symm.trans hm'
    exact hf
  | append_singleton late v ih =>
    rw [← List.cons_append, ← List.append_assoc] at r
    obtain ⟨r₀, ha, rfl⟩ := r.last
    obtain ⟨n, hn, hstep⟩ := v.nodeStep r₀.settled hm
    have hf := ih r₀ (fun v hv => hno v (List.mem_append_left _ hv)) hn
    exact hstep.follower r₀ ha hs hn hf (hno v (by simp))

/-- The election that a node takes the lead by has begun before. -/
theorem Turn.Promotes.begun {k : Nat} (h : t.Promotes c k)
    (r : Run Action.AnyOrder size turns t.before) (ha : t.action.AnyOrder t.before)
    (hs : 1 < size) : ∃ b ∈ turns, ∃ logId, b.Begins c k logId := by
  obtain ⟨n, n', m, hw⟩ := h.wins r ha hs
  have hg := hw.counts.genuine r ha (r.genuine hw.before)
  have hmany : 0 < n'.ballot.supporters.card := by
    rw [Ballot.card_supporters hg.sorted]
    exact Nat.zero_lt_of_lt (of_decide_eq_true hw.majority)
  obtain ⟨v, hv⟩ := Finset.card_pos.mp hmany
  obtain ⟨_, logId, ⟨b, hb, hbegins⟩, _⟩ := hg.accepted (Ballot.mem_supporters.mp hv)
  exact ⟨b, hb, logId, hw.round ▸ hbegins⟩

/-- Whenever `c` takes the lead by its election `k`, then each time that it followed another node
since this election began, it has lost its leader again afterwards, at the latest in this turn. -/
theorem followed_leader_lost (hs : 1 < size) {k : Nat}
    (r : Run Action.AnyOrder size (turns ++ [t]) w) (h : t.Promotes c k) :
    ∃ early b late logId, turns = early ++ b :: late ∧ b.Begins c k logId ∧
      ∀ xs u ys, b :: late = xs ++ u :: ys → u.Follows c → ∃ v ∈ ys ++ [t], v.Loses c := by
  obtain ⟨r₀, ha, rfl⟩ := r.last
  obtain ⟨b, hb, logId, hbegins⟩ := h.begun r₀ ha hs
  obtain ⟨early, late, rfl⟩ := List.append_of_mem hb
  refine ⟨early, b, late, logId, rfl, hbegins, ?_⟩
  intro xs u ys hsplit hu
  by_contra hno
  obtain ⟨_, m, _, hm, _, hlead, _⟩ := h
  have hrun : Run Action.AnyOrder size ((early ++ xs) ++ u :: (ys ++ [t])) t.after := by
    rw [hsplit] at r
    simpa using r
  have hf := hrun.follower hs hu (fun v hv hl => hno ⟨v, hv, hl⟩) hm
  cases hlead.symm.trans hf

/-- The second of two nodes stands for election, and the first one votes for it. -/
def canvass : List Action :=
  [.openLink ⟨1, 2⟩, .openLink ⟨2, 1⟩, .campaign 2, .deliver ⟨2, 1⟩]

/-- The second node wins and then votes for the first one, which hears of its leader before it gets
the vote; after a minute without a sign it presumes the leader lost. -/
def overtaken : List Action :=
  [.deliver ⟨1, 2⟩, .deliver ⟨1, 2⟩, .deliver ⟨2, 1⟩, .setClock ⟨60000000000, ⟨2024, 1, 1, 60, 0⟩⟩,
    .tick 1]

/-- The first node has stood for election, too, and has lost the leader that it came to follow. -/
def forsaken : World := ((pair.play canvass).perform (.campaign 1)).play overtaken

theorem run_forsaken : Run Action.InOrder 2
    (pair.turns canvass ++ ⟨pair.play canvass, .campaign 1⟩ ::
      ((pair.play canvass).perform (.campaign 1)).turns overtaken) forsaken := by
  have h : Run Action.InOrder 2 (pair.turns canvass) (pair.play canvass) :=
    (Run.start (World.boot_fresh ..)).play canvass (by simp [canvass, Action.InOrder])
  exact h.play (.campaign 1 :: overtaken) (by simp [overtaken, Action.InOrder])

theorem promotes_forsaken : (Turn.mk forsaken (.deliver ⟨2, 1⟩)).Promotes 1 1 := by
  decide +kernel

/-- A node wins an election that began before it followed another leader. -/
theorem late_vote_elects : ∃ early b late t w,
    Run Action.InOrder 2 (early ++ b :: late ++ [t]) w ∧ b.Begins 1 1 0 ∧ t.Promotes 1 1 ∧
      ∃ u ∈ late, u.Follows 1 := by
  have hfollows : (Turn.mk (pair.play canvass) (.campaign 1)).Begins 1 1 0 ∧
      ∃ u ∈ ((pair.play canvass).perform (.campaign 1)).turns overtaken, u.Follows 1 := by
    decide +kernel
  have hrun := run_forsaken.turn (a := .deliver ⟨2, 1⟩) trivial
  exact ⟨_, _, _, _, _, hrun, hfollows.1, promotes_forsaken, hfollows.2⟩

theorem late_vote_follows_loss : ∃ early b late logId,
    (pair.turns canvass ++ ⟨pair.play canvass, .campaign 1⟩ ::
      ((pair.play canvass).perform (.campaign 1)).turns overtaken) = early ++ b :: late ∧
    b.Begins 1 1 logId ∧ ∀ xs u ys, b :: late = xs ++ u :: ys → u.Follows 1 →
      ∃ v ∈ ys ++ [⟨forsaken, .deliver ⟨2, 1⟩⟩], v.Loses 1 :=
  followed_leader_lost (by decide)
    (run_forsaken.anyOrder.turn (a := .deliver ⟨2, 1⟩) trivial) promotes_forsaken

end

end Accord
