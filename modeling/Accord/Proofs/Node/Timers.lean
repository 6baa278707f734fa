import Accord.Proofs.Message.Codec
import Accord.Proofs.Node.Operations

/-! # Timers follow the role

A node without a leader waits for an election and for votes, a follower for a sign of its leader,
and a leader for the time of its next heartbeat. Doing what is due first stops a timer and leaves it
to what follows to set the right ones again; elections may be skipped, be won on the spot or remain
open, and a leader may be found, lost or replaced by any message. Whatever happens to a node, the
timers that are armed afterwards are those of its role. -/
namespace Accord

/-! ## Standings -/

/-- Which timers a role has armed: those for elections, votes and heartbeats. -/
def Role.timers : Role → Bool × Bool × Bool
  | .leaderless => (true, true, false)
  | .follower => (false, true, false)
  | .leader => (false, false, true)

namespace Standing

variable {s : Standing}

/-- The timers that are armed are those of the role. -/
def Regular (s : Standing) : Prop :=
  (s.election.armed, s.vote.armed, s.heartbeat.armed) = s.role.timers

theorem role_of_none (h : s.leader = none) : s.role = .leaderless := by
  rw [role, h]

theorem role_of_self (h : s.leader = some s.self) : s.role = .leader := by
  rw [role, h]
  exact if_pos rfl

theorem role_of_other {leader : MemberId} (h : s.leader = some leader) (hne : leader ≠ s.self) :
    s.role = .follower := by
  rw [role, h]
  exact if_neg hne

theorem regular_search (timing : Timing) (now : Moment) (span : Span) (h : s.role = .leaderless) :
    (s.search timing now span).Regular := by
  have hrole : (s.search timing now span).role = .leaderless := h
  rw [Regular, hrole]
  rfl

theorem regular_seek (timing : Timing) (now : Moment) (span : Span) (s : Standing) :
    (s.seek timing now span).Regular := rfl

theorem regular_lead (timing : Timing) (now : Moment) (s : Standing) :
    (s.lead timing now).Regular := by
  have hrole : (s.lead timing now).role = .leader := role_of_self rfl
  rw [Regular, hrole]
  rfl

theorem regular_follow {leader : MemberId} (timing : Timing) (now : Moment)
    (hne : leader ≠ s.self) : (s.follow leader timing now).Regular := by
  have hrole : (s.follow leader timing now).role = .follower := role_of_other rfl hne
  rw [Regular, hrole]
  rfl

/-- A sign of the leader sets the timer again that a follower has armed anyway. -/
theorem regular_refresh {leader : MemberId} (timing : Timing) (now : Moment)
    (hl : s.leader = some leader) (hne : leader ≠ s.self) (h : s.Regular) :
    (s.refresh timing now).Regular := by
  have hbefore : s.role = .follower := role_of_other hl hne
  have hrole : (s.refresh timing now).role = .follower := role_of_other hl hne
  rw [Regular, hbefore] at h
  simp only [Role.timers, Prod.mk.injEq] at h
  rw [Regular, hrole]
  simp only [Role.timers, refresh, Prod.mk.injEq]
  exact ⟨h.1, rfl, h.2.2⟩

/-- A leader that has given a sign sets its timer for the next one. -/
theorem regular_sign (now : Moment) (span : Span) (hl : s.role = .leader) (h : s.Regular) :
    { s with heartbeat := .arm now span }.Regular := by
  have hrole : { s with heartbeat := .arm now span }.role = .leader := hl
  rw [Regular, hl] at h
  simp only [Role.timers, Prod.mk.injEq] at h
  rw [Regular, hrole]
  simp only [Role.timers, Prod.mk.injEq]
  exact ⟨h.1, h.2.1, rfl⟩

/-! The timers that run out tell the role. -/

theorem Regular.leader_of_heartbeat (h : s.Regular) (ha : s.heartbeat.armed = true) :
    s.role = .leader := by
  rw [Regular, ha] at h
  cases hr : s.role with
  | leader => rfl
  | follower => simp [hr, Role.timers] at h
  | leaderless => simp [hr, Role.timers] at h

theorem Regular.leaderless_of_election (h : s.Regular) (ha : s.election.armed = true) :
    s.role = .leaderless := by
  rw [Regular, ha] at h
  cases hr : s.role with
  | leader => simp [hr, Role.timers] at h
  | follower => simp [hr, Role.timers] at h
  | leaderless => rfl

theorem Regular.not_leader_of_vote (h : s.Regular) (ha : s.vote.armed = true) :
    s.role ≠ .leader := by
  intro hr
  simp [Regular, ha, hr, Role.timers] at h

end Standing

theorem Timer.armed_of_hasRunOut {t : Timer} {now : Moment} (h : t.hasRunOut now = true) :
    t.armed = true := by
  cases hd : t.deadline with
  | none =>
    rw [hasRunOut, hd] at h
    cases h
  | some deadline =>
    rw [armed, hd]
    rfl

/-! ## What rounds leave alone -/

namespace Node

variable {n m : Node}

/-- A relation that holds wherever a node does one thing for its operations. -/
structure Dealing (R : Node → Node → Prop) : Prop where
  refl : ∀ n, R n n
  trans : ∀ {n m l}, R n m → R m l → R n l
  opened : ∀ {op n m}, Opened op n m → R n m
  carried : ∀ {r n m}, Carried r n m → R n m
  dropped : ∀ {r e n m}, Dropped r e n m → R n m
  setQueue : ∀ queue n, R n (n.setQueue queue)
  answer : ∀ op reply n, R n (n.answer op reply)

namespace Dealing

variable {R : Node → Node → Prop} (h : Dealing R)

include h

theorem endRound (failure : Option ReplyError) (n : Node) : R n (n.endRound failure) := by
  cases hr : n.round with
  | none =>
    rw [endRound_of_none hr]
    exact h.refl n
  | some r =>
    cases failure with
    | none => exact h.carried (Node.carried hr)
    | some e => exact h.dropped (Node.dropped hr e)

theorem decideRound (n : Node) : R n n.decideRound := by
  unfold Node.decideRound
  split
  · exact h.endRound none n
  · exact h.endRound (some .outvoted) n
  · exact h.refl n

theorem drainQueue (ops : List Operation) (n : Node) : R n (n.drainQueue ops) := by
  induction ops generalizing n with
  | nil => exact h.setQueue [] n
  | cons op rest ih =>
    rw [Node.drainQueue]
    split
    · exact h.trans (h.trans (h.opened (Node.opened op n)) (h.decideRound _)) (ih _)
    · exact h.setQueue (op :: rest) n

theorem proceed (n : Node) : R n n.proceed := h.drainQueue n.queue n

theorem submit (op : Operation) (n : Node) : R n (n.submit op) := by
  unfold Node.submit
  split
  · exact h.trans (h.setQueue (n.queue ++ [op]) n) (h.proceed _)
  · exact h.answer op _ n

theorem timeOutRound (n : Node) : R n n.timeOutRound :=
  h.trans (h.endRound (some .timeout) n) (h.proceed _)

theorem failAll (e : ReplyError) (n : Node) : R n (n.failAll e) := by
  have hall (ops : List Operation) (m : Node) :
      R m (ops.foldl (fun n op => n.answer op (.error e)) m) := by
    induction ops generalizing m with
    | nil => exact h.refl m
    | cons op rest ih => exact h.trans (h.answer op _ m) (ih _)
  have hidle : R n ((n.endRound (some e)).setQueue []) :=
    h.trans (h.endRound (some e) n) (h.setQueue [] _)
  exact h.trans hidle (hall _ _)

end Dealing

/-- A node that is occupied with its operations. -/
structure Deals (n m : Node) : Prop where
  topology : m.topology = n.topology
  timing : m.timing = n.timing
  clock : m.clock = n.clock
  standing : m.standing = n.standing
  ballot : m.ballot = n.ballot

theorem Deals.refl (n : Node) : Deals n n := ⟨rfl, rfl, rfl, rfl, rfl⟩

theorem Deals.trans {l : Node} (h : Deals n m) (h' : Deals m l) : Deals n l :=
  ⟨h'.1.trans h.1, h'.2.trans h.2, h'.3.trans h.3, h'.4.trans h.4, h'.5.trans h.5⟩

theorem Opened.deals {op : Operation} (h : Opened op n m) : Deals n m := by
  cases h <;> exact ⟨rfl, rfl, rfl, rfl, rfl⟩

theorem dealing_deals : Dealing Deals where
  refl := Deals.refl
  trans := Deals.trans
  opened := Opened.deals
  carried h := by cases h <;> exact ⟨rfl, rfl, rfl, rfl, rfl⟩
  dropped h := by cases h <;> exact ⟨rfl, rfl, rfl, rfl, rfl⟩
  setQueue _ _ := ⟨rfl, rfl, rfl, rfl, rfl⟩
  answer _ _ _ := ⟨rfl, rfl, rfl, rfl, rfl⟩

theorem deals_endRound (failure : Option ReplyError) (n : Node) :
    Deals n (n.endRound failure) := dealing_deals.endRound failure n

theorem deals_decideRound (n : Node) : Deals n n.decideRound := dealing_deals.decideRound n

theorem deals_proceed (n : Node) : Deals n n.proceed := dealing_deals.proceed n

theorem deals_submit (op : Operation) (n : Node) : Deals n (n.submit op) :=
  dealing_deals.submit op n

theorem deals_timeOutRound (n : Node) : Deals n n.timeOutRound := dealing_deals.timeOutRound n

/-! ## Handlers -/

/-- A node whose timers are those of its role. -/
structure Punctual (n : Node) : Prop where
  self : n.standing.self = n.topology.self
  regular : n.standing.Regular

theorem Deals.punctual (h : Deals n m) (hn : n.Punctual) : m.Punctual where
  self := by rw [h.standing, h.topology, hn.self]
  regular := by rw [h.standing]; exact hn.regular

/-- A node with any timers that sets them for its role. -/
theorem Same.punctual (h : Same n m) (hs : n.standing.self = n.topology.self)
    (hm : m.standing.Regular) : m.Punctual where
  self := by rw [h.self, h.topology, hs]
  regular := hm

theorem same_loseLeader (n : Node) : Same n n.loseLeader := by
  unfold loseLeader seek
  obtain ⟨pick, dice⟩ := n.dice.roll
  exact ⟨rfl, rfl, rfl, rfl, rfl⟩

theorem regular_loseLeader (n : Node) : n.loseLeader.standing.Regular := by
  unfold loseLeader seek
  obtain ⟨pick, dice⟩ := n.dice.roll
  exact Standing.regular_seek n.timing n.clock.now (n.timing.electionSpan pick) n.standing

theorem regular_promote (n : Node) : n.promote.standing.Regular :=
  Standing.regular_lead n.timing n.clock.now n.standing

theorem regular_node_search (h : n.role = .leaderless) : n.search.standing.Regular := by
  unfold search
  obtain ⟨pick, dice⟩ := n.dice.roll
  exact Standing.regular_search n.timing n.clock.now (n.timing.electionSpan pick) h

/-- Asking for votes makes a node the leader at once or leaves its standing as it is. -/
theorem askForVotes_standing (n : Node) :
    n.askForVotes = n.promote ∨ n.askForVotes.standing = n.standing := by
  unfold askForVotes
  split
  · split
    · exact .inl rfl
    · exact .inr rfl
  · split
    · exact .inr rfl
    · exact .inr rfl

/-- A candidate has the right timers afterwards, whichever it had before: only a node that knows a
leader keeps its own. -/
theorem regular_stand (h : n.role ≠ .leaderless → n.standing.Regular) :
    n.stand.standing.Regular := by
  have hasked : n.askForVotes.role ≠ .leaderless → n.askForVotes.standing.Regular := by
    intro hrole
    rcases n.askForVotes_standing with hp | hs
    · rw [hp]
      exact regular_promote n
    · rw [role, hs] at hrole
      rw [hs]
      exact h hrole
  simp only [stand]
  split
  · rename_i hrole
    exact regular_node_search hrole
  · rename_i hrole
    exact hasked hrole

theorem same_stand (n : Node) : Same n n.stand :=
  Deeds.same (deeds_stand (o := .timer n.store) rfl)

theorem Punctual.stand (h : n.Punctual) : n.stand.Punctual :=
  (same_stand n).punctual h.self (regular_stand fun _ => h.regular)

theorem Punctual.decideElection (h : n.Punctual) : n.decideElection.Punctual := by
  have hsame : Same n n.decideElection :=
    Deeds.same (deeds_decideElection (o := .other) rfl n)
  refine hsame.punctual h.self ?_
  simp only [Node.decideElection]
  split
  · exact h.regular
  · split
    · exact regular_promote _
    · exact h.regular

theorem Punctual.turnTo {leader : MemberId} (h : n.Punctual) (hne : leader ≠ n.id) :
    (n.turnTo leader).Punctual := by
  have hsame : Same n (n.turnTo leader) := Deeds.same (deeds_turnTo (o := .news leader) rfl n)
  refine hsame.punctual h.self ?_
  have hfollow (m : Node) (hm : Same n m) :
      (m.standing.follow leader m.timing m.clock.now).Regular := by
    refine Standing.regular_follow m.timing m.clock.now ?_
    rw [hm.self, h.self]
    exact hne
  simp only [Node.turnTo]
  split
  · exact hfollow _ (Deeds.same (deeds_failAll (o := .other) _ n))
  · exact hfollow n (.refl n)

theorem catchUp_standing (leader : MemberId) (logId : Int) (n : Node) :
    (n.catchUp leader logId).standing = n.standing := by
  unfold catchUp
  split
  · rfl
  · simp only
    split
    · rfl
    · split
      · rfl
      · rfl

theorem Punctual.catchUp (h : n.Punctual) (leader : MemberId) (logId : Int) :
    (n.catchUp leader logId).Punctual :=
  (Deeds.same (deeds_catchUp (o := .other) leader logId n)).punctual h.self
    (by rw [catchUp_standing]; exact h.regular)

theorem Punctual.onHeartbeat {leader : MemberId} (h : n.Punctual) (hne : leader ≠ n.id)
    (logId : Int) : (n.onHeartbeat leader logId).Punctual := by
  have hself : leader ≠ n.standing.self := by rw [h.self]; exact hne
  unfold Node.onHeartbeat
  split
  · have hfollow : { n with standing := n.standing.follow leader n.timing n.clock.now }.Punctual :=
      ⟨h.self, Standing.regular_follow n.timing n.clock.now hself⟩
    exact hfollow.catchUp leader logId
  · rename_i current hl
    split
    · rename_i hc
      subst hc
      have hrefresh : { n with standing := n.standing.refresh n.timing n.clock.now }.Punctual :=
        ⟨h.self, Standing.regular_refresh n.timing n.clock.now hl hself h.regular⟩
      exact hrefresh.catchUp current logId
    · split
      · split
        · exact (h.turnTo hne).catchUp leader logId
        · exact h
      · exact h

theorem Punctual.absorb (h : n.Punctual) (sender : MemberId) (msg : Message) :
    (n.absorb sender msg).Punctual := by
  obtain ⟨hsame, hstanding⟩ := (absorbed sender msg n).same
  refine hsame.punctual h.self ?_
  rw [hstanding]
  exact h.regular

theorem Punctual.onMessage {msg : Message} (h : n.Punctual) (sender : MemberId)
    (hecho : ∀ logId, msg ≠ .heartbeat n.id logId) : (n.onMessage sender msg).Punctual := by
  have habsorb := h.absorb sender msg
  cases msg with
  | vote voter accept round =>
    simp only [Node.onMessage, onVote]
    split
    · exact Punctual.decideElection (n := { n with ballot := n.ballot.record voter accept })
        ⟨h.self, h.regular⟩
    · exact h
  | announcement leader =>
    simp only [Node.onMessage, onAnnouncement]
    split
    · exact h
    · rename_i hne
      exact h.turnTo hne
  | heartbeat leader logId =>
    refine h.onHeartbeat ?_ logId
    intro heq
    exact hecho logId (by rw [heq])
  | roundAnswer digest round =>
    simp only [Node.onMessage, onRoundAnswer]
    split
    · exact h
    · rename_i r _
      split
      · exact h
      · refine ((deals_decideRound _).trans (deals_proceed _)).punctual ?_
        exact ⟨h.self, h.regular⟩
  | _ => exact habsorb

theorem Punctual.onDisconnected (h : n.Punctual) (peer : MemberId) :
    (n.onDisconnected peer).Punctual := by
  have hrest {m : Node} (hm : m.Punctual) : m.decideElection.decideRound.proceed.Punctual :=
    ((deals_decideRound _).trans (deals_proceed _)).punctual hm.decideElection
  simp only [Node.onDisconnected]
  split
  · exact hrest ((same_loseLeader n).punctual h.self (regular_loseLeader n))
  · exact hrest h

end Node

/-- A heartbeat that names the node itself as its leader. -/
def Event.Echoes (self : MemberId) : Event → Prop
  | .frame _ text => ∃ logId, Message.ofText text = .ok (.heartbeat self logId)
  | _ => False

namespace Node

variable {n m : Node}

theorem Punctual.handle {event : Event} (h : n.Punctual) (he : ¬ event.Echoes n.id) :
    (n.handle event).Punctual := by
  cases event with
  | frame sender text =>
    simp only [Node.handle, onFrame]
    split
    · rename_i msg hread
      refine h.onMessage sender ?_
      intro logId heq
      exact he ⟨logId, by rw [hread, heq]⟩
    · exact h
  | connected peer =>
    simp only [Node.handle, onConnected]
    split
    · exact ⟨h.self, h.regular⟩
    · exact h
  | disconnected peer => exact h.onDisconnected peer
  | client op => exact (deals_submit op n).punctual h
  | campaign => exact h.stand

/-! ## Time -/

theorem Punctual.tickHeartbeat (h : n.Punctual) (now : Moment) :
    (n.tickHeartbeat now).Punctual := by
  simp only [Node.tickHeartbeat]
  split
  · rename_i hdue
    have hrole := h.regular.leader_of_heartbeat (Timer.armed_of_hasRunOut hdue)
    have hleads : { n with standing := { n.standing with heartbeat := .idle } }.leads = true :=
      leads_iff.mpr (role_iff.mp hrole)
    rw [if_pos hleads]
    have hsign := Standing.regular_sign n.clock.now n.timing.heartbeat hrole h.regular
    exact ⟨h.self, hsign⟩
  · exact h

theorem Punctual.tickElection (h : n.Punctual) (now : Moment) :
    (n.tickElection now).Punctual := by
  simp only [Node.tickElection]
  split
  · rename_i hdue
    have hrole : { n with standing := { n.standing with election := .idle } }.role = .leaderless :=
      h.regular.leaderless_of_election (Timer.armed_of_hasRunOut hdue)
    rw [if_pos hrole]
    -- The timer that has run out is stopped, but a candidate sets all of them again.
    have hsame := same_stand { n with standing := { n.standing with election := .idle } }
    exact hsame.punctual h.self (regular_stand fun hne => absurd hrole hne)
  · exact h

theorem Punctual.tickVote (h : n.Punctual) (now : Moment) : (n.tickVote now).Punctual := by
  simp only [Node.tickVote]
  split
  · rename_i hdue
    have hrole := h.regular.not_leader_of_vote (Timer.armed_of_hasRunOut hdue)
    split
    · rename_i hleader
      exact absurd hleader hrole
    · exact (same_loseLeader _).punctual h.self (regular_loseLeader _)
    · rename_i hnone
      exact (same_stand _).punctual h.self (regular_stand fun hne => absurd hnone hne)
  · exact h

theorem Punctual.tickAt (h : n.Punctual) (now : Moment) : (n.tickAt now).Punctual := by
  have hvote := ((h.tickHeartbeat now).tickElection now).tickVote now
  rw [Node.tickAt]
  generalize ((n.tickHeartbeat now).tickElection now).tickVote now = m at hvote
  have hround : (m.tickRound now).Punctual := by
    rw [tickRound]
    split
    · exact (deals_timeOutRound m).punctual hvote
    · exact hvote
  rw [tickCatchUp]
  split
  · exact ⟨hround.self, hround.regular⟩
  · exact hround

end Node

/-! ## Courses -/

/-- A node that has been started, after any number of steps: it handles events, none of which is a
heartbeat of its own, and does what is due at any moments, while its connections, its store and its
clock change at will. -/
inductive Node.Course : Node → Prop
  | start (topology : Topology) (timing : Timing) (clock : Clock) (dice : Dice) (store : Store) :
      Course (Node.new topology timing clock dice store).start
  | handle {n : Node} (event : Event) (h : Course n) (he : ¬ event.Echoes n.id) :
      Course (n.handle event)
  | tick {n : Node} (now : Moment) (h : Course n) : Course (n.tickAt now)
  | rewire {n : Node} (directory : Directory) (store : Store) (clock : Clock) (h : Course n) :
      Course { n with directory, store, clock }
  | collect {n : Node} (h : Course n) : Course n.collect.2

namespace Node

variable {n : Node}

theorem Course.punctual (h : Course n) : n.Punctual := by
  induction h with
  | start topology timing clock dice store =>
    unfold Node.start seek
    obtain ⟨pick, dice⟩ := (Node.new topology timing clock dice store).dice.roll
    exact ⟨rfl, rfl⟩
  | handle event _ he ih => exact ih.handle he
  | tick now _ ih => exact ih.tickAt now
  | rewire _ _ _ _ ih => exact ⟨ih.self, ih.regular⟩
  | collect _ ih => exact ⟨ih.self, ih.regular⟩

/-- At any time a node that knows no leader has its timers for elections and votes armed and the one
for heartbeats not, a node that follows another one has only the one for votes armed, and a leader
has only the one for heartbeats armed. -/
theorem timers_follow_role (h : Course n) :
    (n.standing.leader = none → n.standing.election.armed = true ∧ n.standing.vote.armed = true ∧
      n.standing.heartbeat.armed = false) ∧
    (∀ leader, n.standing.leader = some leader → leader ≠ n.id →
      n.standing.election.armed = false ∧ n.standing.vote.armed = true ∧
        n.standing.heartbeat.armed = false) ∧
    (n.standing.leader = some n.id → n.standing.election.armed = false ∧
      n.standing.vote.armed = false ∧ n.standing.heartbeat.armed = true) := by
  obtain ⟨hself, hregular⟩ := h.punctual
  have harmed {role : Role} (hr : n.standing.role = role) :
      (n.standing.election.armed, n.standing.vote.armed, n.standing.heartbeat.armed) =
        role.timers := by
    rw [← hr]
    exact hregular
  refine ⟨?_, ?_, ?_⟩
  · intro hl
    simpa [Role.timers] using harmed (Standing.role_of_none hl)
  · intro leader hl hne
    rw [id, ← hself] at hne
    simpa [Role.timers] using harmed (Standing.role_of_other hl hne)
  · intro hl
    rw [id, ← hself] at hl
    simpa [Role.timers] using harmed (Standing.role_of_self hl)

/-- A message that was written as something else is no heartbeat. -/
theorem not_echoes_text (msg : Message) (h : msg.kind ≠ .heartbeat) (sender self : MemberId) :
    ¬ (Event.frame sender msg.text).Echoes self := by
  intro hecho
  obtain ⟨logId, hread⟩ := hecho
  exact h (Message.kind_of_ofText hread).symm

/-- A node is elected and gives a sign; then it hears of another leader, and no more of it. -/
def interregnum : Node :=
  let elected := (ofTwo.handle .campaign).handle (.frame 2 (Message.text (.vote 2 true (some 1))))
  let deposed :=
    (elected.tickAt 500000000).handle (.frame 2 (Message.text (.announcement 2)))
  deposed.tickAt 1500000000

theorem interregnum_timers : Course interregnum ∧ interregnum.standing.leader = none ∧
    interregnum.standing.election.armed = true ∧ interregnum.standing.vote.armed = true ∧
    interregnum.standing.heartbeat.armed = false := by
  have hcampaign : Course (ofTwo.handle .campaign) :=
    .handle _ (.rewire _ _ _ (.start _ _ _ _ _)) (by rintro ⟨⟩)
  have helected := hcampaign.handle _
    (not_echoes_text (.vote 2 true (some 1)) (by decide) 2 _)
  have hdeposed := (helected.tick 500000000).handle _
    (not_echoes_text (.announcement 2) (by decide) 2 _)
  have hcourse : Course interregnum := hdeposed.tick 1500000000
  have hleader : interregnum.standing.leader = none := by decide +kernel
  exact ⟨hcourse, hleader, (timers_follow_role hcourse).1 hleader⟩

end Node
end Accord
