import Accord.Proofs.Node.Wait

/-! # Requests for missing entries

A follower does not ask for entries again while the answer may still come, and it stops waiting for
a leader that it no longer follows. This follows, over all that a node goes through, from what each
step does to the wait. -/
namespace Accord

/-! ## Walks -/

/-- A step of a node: the node that takes it and what it is given to do. -/
structure Stride where
  before : Node
  move : Move

namespace Stride

def after (s : Stride) : Node := s.move.run s.before

def time (s : Stride) : Moment := s.before.clock.now

/-- The peers that are asked for entries. -/
def asks (s : Stride) : List MemberId := asked s.after.outbox

/-- The requests for entries, each with its time. -/
def requests (s : Stride) : List (Moment × MemberId) := s.asks.map fun peer => (s.time, peer)

/-- What ends a wait for entries before its time: entries, news of another leader, the lead, or the
loss of the leader. Whoever gives way to another leader has taken the lead before. -/
def EndsWait (s : Stride) : Prop :=
  s.move.EndsWait s.before.id ∨
  (s.before.leads = false ∧ s.after.leads = true) ∨
  (s.before.standing.leader ≠ none ∧ s.after.standing.leader = none)

end Stride

/-- A walk of a node from one state to another. Before each step its connections, its store and
its clock change at will, but the clock does not go back; no step is a heartbeat of its own. What
the node sends is collected after each step. -/
inductive Node.Walk : Node → List Stride → Node → Prop
  | nil (n : Node) : Walk n [] n
  | cons {n m : Node} {rest : List Stride} (directory : Directory) (store : Store) (clock : Clock)
      (move : Move) (hnow : n.clock.now ≤ clock.now) (hecho : ¬ move.Echoes n.id)
      (h : Walk (Stride.mk { n with directory, store, clock } move).after.collect.2 rest m) :
      Walk n (⟨{ n with directory, store, clock }, move⟩ :: rest) m

namespace Node

variable {n m : Node} {timing : Timing} {last : Option (Moment × MemberId)} {t : Moment}

theorem Walk.split {earlier later : List Stride} (h : Walk n (earlier ++ later) m) :
    ∃ l, Walk n earlier l ∧ Walk l later m := by
  induction earlier generalizing n with
  | nil => exact ⟨n, .nil n, h⟩
  | cons s earlier ih =>
    cases h with
    | cons directory store clock move hnow hecho h =>
      obtain ⟨l, hearlier, hlater⟩ := ih h
      exact ⟨l, .cons directory store clock move hnow hecho hearlier, hlater⟩

/-! ## The last request -/

/-- What is known of a node between two steps: whoever waits for entries follows another node, and
the last request went to it when the wait began. -/
structure Expects (timing : Timing) (last : Option (Moment × MemberId)) (n : Node) : Prop where
  outbox : n.outbox = []
  self : n.standing.self = n.id
  timing : n.timing = timing
  wait : ∀ since, n.requestedAt = some since → ∃ leader,
    n.standing.leader = some leader ∧ leader ≠ n.standing.self ∧ last = some (since, leader)

theorem expects_start (topology : Topology) (timing : Timing) (clock : Clock) (dice : Dice)
    (store : Store) : Expects timing none (Node.new topology timing clock dice store).start := by
  unfold Node.start seek
  obtain ⟨pick, dice⟩ := (Node.new topology timing clock dice store).dice.roll
  refine ⟨rfl, rfl, rfl, ?_⟩
  intro since hsince
  cases hsince

theorem Expects.rewire (h : Expects timing last n) (directory : Directory) (store : Store)
    (clock : Clock) : Expects timing last { n with directory, store, clock } :=
  ⟨h.outbox, h.self, h.timing, h.wait⟩

theorem Expects.waiting (h : Expects timing last n) : n.Waiting := by
  intro since hsince
  obtain ⟨leader, hleader, hne, -⟩ := h.wait since hsince
  exact ⟨leader, hleader, hne⟩

theorem Expects.asked_outbox (h : Expects timing last n) : asked n.outbox = [] := by
  rw [h.outbox]
  rfl

theorem Expects.asks_eq {s : Stride} {peer : MemberId} (h : Expects timing last s.before)
    (ha : Asks peer s.before s.after) : s.asks = [peer] := by
  rw [Stride.asks, ha.asked, h.asked_outbox, List.nil_append]

theorem Expects.bears {s : Stride} (h : Expects timing last s.before)
    (he : ¬ s.move.Echoes s.before.id) : Bears s.move s.before s.after :=
  bears_run h.waiting h.self he

theorem Bears.same {move : Move} (h : Bears move n m) : Same n m := by
  cases h with
  | abides h => exact h.same
  | rests hsame => exact hsame
  | asks _ h => exact h.same

/-- What a step asks: nobody, or the leader that it then waits for. -/
theorem Expects.asks_cases {s : Stride} (h : Expects timing last s.before)
    (he : Bears s.move s.before s.after) :
    s.asks = [] ∨ ∃ peer, s.asks = [peer] ∧ Asks peer s.before s.after := by
  cases he with
  | abides ha => exact .inl (ha.asked.trans h.asked_outbox)
  | rests _ hasked => exact .inl (hasked.trans h.asked_outbox)
  | asks _ ha => exact .inr ⟨_, h.asks_eq ha, ha⟩

/-- A step keeps what is known, with its own request as the last one if it makes one. -/
theorem Expects.step {s : Stride} (h : Expects timing last s.before)
    (he : Bears s.move s.before s.after) :
    Expects timing (s.requests.getLast?.or last) s.after.collect.2 := by
  have hsame := he.same
  refine ⟨rfl, ?_, hsame.timing.trans h.timing, ?_⟩
  · show s.after.standing.self = s.after.topology.self
    rw [hsame.self, hsame.topology]
    exact h.self
  show ∀ since, s.after.requestedAt = some since → ∃ leader,
    s.after.standing.leader = some leader ∧ leader ≠ s.after.standing.self ∧
      s.requests.getLast?.or last = some (since, leader)
  intro since hsince
  rw [hsame.self]
  cases he with
  | abides ha =>
    cases ha with
    | waits _ hasked hkept hleader =>
      have hnone : s.asks = [] := hasked.trans h.asked_outbox
      rw [Stride.requests, hnone, hleader]
      exact h.wait since (hkept ▸ hsince)
    | quits _ _ hnone =>
      rw [hnone] at hsince
      cases hsince
  | rests _ _ hnone =>
    rw [hnone] at hsince
    cases hsince
  | @asks peer hne ha =>
    have hnow : s.before.clock.now = since := Option.some.inj (ha.since.symm.trans hsince)
    refine ⟨peer, ha.leader, hne, ?_⟩
    rw [Stride.requests, h.asks_eq ha, Stride.time, hnow]
    rfl

theorem Walk.expects {past : List Stride} (h : Walk n past m) (hn : Expects timing last n) :
    Expects timing ((past.flatMap Stride.requests).getLast?.or last) m := by
  induction h generalizing last with
  | nil => exact hn
  | cons directory store clock move _ hecho _ ih =>
    have hbefore := hn.rewire directory store clock
    have hbears := Expects.bears (s := ⟨_, move⟩) hbefore hecho
    have hrest := ih (hbefore.step hbears)
    rw [List.flatMap_cons, List.getLast?_append, Option.or_assoc]
    exact hrest

/-- What is known of a step on the way. -/
theorem Walk.stride {earlier later : List Stride} {s : Stride}
    (h : Walk n (earlier ++ s :: later) m) (hn : Expects timing last n) :
    ∃ known, Expects timing known s.before ∧ Bears s.move s.before s.after ∧
      Walk s.after.collect.2 later m := by
  obtain ⟨l, hearlier, hlater⟩ := h.split
  cases hlater with
  | cons directory store clock move _ hecho hlater =>
    have hbefore := (hearlier.expects hn).rewire directory store clock
    exact ⟨_, hbefore, Expects.bears (s := ⟨_, move⟩) hbefore hecho, hlater⟩

/-! ## The time between requests -/

/-- A node that has asked at time `t` waits since then or later, or its time to wait is over. -/
def Patient (t : Moment) (n : Node) : Prop :=
  match n.requestedAt with
  | some since => t ≤ since
  | none => t + n.timing.vote.nanos ≤ n.clock.now

theorem Patient.rewire (h : Patient t n) (directory : Directory) (store : Store) {clock : Clock}
    (hnow : n.clock.now ≤ clock.now) : Patient t { n with directory, store, clock } := by
  unfold Patient at h ⊢
  cases hsince : n.requestedAt with
  | some since => simpa only [hsince] using h
  | none =>
    simp only [hsince] at h ⊢
    exact h.trans hnow

/-- Whoever asks then has waited long enough. -/
theorem Patient.due {peer : MemberId} (h : Patient t n) (ha : Asks peer n m) :
    t + n.timing.vote.nanos ≤ n.clock.now := by
  unfold Patient at h
  cases hsince : n.requestedAt with
  | some since =>
    simp only [hsince] at h
    exact (Nat.add_le_add_right h _).trans (ha.due since hsince)
  | none => simpa only [hsince] using h

/-- A node that stops waiting because it knows no other leader has taken the lead or lost its
leader. -/
theorem endsWait_of_quits {s : Stride} {since : Moment} (hw : s.before.Waiting)
    (hsince : s.before.requestedAt = some since)
    (hleader : ∀ leader, s.after.standing.leader = some leader → leader = s.after.standing.self) :
    s.EndsWait := by
  obtain ⟨leader, hbefore, hne⟩ := hw since hsince
  cases hafter : s.after.standing.leader with
  | none =>
    refine .inr (.inr ⟨?_, hafter⟩)
    rw [hbefore]
    exact Option.some_ne_none leader
  | some successor =>
    refine .inr (.inl ⟨?_, ?_⟩)
    · rw [← Bool.not_eq_true, leads_iff, hbefore]
      intro heq
      exact hne (Option.some.inj heq)
    · rw [leads_iff, hafter, hleader successor hafter]

theorem Patient.step {s : Stride} (h : Patient t s.before) (hn : Expects timing last s.before)
    (he : Bears s.move s.before s.after) (hends : ¬ s.EndsWait) :
    Patient t s.after.collect.2 := by
  have hsame := he.same
  show Patient t s.after
  unfold Patient
  rw [hsame.timing, hsame.clock]
  cases he with
  | abides ha =>
    cases ha with
    | waits _ _ hkept =>
      rw [hkept]
      exact h
    | quits _ _ hnone hleader =>
      rw [hnone]
      cases hsince : s.before.requestedAt with
      | none => simpa only [Patient, hsince] using h
      | some since =>
        exact absurd (endsWait_of_quits hn.waiting hsince hleader) hends
  | rests _ _ hnone hwhy =>
    rw [hnone]
    cases hsince : s.before.requestedAt with
    | none => simpa only [Patient, hsince] using h
    | some since =>
      rcases hwhy since hsince with hover | hends'
      · simp only [Patient, hsince] at h
        exact (Nat.add_le_add_right h _).trans hover
      · exact absurd (.inl hends') hends
  | asks _ ha =>
    rw [ha.since]
    exact (Nat.le_add_right t _).trans (h.due ha)

theorem Walk.patient {past : List Stride} (h : Walk n past m) (hn : Expects timing last n)
    (ht : Patient t n) (hends : ∀ s ∈ past, ¬ s.EndsWait) : Patient t m := by
  induction h generalizing last with
  | nil => exact ht
  | cons directory store clock move hnow hecho _ ih =>
    have hbefore := hn.rewire directory store clock
    have hbears := Expects.bears (s := ⟨_, move⟩) hbefore hecho
    have hpatient := (ht.rewire directory store hnow).step hbefore hbears
      (hends _ List.mem_cons_self)
    exact ih (hbefore.step hbears) hpatient (fun s hs => hends s (List.mem_cons_of_mem _ hs))

/-- A request that follows another one, with nothing in between that ends the wait, comes when the
time to wait is over. -/
theorem Walk.spaced {earlier between later : List Stride} {a b : Stride}
    (h : Walk n (earlier ++ a :: (between ++ b :: later)) m) (hn : Expects timing last n)
    (ha : a.asks ≠ []) (hb : b.asks ≠ []) (hends : ∀ s ∈ between, ¬ s.EndsWait) :
    a.time + timing.vote.nanos ≤ b.time := by
  obtain ⟨_, hknown, hbears, hrest⟩ := h.stride hn
  rcases hknown.asks_cases hbears with hnone | ⟨_, _, hasks⟩
  · exact absurd hnone ha
  have hafter := hknown.step hbears
  have hpatient : Patient a.time a.after.collect.2 := by
    show Patient a.time a.after
    rw [Patient, hasks.since]
    exact le_refl a.time
  obtain ⟨l, hbetween, hlater⟩ := hrest.split
  have hl := hbetween.expects hafter
  have hpatient := hbetween.patient hafter hpatient hends
  cases hlater with
  | cons directory store clock move hnow hecho _ =>
    have hbefore := hl.rewire directory store clock
    rcases hbefore.asks_cases (Expects.bears (s := ⟨_, move⟩) hbefore hecho) with
      hnone | ⟨_, _, hasks⟩
    · exact absurd hnone hb
    · have hdue := (hpatient.rewire directory store hnow).due hasks
      rw [← hbefore.timing]
      exact hdue

/-- In the whole life of a node, whoever waits for entries is a follower, and the last request went
to its leader when the wait began. A step asks one peer at most. From one request to the next it
takes as long as a node waits for entries, unless in between entries come, another leader is
announced, the node takes the lead or it loses its leader. -/
theorem requests_one_at_a_time {topology : Topology} {clock : Clock} {dice : Dice} {store : Store}
    {past : List Stride} (h : Walk (Node.new topology timing clock dice store).start past n) :
    (∀ since, n.requestedAt = some since → n.role = .follower ∧
      ∃ leader, n.standing.leader = some leader ∧
        (past.flatMap Stride.requests).getLast? = some (since, leader)) ∧
    (∀ s ∈ past, s.asks.length ≤ 1) ∧
    ∀ earlier a between b later, past = earlier ++ a :: (between ++ b :: later) →
      a.asks ≠ [] → b.asks ≠ [] → (∀ s ∈ between, ¬ s.EndsWait) →
        a.time + timing.vote.nanos ≤ b.time := by
  have hstart := expects_start topology timing clock dice store
  refine ⟨?_, ?_, ?_⟩
  · intro since hsince
    obtain ⟨leader, hleader, hne, hlast⟩ := (h.expects hstart).wait since hsince
    rw [Option.or_none] at hlast
    exact ⟨Standing.role_of_other hleader hne, leader, hleader, hlast⟩
  · intro s hs
    obtain ⟨earlier, later, rfl⟩ := List.append_of_mem hs
    obtain ⟨_, hknown, hbears, -⟩ := h.stride hstart
    rcases hknown.asks_cases hbears with hasks | ⟨_, hasks, -⟩
    · simp [hasks]
    · simp [hasks]
  · intro earlier a between b later heq ha hb hends
    subst heq
    exact h.spaced hstart ha hb hends

/-- The first node of two, before anything happens. -/
def listener : Node :=
  (Node.new ofTwo.topology .standard ofTwo.clock (.loaded 1) .empty).start

/-- The other node gives a sign as a leader that has five entries. -/
def hearing (now : Moment) (n : Node) : Stride where
  before :=
    { n with
      directory := (Directory.empty.register 2).2
      store := .empty
      clock := ⟨now, ⟨2024, 1, 1, 0, 0⟩⟩ }
  move := .event (.frame 2 (Message.text (.heartbeat 2 5)))

def firstHearing : Stride := hearing 0 listener

def secondHearing : Stride := hearing 500000000 firstHearing.after.collect.2

def thirdHearing : Stride := hearing 1500000000 secondHearing.after.collect.2

/-- What is heard is no echo and does not end the wait. -/
theorem ofText_heard {msg : Message}
    (h : Message.ofText (Message.text (.heartbeat 2 5)) = .ok msg) : msg = .heartbeat 2 5 := by
  refine Message.ofText_electoral h ?_
  rw [Message.kind_of_ofText h]
  rfl

theorem Walk.hearing {s : Stride} {now : Moment} {rest : List Stride} (hs : s = hearing now n)
    (hnow : n.clock.now ≤ now) (hid : n.id = 1) (h : Walk s.after.collect.2 rest m) :
    Walk n (s :: rest) m := by
  subst hs
  refine .cons _ _ _ _ hnow ?_ h
  intro hecho
  obtain ⟨logId, hread⟩ := hecho
  have heq := ofText_heard hread
  rw [hid] at heq
  cases heq

theorem secondHearing_keeps_wait : ¬ secondHearing.EndsWait := by
  have hfollows : secondHearing.after.leads = false ∧
      secondHearing.after.standing.leader = some 2 := by decide +kernel
  intro hends
  rcases hends with (hbatch | hnews) | ⟨-, hleads⟩ | ⟨-, hlost⟩
  · obtain ⟨leader, entries, hread⟩ := hbatch
    cases ofText_heard hread
  · obtain ⟨leader, hread, -⟩ := hnews
    cases ofText_heard hread
  · rw [hfollows.1] at hleads
    cases hleads
  · rw [hfollows.2] at hlost
    cases hlost

theorem walk_hearings :
    Walk listener [firstHearing, secondHearing, thirdHearing] thirdHearing.after.collect.2 := by
  have hfirst : listener.clock.now ≤ 0 ∧ listener.id = 1 := by decide +kernel
  have hsecond : firstHearing.after.collect.2.clock.now ≤ 500000000 ∧
      firstHearing.after.collect.2.id = 1 := by decide +kernel
  have hthird : secondHearing.after.collect.2.clock.now ≤ 1500000000 ∧
      secondHearing.after.collect.2.id = 1 := by decide +kernel
  exact .hearing rfl hfirst.1 hfirst.2 (.hearing rfl hsecond.1 hsecond.2
    (.hearing rfl hthird.1 hthird.2 (.nil _)))

/-- A follower asks at the first sign of its leader, not at the second, and again at the third when
the time to wait is just over. -/
theorem leader_asked_twice :
    Walk listener [firstHearing, secondHearing, thirdHearing] thirdHearing.after.collect.2 ∧
    firstHearing.asks = [2] ∧ secondHearing.asks = [] ∧ thirdHearing.asks = [2] ∧
    ¬ secondHearing.EndsWait ∧
    thirdHearing.after.collect.2.requestedAt = some 1500000000 ∧
    thirdHearing.after.collect.2.role = .follower ∧
    firstHearing.time + Timing.standard.vote.nanos ≤ thirdHearing.time := by
  have hasks : firstHearing.asks = [2] ∧ secondHearing.asks = [] ∧ thirdHearing.asks = [2] ∧
      thirdHearing.after.collect.2.requestedAt = some 1500000000 := by decide +kernel
  obtain ⟨hfirst, hsecond, hthird, hsince⟩ := hasks
  obtain ⟨hwaits, -, hspaced⟩ := requests_one_at_a_time walk_hearings
  refine ⟨walk_hearings, hfirst, hsecond, hthird, secondHearing_keeps_wait, hsince,
    (hwaits _ hsince).1, ?_⟩
  refine hspaced [] firstHearing [secondHearing] thirdHearing [] rfl ?_ ?_ ?_
  · rw [hfirst]
    exact List.cons_ne_nil _ _
  · rw [hthird]
    exact List.cons_ne_nil _ _
  · intro s hs
    rw [List.mem_singleton.mp hs]
    exact secondHearing_keeps_wait

end Node
end Accord
