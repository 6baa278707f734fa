import Accord.Proofs.Cluster.History
import Accord.Proofs.Message.Codec
import Accord.Proofs.Node.Rounds
import Accord.Proofs.Outcomes

/-! # A success is backed by a quorum

Whenever a client of a cluster of more than one node is told of a success, at least half of the
peers that the leader is connected with have handled the request of exactly this round with the
leader's own outcome, and every other outcome was reported by fewer peers. Messages arrive in order
or are lost; nothing is assumed about who leads, and when. -/
namespace Accord

/-! ## Events of rounds -/

namespace Turn

/-- In this turn `l` puts the operation of `r` to the vote; a write is then the last entry of its
log. -/
def Opens (t : Turn) (l : MemberId) (r : Round) : Prop :=
  ∃ n m, t.before.node? l = some n ∧ t.after.node? l = some m ∧ n.lastRound < r.number ∧
    m.round = some { r with tally := .initial } ∧ Node.Proposed { r with tally := .initial } m

/-- In this turn `v` gets the request of `l` in the round `k` and has this outcome. -/
def Attends (t : Turn) (v l : MemberId) (method : Method) (command : Command) (k : Nat)
    (outcome : Except StoreError Json) : Prop :=
  t.delivery? = some ⟨⟨l, v⟩, .roundRequest method command (some k)⟩ ∧
    ∃ n m, t.before.node? v = some n ∧ t.after.node? v = some m ∧
      ((n.setClock t.before.clock).roundOutcome method command).1 = outcome ∧
      m.store = ((n.setClock t.before.clock).roundOutcome method command).2.store

/-- In this turn a node appends a command to its log. -/
def Appends (t : Turn) (id : MemberId) (logId : Nat) (text : String) : Prop :=
  ∃ n m log time, t.before.node? id = some n ∧ t.after.node? id = some m ∧ n.store.log <+: log ∧
    m.store.log = log ++ [⟨logId, text, time⟩]

/-- In this turn `l` gets the report of `v` on an outcome in the round `k`. -/
def Reports (t : Turn) (v l : MemberId) (k : Nat) (outcome : Except StoreError Json) : Prop :=
  t.delivery? = some ⟨⟨v, l⟩, .roundAnswer (outcomeDigest outcome) (some k)⟩

/-- What clients are told in a turn. -/
def answersNow (t : Turn) : List Answer := t.after.answers.drop t.before.answers.length

/-- The outcomes that are compared by their digests: that of a request that is delivered, and those
of the rounds in flight. -/
def obtained (t : Turn) : List (Except StoreError Json) :=
  (match t.delivery? with
    | some ⟨⟨_, v⟩, .roundRequest method command _⟩ => (t.before.node? v).toList.map fun n =>
      ((n.setClock t.before.clock).roundOutcome method command).1
    | _ => []) ++ (t.after.nodes.filterMap (·.2.round)).map (·.result)

theorem Attends.obtained {t : Turn} {v l : MemberId} {method : Method} {command : Command} {k : Nat}
    {outcome : Except StoreError Json} (h : t.Attends v l method command k outcome) :
    outcome ∈ t.obtained := by
  obtain ⟨hd, n, m, hn, _, ho, _⟩ := h
  rw [Turn.obtained, hd]
  simp [hn, ho]

theorem Opens.obtained {t : Turn} {l : MemberId} {r : Round} (h : t.Opens l r) :
    r.result ∈ t.obtained := by
  obtain ⟨n, m, _, hm, _, hr, _⟩ := h
  have hin : { r with tally := .initial } ∈ t.after.nodes.filterMap (·.2.round) :=
    List.mem_filterMap.mpr ⟨_, Keyed.mem_of_get? hm, hr⟩
  exact List.mem_append_right _ (List.mem_map.mpr ⟨_, hin, rfl⟩)

end Turn

/-! ## Rounds of a node -/

/-- A round changes by an answer to it, the first one of its sender. -/
theorem Stimulus.intake_round (s : Stimulus) (n : Node) : (s.intake n).round = n.round ∨
    ∃ sender m digest round r, s = .message sender m ∧
      Message.ofText m.text = .ok (.roundAnswer digest round) ∧ n.round = some r ∧
      round.any (· != r.number) = false ∧
      (s.intake n).round = some { r with tally := r.tally.record sender digest } := by
  cases s with
  | client op =>
    simp only [intake]
    split <;> exact .inl rfl
  | message sender m =>
    simp only [intake]
    split
    · rename_i m' hm
      have h := Node.absorbed sender m' n
      generalize n.absorb sender m' = n' at h
      cases h with
      | count hr hn => exact .inr ⟨sender, m, _, _, _, rfl, hm, hr, hn, rfl⟩
      | _ => exact .inl rfl
    · exact .inl rfl
  | _ => exact .inl rfl

theorem Stimulus.intake_lastRound (s : Stimulus) (n : Node) :
    (s.intake n).lastRound = n.lastRound := by
  cases s with
  | client op =>
    simp only [intake]
    split <;> rfl
  | message sender m =>
    simp only [intake]
    split
    · rename_i m' _
      have h := Node.absorbed sender m' n
      generalize n.absorb sender m' = n' at h
      cases h <;> rfl
    · rfl
  | _ => rfl

/-- What a node takes in leaves its round in flight but for the answers to it. -/
structure Node.Tallies (n n' : Node) : Prop where
  lastRound : n'.lastRound = n.lastRound
  round : n'.round = n.round ∨ ∃ tally r, n.round = some r ∧ n'.round = some { r with tally }

theorem Stimulus.tallies (s : Stimulus) (n : Node) : n.Tallies (s.intake n) := by
  refine ⟨s.intake_lastRound n, (s.intake_round n).imp_right ?_⟩
  rintro ⟨_, _, _, _, r, _, _, hr, _, hr'⟩
  exact ⟨_, r, hr, hr'⟩

theorem Turn.NodeStep.progress {t : Turn} {l : MemberId} {n m : Node} (h : t.NodeStep l n m) :
    ∃ n', n.Tallies n' ∧ Node.Progress n' m := by
  cases h with
  | @acted s h =>
    obtain ⟨hl, hr⟩ := s.tallies (n.setClock t.before.clock)
    obtain ⟨h1, h2⟩ := Node.Deeds.progress (s.deeds_react (n.setClock t.before.clock))
    refine ⟨_, ⟨hl, hr⟩, h1, h2.imp_right (Or.imp_right ?_)⟩
    rintro ⟨r, hr, hlt, hp⟩
    exact ⟨r, hr, hlt, hp.1, hp.2, hp.3, hp.4, hp.5⟩
  | rewired hr =>
    obtain ⟨directory, available, clock, _, rfl⟩ := hr
    exact ⟨n, ⟨rfl, .inl rfl⟩, le_rfl, .inr (.inl rfl)⟩

section

variable {size : Nat} {turns : List Turn} {w : World}

theorem Turn.NodeStep.lastRound_le {t : Turn} {l : MemberId} {n m : Node} (h : t.NodeStep l n m) :
    n.lastRound ≤ m.lastRound := by
  obtain ⟨n', ht, hp⟩ := h.progress
  exact ht.lastRound ▸ hp.lastRound_le

/-- The round in flight after a turn was in flight before it, or it is a later one. -/
theorem Turn.NodeStep.round {t : Turn} {l : MemberId} {n m : Node} (h : t.NodeStep l n m)
    {r : Round} (hr : m.round = some r) :
    (∃ tally, n.round = some { r with tally }) ∨ n.lastRound < r.number ∧ Node.Proposed r m := by
  obtain ⟨n', ht, hp⟩ := h.progress
  rcases hp.round with hno | heq | ⟨r', hr', hlt, hprop⟩
  · rw [hr] at hno
    cases hno
  · rw [hr] at heq
    left
    rcases ht.round with hsame | ⟨tally, r₀, hr₀, hr'⟩
    · exact ⟨r.tally, hsame ▸ heq.symm⟩
    · obtain rfl := Option.some.inj (heq.trans hr')
      exact ⟨r₀.tally, hr₀⟩
  · obtain rfl := Option.some.inj (hr'.symm.trans hr)
    exact .inr ⟨ht.lastRound ▸ hlt, hprop⟩

/-- A round in flight is one that was put to the vote. -/
theorem Run.opens (r : Run Action.AnyOrder size turns w) {l : MemberId} {n : Node}
    (hn : w.node? l = some n) {rd : Round} (hr : n.round = some rd) :
    rd.number ≤ n.lastRound ∧ ∃ o ∈ turns, o.Opens l rd := by
  refine r.invariant (P := fun turns w => ∀ {n rd}, w.node? l = some n → n.round = some rd →
    rd.number ≤ n.lastRound ∧ ∃ o ∈ turns, o.Opens l rd) ?_ ?_ hn hr
  · intro w hw n rd hn hr
    obtain ⟨topology, timing, clock, dice, store, rfl, _⟩ := hw.started hn
    unfold Node.start Node.seek at hr
    obtain ⟨pick, dice⟩ := (Node.new topology timing clock dice store).dice.roll
    cases hr
  · intro turns t r _ ih m rd hm hr
    obtain ⟨n, hn, hstep⟩ := t.nodeStep r.settled hm
    rcases hstep.round hr with ⟨tally, hr₀⟩ | ⟨hlt, hp⟩
    · obtain ⟨hle, o, ho, hopens⟩ := ih hn hr₀
      exact ⟨hle.trans hstep.lastRound_le, o, List.mem_append_left _ ho, hopens⟩
    · obtain ⟨number, op, result, logId, tally, deadline⟩ := rd
      obtain rfl : tally = .initial := hp.unanswered
      exact ⟨hp.number.le, t, by simp, n, m, hn, hm, hlt, hr, hp⟩

/-! ## The messages of rounds -/

/-- All requests carry the number of a round of their sender, and those that carry the number of the
round in flight are about its operation. -/
theorem Run.asks_sent (r : Run Action.AnyOrder size turns w) {l v : MemberId} {method : Method}
    {command : Command} {round : Option Nat}
    (h : ⟨⟨l, v⟩, .roundRequest method command round⟩ ∈ w.sent) :
    ∃ k, round = some k ∧ ∀ n, w.node? l = some n → k ≤ n.lastRound ∧
      ∀ rd, n.round = some rd → rd.number = k →
        rd.op.method = method ∧ rd.op.command = command := by
  refine r.invariant (P := fun _ w => ∀ {l v method command round},
    ⟨⟨l, v⟩, .roundRequest method command round⟩ ∈ w.sent → ∃ k, round = some k ∧
      ∀ n, w.node? l = some n → k ≤ n.lastRound ∧ ∀ rd, n.round = some rd → rd.number = k →
        rd.op.method = method ∧ rd.op.command = command) ?_ ?_ h
  · intro w hw l v method command round h
    rw [hw.sent] at h
    cases h
  · intro turns t r _ ih l v method command round h
    rw [t.sent_append r.settled] at h
    rcases List.mem_append.mp h with h | h
    · obtain ⟨k, rfl, hk⟩ := ih h
      refine ⟨k, rfl, fun m hm => ?_⟩
      obtain ⟨n, hn, hstep⟩ := t.nodeStep r.settled hm
      obtain ⟨hle, hop⟩ := hk n hn
      refine ⟨hle.trans hstep.lastRound_le, fun rd hr hnum => ?_⟩
      rcases hstep.round hr with ⟨tally, hr₀⟩ | ⟨hlt, _⟩
      · exact hop { rd with tally } hr₀ hnum
      · exact absurd (hnum ▸ hlt) (not_lt.mpr hle)
    · obtain ⟨s, n, hact, _, d, _, hmsg, hcause⟩ := Turn.sends r.settled h
      cases hcause with
      | reply _ _ hr =>
        cases hr with
        | vote _ _ hm' => cases hmsg.symm.trans hm'
        | batch _ _ _ hm' => cases hmsg.symm.trans hm'
        | roundAnswer _ hm' => cases hmsg.symm.trans hm'
      | @deed a b hd hs =>
        rw [hmsg] at hs
        cases hs with
        | @roundRequest rd hr hnum hlast =>
          have hp := Node.Deeds.progress hd.rest
          refine ⟨rd.number, rfl, fun m hm => ?_⟩
          rw [hact.self r.settled] at hm
          cases hm
          refine ⟨hnum ▸ hp.lastRound_le, fun rd' hr' heq => ?_⟩
          rcases hp.round with hno | hsame | ⟨rd'', hr'', hlt, _⟩
          · exact absurd (hno.symm.trans hr') (by simp)
          · cases (hsame.symm.trans hr').symm.trans hr
            exact ⟨rfl, rfl⟩
          · obtain rfl := Option.some.inj (hr''.symm.trans hr')
            exact absurd (heq.trans hnum) hlt.ne'

/-- All answers are reports on a request of the node they are sent to. -/
theorem Run.tells_sent (r : Run Action.AnyOrder size turns w) (hlegible : w.Legible)
    {v l : MemberId} {digest : String} {round : Option Nat}
    (h : ⟨⟨v, l⟩, .roundAnswer digest round⟩ ∈ w.sent) :
    ∃ k method command outcome, round = some k ∧ digest = outcomeDigest outcome ∧
      ⟨⟨l, v⟩, .roundRequest method command (some k)⟩ ∈ w.sent ∧
      ∃ a ∈ turns, a.Attends v l method command k outcome := by
  refine r.invariant (P := fun turns w => w.Legible → ∀ {v l digest round},
    ⟨⟨v, l⟩, .roundAnswer digest round⟩ ∈ w.sent →
    ∃ k method command outcome, round = some k ∧ digest = outcomeDigest outcome ∧
      ⟨⟨l, v⟩, .roundRequest method command (some k)⟩ ∈ w.sent ∧
      ∃ a ∈ turns, a.Attends v l method command k outcome) ?_ ?_ hlegible h
  · intro w hw _ v l digest round h
    rw [hw.sent] at h
    cases h
  · intro turns t r ha ih hlegible v l digest round h
    have hsent := t.sent_append r.settled
    have hbefore := hlegible.before r.settled
    rw [hsent] at h
    rcases List.mem_append.mp h with h | h
    · obtain ⟨k, method, command, outcome, hk, hdig, hreq, a, ha, hatt⟩ := ih hbefore h
      exact ⟨k, method, command, outcome, hk, hdig, hsent ▸ List.mem_append_left _ hreq, a,
        List.mem_append_left _ ha, hatt⟩
    · obtain ⟨s, n, hact, _, d, hpeer, hmsg, hcause⟩ := Turn.sends r.settled h
      cases hcause with
      | deed hd hs =>
        rw [hmsg] at hs
        cases hs
      | @reply sender m m' hs hof hr =>
        subst hs
        obtain ⟨hreq, hread⟩ := hact.read r ha hbefore
        obtain rfl := Except.ok.inj (hof.symm.trans hread)
        cases hr with
        | vote _ _ hm' => cases hmsg.symm.trans hm'
        | batch _ _ _ hm' => cases hmsg.symm.trans hm'
        | @roundAnswer method command round' _ hp hm' =>
          cases hmsg.symm.trans hm'
          obtain rfl : sender = l := hp.symm.trans hpeer
          obtain ⟨k, rfl, _⟩ := r.asks_sent hreq
          refine ⟨k, method, command, _, rfl, rfl, hsent ▸ List.mem_append_left _ hreq, t, by simp,
            hact.delivery, n, _, hact.node, hact.self r.settled, rfl, ?_⟩
          simp only [Stimulus.react, Node.onFrame, hof, Node.onMessage, Node.onRoundRequest]
          rfl

end

/-! ## Each peer is asked once and answers once -/

/-- Whether a message is a request in the round `k`. -/
def Message.asks (k : Nat) : Message → Bool
  | .roundRequest _ _ (some j) => j == k
  | _ => false

/-- Whether a message is an answer in the round `k`. -/
def Message.tells (k : Nat) : Message → Bool
  | .roundAnswer _ (some j) => j == k
  | _ => false

namespace Node

variable {o : Occasion}

/-- Whether the round `k` has begun, as a number. -/
def begun (k : Nat) (n : Node) : Nat := if k ≤ n.lastRound then 1 else 0

theorem begun_mono {n m : Node} (h : n.lastRound ≤ m.lastRound) (k : Nat) :
    n.begun k ≤ m.begun k := by
  unfold begun
  split_ifs <;> omega

theorem Deed.asks_le {n m : Node} (h : Deed o n m) (hs : Keyed.Sorted n.directory.records)
    (peer : MemberId) (k : Nat) :
    (m.postedTo peer).countP (Message.asks k) + n.begun k ≤
      (n.postedTo peer).countP (Message.asks k) + m.begun k := by
  have hle : n.lastRound ≤ m.lastRound := ((Progress.refl n).deed h).lastRound_le
  have hmono := begun_mono hle k
  rcases h.posts hs peer with he | ⟨msg, hsay, he⟩
  · rw [he]
    omega
  · rw [he, List.countP_append]
    cases hsay with
    | roundRequest hr hn hl =>
      simp only [List.countP_singleton, Message.asks, hn, beq_iff_eq, begun]
      split_ifs <;> omega
    | _ =>
      simp only [List.countP_singleton, Message.asks, Bool.false_eq_true, if_false]
      omega

theorem Deeds.asks_le {n m : Node} (h : Deeds o n m) (hs : Keyed.Sorted n.directory.records)
    (peer : MemberId) (k : Nat) :
    (m.postedTo peer).countP (Message.asks k) + n.begun k ≤
      (n.postedTo peer).countP (Message.asks k) + m.begun k := by
  induction h with
  | refl => exact le_rfl
  | tail hab hd ih =>
    have := hd.asks_le (by rw [(Deeds.same hab).directory]; exact hs) peer k
    omega

theorem Deeds.tells_eq {n m : Node} (h : Deeds o n m) (hs : Keyed.Sorted n.directory.records)
    (peer : MemberId) (k : Nat) :
    (m.postedTo peer).countP (Message.tells k) = (n.postedTo peer).countP (Message.tells k) := by
  induction h with
  | refl => rfl
  | tail hab hd ih =>
    rw [← ih]
    rcases hd.posts (by rw [(Deeds.same hab).directory]; exact hs) peer with he | ⟨msg, hsay, he⟩
    · rw [he]
    · rw [he, List.countP_append]
      cases hsay <;> rfl

end Node

section

variable {size : Nat} {turns : List Turn} {w : World}

/-- A node asks each peer at most once in each round. -/
theorem Run.asked_once (r : Run Action.AnyOrder size turns w) {l : MemberId} {n : Node}
    (hn : w.node? l = some n) (v : MemberId) (k : Nat) :
    (w.sentOn ⟨l, v⟩).countP (Message.asks k) ≤ n.begun k := by
  refine r.invariant (P := fun _ w => ∀ {n}, w.node? l = some n →
    (w.sentOn ⟨l, v⟩).countP (Message.asks k) ≤ n.begun k) ?_ ?_ hn
  · intro w hw n _
    rw [World.sentOn, hw.sent]
    exact Nat.zero_le _
  · intro turns t r _ ih m hm
    obtain ⟨n, hn, hstep⟩ := t.nodeStep r.settled hm
    have hle := ih hn
    rcases Turn.sentOn_cases r.settled ⟨l, v⟩ with he | ⟨s, n', hact, he⟩
    · rw [he]
      exact hle.trans (Node.begun_mono hstep.lastRound_le k)
    · cases hn.symm.trans hact.node
      cases hm.symm.trans (hact.self r.settled)
      have hsorted : Keyed.Sorted (s.intake (n.setClock t.before.clock)).directory.records := by
        rw [(s.intake_same _).directory]
        exact (r.proper hn).sorted
      have hdeeds := Node.Deeds.asks_le (s.deeds_react (n.setClock t.before.clock)) hsorted v k
      have hbegun : (s.intake (n.setClock t.before.clock)).begun k = n.begun k := by
        rw [Node.begun, (s.tallies _).lastRound]
        rfl
      -- a reply is no request
      have hintake :
          ((s.intake (n.setClock t.before.clock)).postedTo v).countP (Message.asks k) = 0 := by
        rcases hact.posts r.settled v with he | ⟨_, _, _, d, _, _, hr, _, he⟩
        · rw [he]
          rfl
        · rw [he]
          cases hr with
          | vote _ _ hm => rw [hm]; rfl
          | batch _ _ _ hm => rw [hm]; rfl
          | roundAnswer _ hm => rw [hm]; rfl
      have hafter : (s.react (n.setClock t.before.clock)).emptied.begun k =
          (s.react (n.setClock t.before.clock)).begun k := rfl
      rw [he, List.countP_append, hafter]
      dsimp only at hact ⊢
      omega

/-- A node answers a peer at most as often as it gets a request of it. -/
theorem Run.told_le (r : Run Action.InOrder size turns w) (hlegible : w.Legible) (v l : MemberId)
    (k : Nat) :
    (w.sentOn ⟨v, l⟩).countP (Message.tells k) ≤
      (takenOn ⟨l, v⟩ turns).countP (Message.asks k) := by
  refine r.invariant (P := fun turns w => w.Legible →
    (w.sentOn ⟨v, l⟩).countP (Message.tells k) ≤
      (takenOn ⟨l, v⟩ turns).countP (Message.asks k)) ?_ ?_ hlegible
  · intro w hw _
    rw [World.sentOn, hw.sent]
    exact Nat.zero_le _
  · intro turns t r ha ih hlegible
    have hbefore := hlegible.before r.settled
    have hle := ih hbefore
    rw [takenOn_concat, List.countP_append]
    rcases Turn.sentOn_cases r.settled ⟨v, l⟩ with he | ⟨s, n, hact, he⟩
    · rw [he]
      omega
    · have hsorted : Keyed.Sorted (s.intake (n.setClock t.before.clock)).directory.records := by
        rw [(s.intake_same _).directory]
        exact (r.anyOrder.proper hact.node).sorted
      rw [he, List.countP_append,
        Node.Deeds.tells_eq (s.deeds_react (n.setClock t.before.clock)) hsorted]
      refine Nat.add_le_add hle ?_
      rcases hact.posts r.settled l with he | ⟨sender, m, m', d, rfl, hof, hr, hp, he⟩
      · rw [he]
        exact Nat.zero_le _
      · rw [he]
        cases hr with
        | vote _ _ hm => rw [hm]; exact Nat.zero_le _
        | batch _ _ _ hm => rw [hm]; exact Nat.zero_le _
        | @roundAnswer method command round _ hp' hm =>
          obtain rfl : sender = l := hp'.symm.trans hp
          have hread := (hact.read r.anyOrder ha.anyOrder hbefore).2
          obtain rfl := Except.ok.inj (hof.symm.trans hread)
          rw [Turn.taken_of_delivery ha hact.delivery, hm, List.countP_singleton,
            List.countP_singleton]
          cases round with
          | none => simp [Message.tells]
          | some j => simp [Message.tells, Message.asks]

/-- A leader gets at most one answer of each peer in each round. -/
theorem Run.told_once (r : Run Action.InOrder size turns w) (hlegible : w.Legible) {l : MemberId}
    {n : Node} (hn : w.node? l = some n) (v : MemberId) (k : Nat) :
    (takenOn ⟨v, l⟩ turns).countP (Message.tells k) ≤ 1 := by
  have htaken (ends : Ends) : (takenOn ends turns).Sublist (w.sentOn ends) :=
    (List.sublist_append_left _ _).trans (r.fifo ends)
  calc (takenOn ⟨v, l⟩ turns).countP (Message.tells k)
      ≤ (w.sentOn ⟨v, l⟩).countP (Message.tells k) := (htaken _).countP_le
    _ ≤ (takenOn ⟨l, v⟩ turns).countP (Message.asks k) := r.told_le hlegible v l k
    _ ≤ (w.sentOn ⟨l, v⟩).countP (Message.asks k) := (htaken _).countP_le
    _ ≤ n.begun k := r.anyOrder.asked_once hn v k
    _ ≤ 1 := by rw [Node.begun]; split <;> omega

/-- The answers that a round has counted are those that the leader got. -/
def Tallied (turns : List Turn) (l : MemberId) (r : Round) : Prop :=
  ∃ answers, Agreement.Records answers r.tally ∧ ∀ {v digest}, (v, digest) ∈ answers ↔
    .roundAnswer digest (some r.number) ∈ takenOn ⟨v, l⟩ turns

theorem Turn.Acts.tallied {t : Turn} {l : MemberId} {s : Stimulus} {n : Node} (hact : t.Acts l s n)
    (r : Run Action.InOrder size turns t.before) (ha : t.action.InOrder t.before)
    (hlegible : t.after.Legible) {rd rd' : Round} (hr : n.round = some rd) (h : Tallied turns l rd)
    (hr' : (s.intake (n.setClock t.before.clock)).round = some rd') :
    Tallied (turns ++ [t]) l rd' := by
  have hbefore := hlegible.before r.settled
  obtain ⟨answers, hrecords, hanswers⟩ := h
  by_cases hnew : ∃ v digest, s = .message v (.roundAnswer digest (some rd.number))
  · obtain ⟨v, digest, rfl⟩ := hnew
    have htaken := Turn.taken_of_delivery ha hact.delivery
    -- the sender has not answered before
    have hfirst : rd.tally.hasAnswered v = false := by
      rw [Bool.eq_false_iff, ne_eq, hrecords.hasAnswered_iff]
      rintro ⟨digest', hmem⟩
      have honce := (r.turn ha).told_once hlegible (hact.self r.settled) v rd.number
      have hold : 0 < (takenOn ⟨v, l⟩ turns).countP (Message.tells rd.number) :=
        List.countP_pos_iff.mpr ⟨_, hanswers.mp hmem, by simp [Message.tells]⟩
      rw [takenOn_concat, htaken, List.countP_append, List.countP_singleton] at honce
      simp only [Message.tells, beq_self_eq_true, if_true] at honce
      omega
    have hread := (hact.read r.anyOrder ha.anyOrder hbefore).2
    have hround : (n.setClock t.before.clock).round = some rd := hr
    simp only [Stimulus.intake, hread, Node.absorb, hround, Option.any_some, bne_self_eq_false,
      hfirst, Bool.or_self, Bool.false_eq_true, if_false, Option.some.injEq] at hr'
    subst hr'
    refine ⟨answers ++ [(v, digest)], hrecords.record hfirst digest, fun {u d} => ?_⟩
    rw [takenOn_concat, List.mem_append, List.mem_append, hanswers, List.mem_singleton]
    refine or_congr_right ⟨fun he => ?_, fun hd => ?_⟩
    · cases he
      rw [htaken]
      exact List.mem_singleton_self _
    · have hs := hact.of_delivery (Turn.delivery_of_taken hd)
      cases hs
      rfl
  · have hsame : (s.intake (n.setClock t.before.clock)).round = some rd := by
      rcases s.intake_round (n.setClock t.before.clock) with he | ⟨v, m, digest, round, rd₀, rfl,
        hof, hr₀, hnum, _⟩
      · exact he.trans hr
      · obtain ⟨hsent, hread⟩ := hact.read r.anyOrder ha.anyOrder hbefore
        obtain rfl := Except.ok.inj (hread.symm.trans hof)
        obtain ⟨k, _, _, _, rfl, _⟩ := r.anyOrder.tells_sent hbefore hsent
        obtain rfl := Option.some.inj (hr.symm.trans hr₀)
        obtain rfl : k = rd.number := by simpa using hnum
        exact absurd ⟨v, digest, rfl⟩ hnew
    obtain rfl := Option.some.inj (hsame.symm.trans hr')
    refine ⟨answers, hrecords, fun {u d} => ?_⟩
    rw [takenOn_concat, List.mem_append, hanswers]
    refine (or_iff_left fun hd => hnew ?_).symm
    exact ⟨u, d, hact.of_delivery (Turn.delivery_of_taken hd)⟩

/-- What was taken off a link in a run and its next turn was sent before this turn. -/
theorem Run.sent_of_takenOn {t : Turn} (r : Run Action.InOrder size turns t.before) {ends : Ends}
    {m : Message} (h : m ∈ takenOn ends (turns ++ [t])) : ⟨ends, m⟩ ∈ t.before.sent := by
  rw [takenOn_concat] at h
  refine World.mem_sentOn.mp ((r.fifo ends).subset ?_)
  refine (List.mem_append.mp h).elim (List.mem_append_left _) fun h => ?_
  rw [← t.taken_append_onset ends]
  exact List.mem_append_right _ (List.mem_append_left _ h)

theorem Run.tallied (r : Run Action.InOrder size turns w) (hlegible : w.Legible) {l : MemberId}
    {n : Node} (hn : w.node? l = some n) {rd : Round} (hr : n.round = some rd) :
    Tallied turns l rd := by
  refine r.invariant (P := fun turns w => w.Legible → ∀ {n rd}, w.node? l = some n →
    n.round = some rd → Tallied turns l rd) ?_ ?_ hlegible hn hr
  · intro w hw _ n rd hn hr
    have r₀ : Run Action.AnyOrder size [] w := .start hw
    obtain ⟨_, _, hmem, _⟩ := r₀.opens hn hr
    cases hmem
  · intro turns t r ha ih hlegible m rd hm hr
    have hbefore := hlegible.before r.settled
    obtain ⟨n, hn, hstep⟩ := t.nodeStep r.settled hm
    cases hstep with
    | rewired hrw hp hno =>
      obtain ⟨directory, available, clock, _, rfl⟩ := hrw
      obtain ⟨answers, hrecords, hmem⟩ := ih hbefore hn hr
      refine ⟨answers, hrecords, fun {v digest} => ?_⟩
      rw [takenOn_concat, Turn.taken_of_not_acts hn hno, List.append_nil]
      exact hmem
    | @acted s hact =>
      rcases (Node.Deeds.progress (s.deeds_react (n.setClock t.before.clock))).round with
        hnone | hsame | ⟨rd', hr', hlt, hp⟩
      · exact absurd (hnone.symm.trans hr) (by simp)
      · have hintake := hsame.symm.trans hr
        rcases (s.tallies (n.setClock t.before.clock)).round with he | ⟨tally, rd₀, hr₀, _⟩
        · have hr₀ : n.round = some rd := he.symm.trans hintake
          exact hact.tallied r ha hlegible hr₀ (ih hbefore hn hr₀) hintake
        · exact hact.tallied r ha hlegible hr₀ (ih hbefore hn hr₀) hintake
      · -- a new round has no answers, and none of the answers so far carries its number
        obtain rfl := Option.some.inj (hr'.symm.trans hr)
        rw [(s.tallies _).lastRound] at hlt
        refine ⟨[], by rw [hp.unanswered]; exact Agreement.records_initial, fun {v digest} => ?_⟩
        refine ⟨fun h => absurd h List.not_mem_nil, fun htaken => ?_⟩
        obtain ⟨k, method, command, _, hk, _, hreq, _⟩ :=
          r.anyOrder.tells_sent hbefore (r.sent_of_takenOn htaken)
        obtain ⟨k', hk', hle⟩ := r.anyOrder.asks_sent hreq
        cases hk
        cases hk'
        exact absurd (hle n hn).1 (not_le.mpr hlt)

/-! ## Quorums -/

theorem outcome_of_text {outcome : Except StoreError Json} {data : Json}
    (h : outcomeText outcome = outcomeText (.ok data)) : outcome = .ok data := by
  have hsame := (outcomeText_eq_iff outcome (.ok data)).mp h
  cases outcome with
  | ok v => exact congrArg Except.ok hsame
  | error e => cases hsame

theorem Stimulus.intake_answers {s : Stimulus} {n : Node} {answer : Answer} {data : Json}
    (h : answer ∈ (s.intake n).answers) (hok : answer.reply = .ok data) : answer ∈ n.answers := by
  cases s with
  | client op =>
    simp only [intake] at h
    split at h
    · exact h
    · rcases List.mem_append.mp h with h | h
      · exact h
      · obtain rfl := List.mem_singleton.mp h
        cases hok
  | message sender m =>
    simp only [intake] at h
    split at h
    · rename_i m' _
      have ha := Node.absorbed sender m' n
      generalize n.absorb sender m' = n' at ha h
      cases ha <;> exact h
    · exact h
  | _ => exact h

theorem Turn.Attends.appends {t : Turn} {v l : MemberId} {command : Command} {k logId : Nat}
    (h : t.Attends v l .post command k (.ok (.natural logId))) :
    t.Appends v logId command.text := by
  obtain ⟨_, n, m, hn, hm, ho, hstore⟩ := h
  simp only [Node.roundOutcome] at ho hstore
  cases ha : ((n.setClock t.before.clock).appendCommand command).1 with
  | error e =>
    rw [show (n.setClock t.before.clock).appendCommand command = (.error e, _) from
      Prod.ext ha rfl] at ho
    cases ho
  | ok logId' =>
    have he : (n.setClock t.before.clock).appendCommand command =
      (.ok logId', ((n.setClock t.before.clock).appendCommand command).2) := Prod.ext ha rfl
    rw [he] at ho hstore
    have hid : logId' = logId := by simpa [Json.natural] using ho
    subst hid
    obtain ⟨log, hpre, hlog⟩ := Node.append_log ha
    exact ⟨n, m, log, _, hn, hm, hpre, by rw [hstore]; exact hlog⟩

/-- Every answer that the leader has got in its round is a report on its request. -/
theorem Run.attends {t : Turn} (r : Run Action.InOrder size turns t.before)
    (hlegible : t.before.Legible) {l : MemberId} {n : Node} (hn : t.before.node? l = some n)
    {rd : Round} (hr : n.round = some rd) {v : MemberId} {digest : String}
    (h : .roundAnswer digest (some rd.number) ∈ takenOn ⟨v, l⟩ (turns ++ [t])) :
    v ≠ l ∧ ∃ a ∈ turns, ∃ outcome, digest = outcomeDigest outcome ∧
      a.Attends v l rd.op.method rd.op.command rd.number outcome := by
  have hsent := r.sent_of_takenOn h
  obtain ⟨k, method, command, outcome, hk, hd, hreq, a, ha, hatt⟩ :=
    r.anyOrder.tells_sent hlegible hsent
  obtain ⟨k', hk', hop⟩ := r.anyOrder.asks_sent hreq
  cases hk
  cases hk'
  obtain ⟨rfl, rfl⟩ := (hop n hn).2 rd hr rfl
  exact ⟨r.anyOrder.sent_apart hsent, a, ha, outcome, hd, hatt⟩

/-- A set of peers that had the leader's own outcome in its round `rd`: at least half of `peers`,
and more than those that reported any other outcome by the end of the turn `t`. -/
structure Quorum (turns : List Turn) (t : Turn) (l : MemberId) (rd : Round) (peers : Nat)
    (quorum : Finset MemberId) : Prop where
  half : peers ≤ 2 * quorum.card
  inhabited : 1 ≤ quorum.card
  agreed : ∀ v ∈ quorum, v ≠ l ∧ ∃ a ∈ turns,
    a.Attends v l rd.op.method rd.op.command rd.number rd.result ∧
      (rd.op.method = .post → ∀ logId, rd.logId = some logId →
        a.Appends v logId rd.op.command.text)
  others : ∀ outcome, outcome ≠ rd.result → ∀ minority : Finset MemberId,
    (∀ v ∈ minority,
      (∃ a ∈ turns, a.Attends v l rd.op.method rd.op.command rd.number outcome) ∧
        ∃ d ∈ turns ++ [t], d.Reports v l rd.number outcome) → minority.card < quorum.card

theorem Run.takenOn_of_delivery (r : Run Action.InOrder size turns w) {d : Turn} (hd : d ∈ turns)
    {ends : Ends} {m : Message} (h : d.delivery? = some ⟨ends, m⟩) : m ∈ takenOn ends turns := by
  refine r.invariant (P := fun turns _ => d ∈ turns → m ∈ takenOn ends turns) ?_ ?_ hd
  · intro w _ hd
    cases hd
  · intro turns t r ha ih hd
    rw [takenOn_concat]
    rw [List.mem_append, List.mem_singleton] at hd
    rcases hd with hd | rfl
    · exact List.mem_append_left _ (ih hd)
    · rw [Turn.taken_of_delivery ha h]
      simp

/-- A round whose answers agree with its leader has a quorum. -/
theorem Tallied.quorum {t : Turn} {l : MemberId} {n : Node} {rd : Round} {tally : Agreement}
    (h : Tallied (turns ++ [t]) l { rd with tally })
    (r : Run Action.InOrder size (turns ++ [t]) w) (hlegible : w.Legible)
    (hdigest : ∀ x ∈ turns.flatMap Turn.obtained, ∀ y ∈ turns.flatMap Turn.obtained,
      outcomeDigest x = outcomeDigest y → outcomeText x = outcomeText y)
    (hn : t.before.node? l = some n) (hr : n.round = some rd)
    (hok : ∃ data, rd.result = .ok data)
    (hpost : rd.op.method = .post → ∀ logId, rd.logId = some logId →
      rd.result = .ok (.natural logId))
    (hb : tally.resolve n.directory.count rd.ownDigest = some true) :
    ∃ quorum, Quorum turns t l rd n.directory.count quorum := by
  obtain ⟨r₀, ha, rfl⟩ := r.last
  obtain ⟨answers, hrecords, hanswers⟩ := h
  have hbefore := hlegible.before r₀.settled
  obtain ⟨o, ho, hopens⟩ := (r₀.anyOrder.opens hn hr).2
  obtain ⟨_, hhalf, hsome, hless⟩ := hrecords.resolve_true hb
  have hcard {digest : String} : (Agreement.camp answers digest).card = tally.count digest :=
    hrecords.card_camp digest
  -- an outcome with the leader's digest is the leader's outcome
  have hown {a : Turn} (ha : a ∈ turns) {v : MemberId} {outcome : Except StoreError Json}
      (hatt : a.Attends v l rd.op.method rd.op.command rd.number outcome)
      (hd : outcomeDigest outcome = rd.ownDigest) : outcome = rd.result := by
    obtain ⟨data, hdata⟩ := hok
    have htext := hdigest outcome (List.mem_flatMap.mpr ⟨a, ha, hatt.obtained⟩) rd.result
      (List.mem_flatMap.mpr ⟨o, ho, hopens.obtained⟩) hd
    rw [hdata] at htext ⊢
    exact outcome_of_text htext
  refine ⟨Agreement.camp answers rd.ownDigest, hcard ▸ hhalf, hcard ▸ hsome, fun v hv => ?_,
    fun outcome hne minority hm => ?_⟩
  · obtain ⟨hvl, a, ha, outcome, hd, hatt⟩ :=
      r₀.attends hbefore hn hr (hanswers.mp (Agreement.mem_camp.mp hv))
    obtain rfl := hown ha hatt hd.symm
    refine ⟨hvl, a, ha, hatt, fun hmeth logId hl => ?_⟩
    rw [hmeth, hpost hmeth logId hl] at hatt
    exact hatt.appends
  · have hsub : minority ⊆ Agreement.camp answers (outcomeDigest outcome) := by
      intro v hv
      obtain ⟨_, d, hd, hrep⟩ := hm v hv
      exact Agreement.mem_camp.mpr (hanswers.mpr (r.takenOn_of_delivery hd hrep))
    rcases minority.eq_empty_or_nonempty with rfl | ⟨v, hv⟩
    · rw [Finset.card_empty, hcard]
      exact hsome
    · obtain ⟨⟨a, ha, hatt⟩, _⟩ := hm v hv
      calc minority.card
          ≤ (Agreement.camp answers (outcomeDigest outcome)).card := Finset.card_le_card hsub
        _ = tally.count (outcomeDigest outcome) := hcard
        _ < tally.count rd.ownDigest := hless _ fun he => hne (hown ha hatt he)
        _ = (Agreement.camp answers rd.ownDigest).card := hcard.symm

/-- Whenever a client is told of a success, the round of its operation was in flight, and at least
half of the peers that the leader is connected with have handled its request with the leader's own
outcome; a write they have appended with the same text and under the same id as the leader. Every
other outcome was reported to the leader by fewer peers. All this holds as long as messages are read
as they were written and no two different outcomes of the run have the same digest. -/
theorem success_has_quorum (hs : 1 < size) {t : Turn}
    (r : Run Action.InOrder size (turns ++ [t]) w) (hlegible : w.Legible)
    (hdigest : ∀ x ∈ turns.flatMap Turn.obtained, ∀ y ∈ turns.flatMap Turn.obtained,
      outcomeDigest x = outcomeDigest y → outcomeText x = outcomeText y)
    {number : Nat} {data : Json} (h : ⟨number, .ok data⟩ ∈ t.answersNow) :
    ∃ l s n rd, t.Acts l s n ∧ n.round = some rd ∧ rd.op.number = number ∧
      (∃ o ∈ turns, o.Opens l rd) ∧ (rd.op.method = .get → rd.result = .ok data) ∧
      (rd.op.method = .post → ∃ logId, rd.logId = some logId ∧ rd.result = .ok (.natural logId)) ∧
      ∃ quorum, Quorum turns t l rd n.directory.count quorum := by
  obtain ⟨r₀, ha, hw⟩ := r.last
  rcases t.acts_or_idles r₀.settled with ⟨l, s, n, hact⟩ | hidle
  swap
  · rw [Turn.answersNow, hidle.answers, List.drop_length] at h
    cases h
  rw [Turn.answersNow, hact.answers r₀.settled, List.drop_left] at h
  have hsame := s.intake_same (n.setClock t.before.clock)
  have hsize : (s.intake (n.setClock t.before.clock)).topology.size ≠ 1 := by
    rw [hsame.topology]
    exact fun h => hs.ne' ((r₀.anyOrder.proper hact.node).size.symm.trans h)
  -- the round in flight, with the answer at hand if there is one
  rcases Node.Deeds.success (s.deeds_react _) hsize h rfl with hin | ⟨rd', hb, hg⟩
  · have hnone : (n.setClock t.before.clock).answers = [] := (r₀.settled.quiet hact.node).2
    have hold := Stimulus.intake_answers hin rfl
    rw [hnone] at hold
    cases hold
  obtain ⟨tally, rd, hr, rfl⟩ : ∃ tally rd, n.round = some rd ∧ rd' = { rd with tally } := by
    rcases (s.tallies (n.setClock t.before.clock)).round with he | ⟨tally, rd, hr, he⟩
    · exact ⟨rd'.tally, rd', he.symm.trans hb.round, rfl⟩
    · exact ⟨tally, rd, hr, Option.some.inj (hb.round.symm.trans he)⟩
  obtain ⟨o, ho, hopens⟩ := (r₀.anyOrder.opens hact.node hr).2
  have hpost : rd.op.method = .post →
      ∃ logId, rd.logId = some logId ∧ rd.result = .ok (.natural logId) := by
    obtain ⟨_, _, _, _, _, _, hprop⟩ := hopens
    intro hm
    obtain ⟨logId, hl, hres, _⟩ := hprop.write hm
    exact ⟨logId, hl, hres⟩
  have hok : ∃ data, rd.result = .ok data := by
    cases hm : rd.op.method with
    | get => exact ⟨data, hg.read hm⟩
    | post =>
      obtain ⟨logId, _, hres⟩ := hpost hm
      exact ⟨_, hres⟩
  subst hw
  have htallied := hact.tallied r₀ ha hlegible hr
    (r₀.tallied (hlegible.before r₀.settled) hact.node hr) hb.round
  refine ⟨l, s, n, rd, hact, hr, hg.op.symm, ⟨o, ho, hopens⟩, hg.read, hpost,
    htallied.quorum r hlegible hdigest hact.node hr hok (fun hm logId hl => ?_)
      (hsame.directory ▸ hb.agreed)⟩
  obtain ⟨logId', hl', hres⟩ := hpost hm
  rw [hres, Option.some.inj (hl.symm.trans hl')]

end

/-- Whether a message is known to be read as it was written. -/
def Message.isLegible (m : Message) : Bool := m.isExact && (Message.ofText m.text).isOk

theorem World.legible_of_all {w : World} (h : w.sent.all (·.message.isLegible) = true) :
    w.Legible := by
  intro x hx
  have hm := List.all_eq_true.mp h x hx
  simp only [Message.isLegible, Bool.and_eq_true] at hm
  cases hr : Message.ofText x.message.text with
  | error e => rw [hr] at hm; cases hm.2
  | ok m => rw [Message.ofText_exact hr hm.1]

/-- After the election the first of two nodes puts a write to the vote, and the other one gets its
request. -/
def propose : List Action :=
  poll ++ [.deliver ⟨2, 1⟩, .submit 1 .post ⟨"CREATE TABLE t (v INT)", none⟩, .deliver ⟨1, 2⟩,
    .deliver ⟨1, 2⟩]

theorem pair_write_has_quorum : ∃ data,
    ⟨0, .ok data⟩ ∈ (Turn.mk (pair.play propose) (.deliver ⟨2, 1⟩)).answersNow ∧
    ∃ (l : MemberId) (n : Node) (rd : Round) (quorum : Finset MemberId), n.round = some rd ∧
      Quorum (pair.turns propose) (Turn.mk (pair.play propose) (.deliver ⟨2, 1⟩)) l rd
        n.directory.count quorum := by
  have hrun : Run Action.InOrder 2 (pair.turns propose) (pair.play propose) :=
    (Run.start (World.boot_fresh ..)).play propose (by simp [propose, poll, Action.InOrder])
  have hlast :
      ((Turn.mk (pair.play propose) (.deliver ⟨2, 1⟩)).answersNow.any
        fun a => a.op == 0 && a.reply.isOk) &&
      (Turn.mk (pair.play propose) (.deliver ⟨2, 1⟩)).after.sent.all (·.message.isLegible) := by
    decide +kernel
  have htexts : ((pair.turns propose).flatMap Turn.obtained).all
      (outcomeText · == "\x7b\"data\":1,\"success\":true\x7d") := by decide +kernel
  obtain ⟨hanswer, hlegible⟩ := Bool.and_eq_true_iff.mp hlast
  obtain ⟨⟨op, reply⟩, hmem, ha⟩ := List.any_eq_true.mp hanswer
  obtain ⟨hop, hok⟩ := Bool.and_eq_true_iff.mp ha
  obtain rfl : op = 0 := eq_of_beq hop
  cases reply with
  | error e => cases hok
  | ok data =>
    have htext {x : Except StoreError Json} (hx : x ∈ (pair.turns propose).flatMap Turn.obtained) :=
      eq_of_beq (List.all_eq_true.mp htexts x hx)
    obtain ⟨l, s, n, rd, _, hr, _, _, _, _, quorum, hq⟩ := success_has_quorum (by decide)
      (hrun.turn (a := .deliver ⟨2, 1⟩) trivial) (World.legible_of_all hlegible)
      (fun x hx y hy _ => (htext hx).trans (htext hy).symm) hmem
    exact ⟨data, hmem, l, n, rd, quorum, hr, hq⟩

end Accord
