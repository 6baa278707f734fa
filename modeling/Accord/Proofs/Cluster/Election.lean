import Accord.Proofs.Cluster.History
import Accord.Proofs.Message.Codec

/-! # Elections count genuine votes of their own round

Whenever a node takes the lead in a cluster of more than one node, it does so by its latest
election, which has not made it leader before, and more than half as many nodes as it is connected
with have accepted it in exactly this election, each with a log that reached no further than the
candidate's did when the election began. Messages may arrive in any order, repeatedly or not at
all. -/
namespace Accord

/-! ## Events of elections -/

namespace Turn

/-- In this turn `c` begins the election `r`, with a log that reaches `logId`. -/
def Begins (t : Turn) (c : MemberId) (r logId : Nat) : Prop :=
  ∃ n m, t.before.node? c = some n ∧ t.after.node? c = some m ∧ n.ballot.round < r ∧
    r ≤ m.ballot.round ∧ n.lastId = .ok logId

/-- In this turn `v` gets the request of `c` in the election `r` and accepts, with a log that
reaches at most the `logId` of the request. -/
def Accepts (t : Turn) (v c : MemberId) (r logId : Nat) : Prop :=
  t.delivery? = some ⟨⟨c, v⟩, .voteRequest c logId (some r)⟩ ∧
    ⟨⟨v, c⟩, .vote v true (some r)⟩ ∈ t.sentNow ∧
    ∃ n own, t.before.node? v = some n ∧ n.lastId = .ok own ∧ own ≤ logId

/-- In this turn `c` becomes a leader; its latest election is `r`. -/
def Promotes (t : Turn) (c : MemberId) (r : Nat) : Prop :=
  ∃ n m, t.before.node? c = some n ∧ t.after.node? c = some m ∧ n.role ≠ .leader ∧
    m.role = .leader ∧ m.ballot.round = r

instance (t : Turn) (c : MemberId) (r : Nat) : Decidable (t.Promotes c r) :=
  decidable_of_iff ((t.before.node? c).any (·.role ≠ .leader) = true ∧
    (t.after.node? c).any (fun m => m.role = .leader ∧ m.ballot.round = r) = true) <| by
      simp only [Option.any_eq_true, decide_eq_true_eq, Promotes]
      constructor
      · rintro ⟨⟨n, hn, hr⟩, m, hm, hr', hk⟩
        exact ⟨n, m, hn, hm, hr, hr', hk⟩
      · rintro ⟨n, m, hn, hm, hr, hr', hk⟩
        exact ⟨⟨n, hn, hr⟩, m, hm, hr', hk⟩

end Turn

/-! ## Ballots -/

namespace Node

variable {o : Occasion}

/-- What deeds do to a ballot. -/
structure Polled (o : Occasion) (n m : Node) : Prop where
  round_le : n.ballot.round ≤ m.ballot.round
  same : m.ballot.round = n.ballot.round →
    m.ballot.votes = n.ballot.votes ∧ (n.ballot.resolved = true → m.ballot.resolved = true)
  later : n.ballot.round < m.ballot.round →
    m.ballot.votes = [] ∧ ∃ store logId, o = .timer store ∧ store.lastId = .ok logId

theorem Polled.of_ballot {n m : Node} (h : m.ballot = n.ballot) : Polled o n m where
  round_le := by rw [h]
  same _ := by rw [h]; exact ⟨rfl, fun hr => hr⟩
  later hlt := by rw [h] at hlt; exact absurd hlt (lt_irrefl _)

theorem Polled.resolved {n m : Node} (h : m.ballot = { n.ballot with resolved := true }) :
    Polled o n m where
  round_le := by rw [h]
  same _ := by rw [h]; exact ⟨rfl, fun _ => rfl⟩
  later hlt := by rw [h] at hlt; exact absurd hlt (lt_irrefl _)

theorem Polled.trans {n m l : Node} (h : Polled o n m) (h' : Polled o m l) :
    Polled o n l where
  round_le := h.round_le.trans h'.round_le
  same he := by
    have hm : m.ballot.round = n.ballot.round :=
      le_antisymm (he ▸ h'.round_le) h.round_le
    obtain ⟨hv, hr⟩ := h.same hm
    obtain ⟨hv', hr'⟩ := h'.same (he.trans hm.symm)
    exact ⟨hv'.trans hv, hr' ∘ hr⟩
  later hlt := by
    rcases h'.round_le.lt_or_eq with hl | hl
    · exact h'.later hl
    · obtain ⟨hv, hc⟩ := h.later (hl ▸ hlt)
      exact ⟨(h'.same hl.symm).1.trans hv, hc⟩

/-- No election begins while one may be decided. -/
theorem Polled.round_eq {n m : Node} (h : Polled o n m) (ho : o.decides = true) :
    m.ballot.round = n.ballot.round := by
  rcases h.round_le.lt_or_eq with hlt | heq
  · obtain ⟨_, _, _, rfl, _⟩ := h.later hlt
    cases ho
  · exact heq.symm

theorem Opened.ballot {op : Operation} {n m : Node} (h : Opened op n m) :
    m.ballot = n.ballot ∧ m.standing = n.standing := by
  cases h <;> exact ⟨rfl, rfl⟩

theorem Carried.ballot {r : Round} {n m : Node} (h : Carried r n m) :
    m.ballot = n.ballot ∧ m.standing = n.standing := by
  cases h <;> exact ⟨rfl, rfl⟩

theorem Dropped.ballot {r : Round} {e : ReplyError} {n m : Node} (h : Dropped r e n m) :
    m.ballot = n.ballot ∧ m.standing = n.standing := by
  cases h <;> exact ⟨rfl, rfl⟩

theorem Deed.polled {n m : Node} (h : Deed o n m) : Polled o n m := by
  cases h with
  | resolve => exact .resolved rfl
  | win => exact .resolved rfl
  | @stand logId hw hc hl =>
    refine ⟨Nat.le_succ _, fun he => absurd he (Nat.succ_ne_self _), fun _ => ?_⟩
    exact ⟨rfl, n.store, logId, hw, hl⟩
  | begin _ _ _ ho => exact .of_ballot ho.ballot.1
  | succeed _ _ hc => exact .of_ballot hc.ballot.1
  | fail _ hd => exact .of_ballot hd.ballot.1
  | _ => exact .of_ballot rfl

theorem Deeds.polled {n m : Node} (h : Deeds o n m) : Polled o n m := by
  induction h with
  | refl => exact .of_ballot rfl
  | tail _ hd ih => exact ih.trans hd.polled

/-- How a node comes to lead. -/
def Won (o : Occasion) (n m : Node) : Prop :=
  o.decides = true ∧ n.ballot.resolved = false ∧ m.ballot.resolved = true ∧
    Ballot.isMajority n.ballot.accepted n.directory.count = true

theorem Deeds.leads {n m : Node} (h : Deeds o n m)
    (hh : o ≠ .news n.standing.self) (hs : n.topology.size ≠ 1)
    (hl : m.standing.leader = some m.standing.self) :
    n.standing.leader = some n.standing.self ∨ Won o n m := by
  induction h with
  | refl => exact .inl hl
  | @tail a b ha hab ih =>
    have hsame := Deeds.same ha
    have hab' := hab.same
    have hpoll := Deeds.polled ha
    -- the lead was there before, and the election it was won by is still over
    have hkeep (hstand : b.standing.leader = a.standing.leader) :
        n.standing.leader = some n.standing.self ∨ Won o n b := by
      rw [hstand, hab'.self] at hl
      refine (ih hl).imp_right ?_
      rintro ⟨hc, hr, hr', hmaj⟩
      exact ⟨hc, hr, (hab.polled.same (hab.polled.round_eq hc)).2 hr', hmaj⟩
    cases hab with
    | wait _ _ _ _ he => exact hkeep he
    | forget _ _ _ he =>
      dsimp only at hl
      rw [he] at hl
      cases hl
    | follow standing _ hheard hself he =>
      dsimp only at hl
      rw [he, hself, hsame.self] at hl
      exact absurd (Option.some.inj hl ▸ hheard) hh
    | win hw hr hn hmaj =>
      right
      obtain ⟨hv, hres⟩ := hpoll.same (hpoll.round_eq hw)
      refine ⟨hw, ?_, rfl, ?_⟩
      · cases hb : n.ballot.resolved with
        | false => rfl
        | true =>
          rw [hres hb] at hr
          cases hr
      · rw [Ballot.accepted, hv, hsame.directory] at hmaj
        exact hmaj
    | reign _ _ hsize =>
      rw [hsame.topology] at hsize
      exact absurd hsize hs
    | begin _ _ _ ho => exact hkeep (by rw [ho.ballot.2]; rfl)
    | succeed _ _ hc => exact hkeep (by rw [hc.ballot.2])
    | fail _ hd => exact hkeep (by rw [hd.ballot.2])
    | _ => exact hkeep rfl

end Node

theorem Stimulus.intake_standing (s : Stimulus) (n : Node) :
    (s.intake n).standing = n.standing := by
  cases s with
  | client op =>
    simp only [intake]
    split <;> rfl
  | message sender m =>
    simp only [intake]
    split
    · exact (Node.absorbed _ _ _).same.2
    · rfl
  | _ => rfl

theorem Stimulus.store_of_timer {s : Stimulus} {n : Node} {store : Store}
    (h : s.occasion n = .timer store) : n.store = store := by
  cases s with
  | campaign => cases h; rfl
  | tick => cases h; rfl
  | message sender m =>
    simp only [occasion] at h
    split at h
    · rename_i m' _
      cases m' <;> cases h
    · cases h
  | _ => cases h

/-- A ballot changes by a vote in the election it is about. -/
theorem Stimulus.intake_ballot (s : Stimulus) (n : Node) :
    (s.intake n).ballot = n.ballot ∨ ∃ sender m voter accept round, s = .message sender m ∧
      Message.ofText m.text = .ok (.vote voter accept round) ∧ n.ballot.concerns round = true ∧
      (s.intake n).ballot = n.ballot.record voter accept := by
  cases s with
  | client op =>
    simp only [intake]
    split <;> exact .inl rfl
  | message sender m =>
    simp only [intake]
    split
    · rename_i m' hm
      have h := Node.absorbed sender m' n
      generalize n.absorb sender m' = n' at h
      cases h with
      | tally hc => exact .inr ⟨sender, m, _, _, _, rfl, hm, hc, rfl⟩
      | _ => exact .inl rfl
    · exact .inl rfl
  | _ => exact .inl rfl

/-- What a node takes in changes its ballot by at most one vote in the election it is about. -/
def Turn.Counts (t : Turn) (id : MemberId) (n n' : Node) : Prop :=
  n'.ballot = n.ballot ∨ ∃ sender voter accept round,
    t.delivery? = some ⟨⟨sender, id⟩, .vote voter accept round⟩ ∧
      n.ballot.concerns round = true ∧ n'.ballot = n.ballot.record voter accept

theorem Turn.Counts.kept {t : Turn} {id : MemberId} {n n' : Node} (h : t.Counts id n n') :
    n'.ballot.round = n.ballot.round ∧ n'.ballot.resolved = n.ballot.resolved := by
  rcases h with h | ⟨_, _, _, _, _, _, h⟩ <;> rw [h] <;> exact ⟨rfl, rfl⟩

theorem Turn.Acts.counts {t : Turn} {id : MemberId} {s : Stimulus} {n : Node} (h : t.Acts id s n) :
    t.Counts id n (s.intake (n.setClock t.before.clock)) := by
  rcases s.intake_ballot (n.setClock t.before.clock) with hb | ⟨sender, m, voter, accept, round,
    rfl, hm, hc, hb⟩
  · exact .inl hb
  · obtain rfl := Message.ofText_electoral hm rfl
    exact .inr ⟨sender, voter, accept, round, h.delivery, hc, hb⟩

/-- What a turn does to a ballot: it may count a vote, and then deeds follow. -/
theorem Turn.NodeStep.counts {t : Turn} {id : MemberId} {n m : Node} (h : t.NodeStep id n m) :
    ∃ n' o, t.Counts id n n' ∧ Node.Polled o n' m := by
  cases h with
  | @acted s h =>
    refine ⟨_, s.occasion (n.setClock t.before.clock), h.counts, ?_⟩
    obtain ⟨h1, h2, h3⟩ := (s.deeds_react (n.setClock t.before.clock)).polled
    exact ⟨h1, h2, h3⟩
  | rewired hr =>
    obtain ⟨directory, available, clock, _, rfl⟩ := hr
    exact ⟨n, .other, .inl rfl, .of_ballot rfl⟩

theorem Turn.NodeStep.round_le {t : Turn} {id : MemberId} {n m : Node} (h : t.NodeStep id n m) :
    n.ballot.round ≤ m.ballot.round := by
  obtain ⟨n', _, hc, hp⟩ := h.counts
  rw [← hc.kept.1]
  exact hp.round_le

/-! ## The messages of elections -/

section

variable {size : Nat} {turns : List Turn} {w : World}

/-- All requests for votes come from elections that have begun. -/
theorem Run.requests (r : Run Action.AnyOrder size turns w) {c v candidate : MemberId} {logId : Nat}
    {round : Option Nat} (h : ⟨⟨c, v⟩, .voteRequest candidate logId round⟩ ∈ w.sent) :
    candidate = c ∧ ∃ k, round = some k ∧ ∃ b ∈ turns, b.Begins c k logId := by
  refine r.invariant (P := fun turns w => ∀ {c v candidate logId round},
    ⟨⟨c, v⟩, .voteRequest candidate logId round⟩ ∈ w.sent →
      candidate = c ∧ ∃ k, round = some k ∧ ∃ b ∈ turns, b.Begins c k logId) ?_ ?_ h
  · intro w hw c v candidate logId round h
    rw [hw.sent] at h
    cases h
  · intro turns t r _ ih c v candidate logId round h
    rw [t.sent_append r.settled] at h
    rcases List.mem_append.mp h with h | h
    · obtain ⟨hc, k, hk, b, hb, hbegins⟩ := ih h
      exact ⟨hc, k, hk, b, List.mem_append_left _ hb, hbegins⟩
    · obtain ⟨s, n, hact, _, d, _, hm, hcause⟩ := Turn.sends r.settled h
      have hp := r.proper hact.node
      cases hcause with
      | reply _ _ hr =>
        cases hr with
        | vote _ _ hm' => cases hm.symm.trans hm'
        | batch _ _ _ hm' => cases hm.symm.trans hm'
        | roundAnswer _ hm' => cases hm.symm.trans hm'
      | @deed a b hd hs =>
        rw [hm] at hs
        cases hs with
        | voteRequest hw hl hb =>
          have hsame := (s.intake_same _).trans (Node.Deeds.same hd.first)
          refine ⟨(congrArg Topology.self hsame.topology).trans hp.self, _, rfl, t, by simp, n, _,
            hact.node, hact.self r.settled, ?_, (Node.Deeds.polled hd.rest).round_le, ?_⟩
          · have hle := (Node.Deeds.polled hd.first).round_le
            rw [hact.counts.kept.1] at hle
            rw [hb]
            exact Nat.lt_succ_of_le hle
          · have hstore : n.store = a.store := s.store_of_timer hw
            rw [Node.lastId, hstore]
            exact hl

/-- A message that names a leader comes from this leader. -/
theorem Run.leader_sent (r : Run Action.AnyOrder size turns w) {x : Transmission} (hx : x ∈ w.sent)
    {leader : MemberId} (hl : x.message.occasion = .news leader) : leader = x.ends.source := by
  refine r.invariant (P := fun _ w => ∀ {x leader}, x ∈ w.sent →
    x.message.occasion = .news leader → leader = x.ends.source) ?_ ?_ hx hl
  · intro w hw x leader hx
    rw [hw.sent] at hx
    cases hx
  · intro turns t r _ ih x leader hx hl
    rw [t.sent_append r.settled] at hx
    rcases List.mem_append.mp hx with hx | hx
    · exact ih hx hl
    · obtain ⟨s, n, hact, _, d, _, hm, hcause⟩ := Turn.sends r.settled hx
      have hp := r.proper hact.node
      rw [← hm] at hl
      cases hcause with
      | reply _ _ hr =>
        cases hr with
        | vote _ _ hm' => rw [hm'] at hl; cases hl
        | batch _ _ _ hm' => rw [hm'] at hl; cases hl
        | roundAnswer _ hm' => rw [hm'] at hl; cases hl
      | @deed a b hd hs =>
        have hsame := (s.intake_same _).trans (Node.Deeds.same hd.first)
        have hid : a.id = x.ends.source := (congrArg Topology.self hsame.topology).trans hp.self
        generalize d.message = m at hs hl
        cases hs with
        | announcement => cases hl; exact hid
        | heartbeat => cases hl; exact hid
        | _ => cases hl

/-- An election of `c` that `v` has accepted. -/
def Accepted (turns : List Turn) (v c : MemberId) (k : Nat) : Prop :=
  ∃ logId, (∃ b ∈ turns, b.Begins c k logId) ∧ ∃ a ∈ turns, a.Accepts v c k logId

theorem Accepted.append {v c : MemberId} {k : Nat} (h : Accepted turns v c k) (t : Turn) :
    Accepted (turns ++ [t]) v c k := by
  obtain ⟨logId, ⟨b, hb, hbegins⟩, a, ha, haccepts⟩ := h
  exact ⟨logId, ⟨b, List.mem_append_left _ hb, hbegins⟩, a, List.mem_append_left _ ha, haccepts⟩

/-- All votes are answers of their senders to requests, and those that accept mean it. -/
theorem Run.votes (r : Run Action.AnyOrder size turns w) {v c voter : MemberId} {accept : Bool}
    {round : Option Nat} (h : ⟨⟨v, c⟩, .vote voter accept round⟩ ∈ w.sent) :
    voter = v ∧ ∃ k, round = some k ∧ (accept = true → Accepted turns v c k) := by
  refine r.invariant (P := fun turns w => ∀ {v c voter accept round},
    ⟨⟨v, c⟩, .vote voter accept round⟩ ∈ w.sent →
      voter = v ∧ ∃ k, round = some k ∧ (accept = true → Accepted turns v c k)) ?_ ?_ h
  · intro w hw v c voter accept round h
    rw [hw.sent] at h
    cases h
  · intro turns t r ha ih v c voter accept round h
    rw [t.sent_append r.settled] at h
    rcases List.mem_append.mp h with h | h
    · obtain ⟨hv, k, hk, hacc⟩ := ih h
      exact ⟨hv, k, hk, fun h => (hacc h).append t⟩
    · obtain ⟨s, n, hact, _, d, hpeer, hm, hcause⟩ := Turn.sends r.settled h
      have hp := r.proper hact.node
      cases hcause with
      | deed hd hs =>
        rw [hm] at hs
        cases hs
      | @reply sender m m' hs hof hr =>
        cases hr with
        | batch _ _ _ hm' => cases hm.symm.trans hm'
        | roundAnswer _ hm' => cases hm.symm.trans hm'
        | @vote candidate logId own round' _ hl hcand hm' =>
          cases hm.symm.trans hm'
          obtain rfl := Message.ofText_electoral hof rfl
          subst hs
          obtain ⟨rfl, k, rfl, b, hb, hbegins⟩ := r.requests (r.sent_of_delivery ha hact.delivery)
          obtain rfl : candidate = c := hcand.symm.trans hpeer
          have hid : (n.setClock t.before.clock).id = v := hp.self
          refine ⟨hid, k, rfl, fun hgrant => ⟨logId, ⟨b, List.mem_append_left _ hb, hbegins⟩, t,
            by simp, hact.delivery, ?_, n, own, hact.node, hl, of_decide_eq_true hgrant⟩⟩
          rw [hgrant, hid] at h
          exact h

/-! ## Elections of a node -/

/-- No election is later than the latest one. -/
theorem Run.begun (r : Run Action.AnyOrder size turns w) {b : Turn} (hb : b ∈ turns) {c : MemberId}
    {k logId : Nat} (h : b.Begins c k logId) {n : Node} (hn : w.node? c = some n) :
    k ≤ n.ballot.round := by
  refine r.invariant (P := fun turns w => ∀ {n}, b ∈ turns → w.node? c = some n →
    k ≤ n.ballot.round) ?_ ?_ hb hn
  · intro w _ n hb
    cases hb
  · intro turns t r _ ih m hb hm
    rcases List.mem_append.mp hb with hb | hb
    · obtain ⟨n, hn, hstep⟩ := t.nodeStep r.settled hm
      exact (ih hb hn).trans hstep.round_le
    · obtain rfl := List.mem_singleton.mp hb
      obtain ⟨n, m', _, hm', _, hle, _⟩ := h
      rw [hm] at hm'
      cases hm'
      exact hle

/-- A node begins each of its elections once. -/
theorem Run.begins_once (r : Run Action.AnyOrder size turns w) {b b' : Turn} (hb : b ∈ turns)
    (hb' : b' ∈ turns) {c : MemberId} {k logId logId' : Nat} (h : b.Begins c k logId)
    (h' : b'.Begins c k logId') : logId = logId' := by
  -- of two turns the later one begins an election that is later than all before
  have hlast {turns : List Turn} {t b : Turn} {logId logId' : Nat}
      (r : Run Action.AnyOrder size turns t.before) (hb : b ∈ turns) (h : b.Begins c k logId)
      (ht : t.Begins c k logId') : False := by
    obtain ⟨n, _, hn, _, hlt, _⟩ := ht
    exact absurd (r.begun hb h hn) (not_le.mpr hlt)
  refine r.invariant (P := fun turns _ => ∀ {b b' logId logId'}, b ∈ turns → b' ∈ turns →
    b.Begins c k logId → b'.Begins c k logId' → logId = logId') ?_ ?_ hb hb' h h'
  · intro w _ b b' _ _ hb
    cases hb
  · intro turns t r _ ih b b' logId logId' hb hb' h h'
    rw [List.mem_append, List.mem_singleton] at hb hb'
    rcases hb with hb | rfl <;> rcases hb' with hb' | rfl
    · exact ih hb hb' h h'
    · exact (hlast r hb h h').elim
    · exact (hlast r hb' h' h).elim
    · obtain ⟨n, _, hn, _, _, _, hl⟩ := h
      obtain ⟨n', _, hn', _, _, _, hl'⟩ := h'
      rw [hn] at hn'
      cases hn'
      rw [hl] at hl'
      exact Except.ok.inj hl'

/-- A ballot of `c` that counts each voter once, and only other nodes that accepted. -/
structure Ballot.Genuine (turns : List Turn) (c : MemberId) (b : Ballot) : Prop where
  sorted : Keyed.Sorted b.votes
  accepted : ∀ {v}, (v, true) ∈ b.votes → v ≠ c ∧ Accepted turns v c b.round

theorem Ballot.Genuine.empty {c : MemberId} {b : Ballot} (h : b.votes = []) :
    b.Genuine turns c where
  sorted := by rw [h]; exact List.Pairwise.nil
  accepted hv := by rw [h] at hv; cases hv

theorem Ballot.Genuine.record {c voter : MemberId} {accept : Bool} {b : Ballot}
    (h : b.Genuine turns c) (hv : accept = true → voter ≠ c ∧ Accepted turns voter c b.round) :
    (b.record voter accept).Genuine turns c where
  sorted := h.sorted.put voter accept
  accepted {v} hm := by
    have hget := (h.sorted.put voter accept).get?_of_mem hm
    by_cases he : v = voter
    · subst he
      rw [Keyed.get?_put_self] at hget
      exact hv (Option.some.inj hget)
    · rw [Keyed.get?_put_of_ne he] at hget
      exact h.accepted (Keyed.mem_of_get? hget)

theorem Turn.Counts.genuine {t : Turn} {c : MemberId} {n n' : Node} (h : t.Counts c n n')
    (r : Run Action.AnyOrder size turns t.before) (ha : t.action.AnyOrder t.before)
    (hn : n.ballot.Genuine turns c) : n'.ballot.Genuine turns c := by
  rcases h with hb | ⟨sender, voter, accept, round, hd, hc, hb⟩
  · rw [hb]
    exact hn
  · rw [hb]
    have hsent := r.sent_of_delivery ha hd
    obtain ⟨rfl, k, rfl, hacc⟩ := r.votes hsent
    obtain rfl : k = n.ballot.round := eq_of_beq hc
    exact hn.record fun h => ⟨r.sent_apart hsent, hacc h⟩

theorem Node.Polled.genuine {o : Occasion} {n m : Node} {c : MemberId}
    (h : Polled o n m) (hn : n.ballot.Genuine turns c) (t : Turn) :
    m.ballot.Genuine (turns ++ [t]) c := by
  rcases h.round_le.lt_or_eq with hlt | heq
  · exact .empty (h.later hlt).1
  · have hv := (h.same heq.symm).1
    refine ⟨hv ▸ hn.sorted, fun hmem => ?_⟩
    rw [hv] at hmem
    obtain ⟨hne, hacc⟩ := hn.accepted hmem
    exact ⟨hne, heq ▸ hacc.append t⟩

theorem Run.genuine (r : Run Action.AnyOrder size turns w) {c : MemberId} {n : Node}
    (hn : w.node? c = some n) : n.ballot.Genuine turns c := by
  refine r.invariant (P := fun turns w => ∀ {n}, w.node? c = some n →
    n.ballot.Genuine turns c) ?_ ?_ hn
  · intro w hw n hn
    obtain ⟨topology, timing, clock, dice, store, rfl, _⟩ := hw.started hn
    unfold Node.start Node.seek
    obtain ⟨pick, dice⟩ := (Node.new topology timing clock dice store).dice.roll
    exact .empty rfl
  · intro turns t r ha ih m hm
    obtain ⟨n, hn, hstep⟩ := t.nodeStep r.settled hm
    obtain ⟨n', o, hc, hp⟩ := hstep.counts
    exact hp.genuine (hc.genuine r ha (ih hn)) t

/-! ## Taking the lead -/

/-- Nobody is told by a message that it leads itself. -/
theorem Turn.Acts.leader_ne {t : Turn} {c : MemberId} {s : Stimulus} {n : Node}
    (hact : t.Acts c s n) (r : Run Action.AnyOrder size turns t.before) (ha : t.action.AnyOrder t.before) :
    s.occasion (n.setClock t.before.clock) ≠ .news c := by
  intro hl
  cases s with
  | message sender m =>
    simp only [Stimulus.occasion] at hl
    split at hl
    · rename_i m' hm
      have hk : m'.kind.isElectoral = true := by
        cases m' with
        | announcement => rfl
        | heartbeat => rfl
        | _ => cases hl
      obtain rfl := Message.ofText_electoral hm hk
      have hsent := r.sent_of_delivery ha hact.delivery
      exact r.sent_apart hsent (r.leader_sent hsent hl).symm
    · cases hl
  | _ => cases hl

/-- In this turn `c` counts a vote, or one of its peers has left, and it wins its election `k`. -/
structure Turn.Wins (t : Turn) (c : MemberId) (k : Nat) (n n' m : Node) : Prop where
  before : t.before.node? c = some n
  after : t.after.node? c = some m
  counts : t.Counts c n n'
  pending : n'.ballot.resolved = false
  majority : Ballot.isMajority n'.ballot.accepted m.directory.count = true
  resolved : m.ballot.resolved = true
  round : n'.ballot.round = k
  latest : m.ballot.round = k

/-- A node that takes the lead wins its latest election. -/
theorem Turn.Promotes.wins {t : Turn} {c : MemberId} {k : Nat} (h : t.Promotes c k)
    (r : Run Action.AnyOrder size turns t.before) (ha : t.action.AnyOrder t.before)
    (hs : 1 < size) : ∃ n n' m, t.Wins c k n n' m := by
  obtain ⟨n, m, hn, hm, hrole, hrole', hk⟩ := h
  obtain ⟨n₀, hn₀, hstep⟩ := t.nodeStep r.settled hm
  rw [hn] at hn₀
  cases hn₀
  cases hstep with
  | rewired hr =>
    obtain ⟨directory, available, clock, _, rfl⟩ := hr
    exact absurd hrole' hrole
  | @acted s hact =>
    have hp := r.proper hn
    have hsame := s.intake_same (n.setClock t.before.clock)
    have hdeeds := s.deeds_react (n.setClock t.before.clock)
    have hheard : s.occasion (n.setClock t.before.clock) ≠
        .news (s.intake (n.setClock t.before.clock)).standing.self := by
      rw [hsame.self.trans hp.standing]
      exact hact.leader_ne r ha
    have hsize : (s.intake (n.setClock t.before.clock)).topology.size ≠ 1 := by
      rw [hsame.topology]
      exact fun h => hs.ne' (hp.size.symm.trans h)
    rcases Node.Deeds.leads hdeeds hheard hsize (Node.role_iff.mp hrole') with hl | hw
    · rw [s.intake_standing] at hl
      exact absurd (Node.role_iff.mpr hl) hrole
    · obtain ⟨hdecides, hres, hres', hmaj⟩ := hw
      have hround := ((Node.Deeds.polled hdeeds).round_eq hdecides).symm.trans hk
      rw [← (Node.Deeds.same hdeeds).directory] at hmaj
      exact ⟨n, _, _, hn, hm, hact.counts, hres, hmaj, hres', hround, hk⟩

/-- After an election that made a node leader, it is over. -/
theorem Run.promoted (r : Run Action.AnyOrder size turns w) (hs : 1 < size) {p : Turn}
    (hp : p ∈ turns) {c : MemberId} {k : Nat} (h : p.Promotes c k) {n : Node}
    (hn : w.node? c = some n) :
    k < n.ballot.round ∨ k = n.ballot.round ∧ n.ballot.resolved = true := by
  refine r.invariant (P := fun turns w => ∀ {n}, p ∈ turns → w.node? c = some n →
    k < n.ballot.round ∨ k = n.ballot.round ∧ n.ballot.resolved = true) ?_ ?_ hp hn
  · intro w _ n hp
    cases hp
  · intro turns t r ha ih m hp hm
    rw [List.mem_append, List.mem_singleton] at hp
    rcases hp with hp | rfl
    · obtain ⟨n, hn, hstep⟩ := t.nodeStep r.settled hm
      obtain ⟨n', o, hc, hpoll⟩ := hstep.counts
      obtain ⟨hround, hres⟩ := hc.kept
      rcases ih hp hn with hlt | ⟨heq, hr⟩
      · exact .inl (hlt.trans_le (hround ▸ hpoll.round_le))
      · rw [heq, ← hround]
        rcases hpoll.round_le.lt_or_eq with hlt | hsame
        · exact .inl hlt
        · exact .inr ⟨hsame, (hpoll.same hsame.symm).2 (hres.trans hr)⟩
    · obtain ⟨n, n', m', hw⟩ := h.wins r ha hs
      cases hm.symm.trans hw.after
      exact .inr ⟨hw.latest.symm, hw.resolved⟩

/-- The voters of a ballot that accepted. -/
def Ballot.supporters (b : Ballot) : Finset MemberId :=
  ((b.votes.filter (·.2)).map (·.1)).toFinset

theorem Ballot.mem_supporters {b : Ballot} {v : MemberId} :
    v ∈ b.supporters ↔ (v, true) ∈ b.votes := by
  simp only [supporters, List.mem_toFinset, List.mem_map, List.mem_filter]
  constructor
  · rintro ⟨⟨v', accept⟩, ⟨hm, rfl⟩, rfl⟩
    exact hm
  · intro h
    exact ⟨(v, true), ⟨h, rfl⟩, rfl⟩

theorem Ballot.card_supporters {b : Ballot} (h : Keyed.Sorted b.votes) :
    b.supporters.card = b.accepted := by
  have hn : ((b.votes.filter (·.2)).map (·.1)).Nodup :=
    h.nodup.sublist (List.filter_sublist.map _)
  rw [supporters, List.toFinset_card_of_nodup hn, List.length_map, accepted,
    List.countP_eq_length_filter]

/-- Whenever `c` takes the lead, it does so by its latest election `k`, which has not made it leader
before and in which more than half as many other nodes as `c` is connected with have accepted it,
each with a log that reached no further than that of `c` did when the election began. -/
theorem leader_won_genuine_election (hs : 1 < size) {t : Turn} {c : MemberId} {k : Nat}
    (r : Run Action.AnyOrder size (turns ++ [t]) w) (h : t.Promotes c k) :
    1 ≤ k ∧ (∀ b ∈ turns ++ [t], ∀ k' logId, b.Begins c k' logId → k' ≤ k) ∧
      (∀ p ∈ turns, ¬ p.Promotes c k) ∧
      ∃ n logId, ∃ voters : Finset MemberId, w.node? c = some n ∧
        (∃ b ∈ turns, b.Begins c k logId) ∧ n.directory.count / 2 < voters.card ∧
        ∀ v ∈ voters, v ≠ c ∧ ∃ a ∈ turns, a.Accepts v c k logId := by
  obtain ⟨r₀, ha, rfl⟩ := r.last
  obtain ⟨n, n', m, hw⟩ := h.wins r₀ ha hs
  have hg := hw.counts.genuine r₀ ha (r₀.genuine hw.before)
  have hmany : m.directory.count / 2 < n'.ballot.supporters.card := by
    rw [Ballot.card_supporters hg.sorted]
    exact of_decide_eq_true hw.majority
  obtain ⟨v₀, hv₀⟩ := Finset.card_pos.mp (Nat.zero_lt_of_lt hmany)
  obtain ⟨_, logId, ⟨b, hb, hbegins⟩, _⟩ := hg.accepted (Ballot.mem_supporters.mp hv₀)
  rw [hw.round] at hbegins
  refine ⟨?_, ?_, ?_, m, logId, n'.ballot.supporters, hw.after, ⟨b, hb, hbegins⟩, hmany, ?_⟩
  · obtain ⟨_, _, _, _, hlt, _⟩ := hbegins
    exact Nat.one_le_of_lt hlt
  · intro b hb k' logId hbegins
    exact hw.latest ▸ r.begun hb hbegins hw.after
  · intro p hp hpromotes
    obtain ⟨hround, hresolved⟩ := hw.counts.kept
    rcases r₀.promoted hs hp hpromotes hw.before with hlt | ⟨_, hr⟩
    · rw [← hround, hw.round] at hlt
      exact lt_irrefl _ hlt
    · rw [← hresolved, hw.pending] at hr
      cases hr
  · intro v hv
    obtain ⟨hne, logId', ⟨b', hb', hbegins'⟩, a, ha, haccepts⟩ :=
      hg.accepted (Ballot.mem_supporters.mp hv)
    rw [hw.round] at hbegins' haccepts
    obtain rfl := r₀.begins_once hb hb' hbegins hbegins'
    exact ⟨hne, a, ha, haccepts⟩

theorem pair_elects_leader :
    (Turn.mk (pair.play poll) (.deliver ⟨2, 1⟩)).Promotes 1 1 ∧
      ∃ logId v, v ≠ 1 ∧ ∃ a ∈ pair.turns poll, a.Accepts v 1 1 logId := by
  have hrun : Run Action.AnyOrder 2 (pair.turns poll) (pair.play poll) :=
    (Run.start (World.boot_fresh ..)).play poll (by simp [poll, Action.AnyOrder, Action.InOrder])
  have hwin : (Turn.mk (pair.play poll) (.deliver ⟨2, 1⟩)).Promotes 1 1 := by decide +kernel
  obtain ⟨_, _, _, n, logId, voters, _, _, hmany, hv⟩ :=
    leader_won_genuine_election (by decide) (hrun.turn (a := .deliver ⟨2, 1⟩) trivial) hwin
  obtain ⟨v, hmem⟩ := Finset.card_pos.mp (Nat.zero_lt_of_lt hmany)
  exact ⟨hwin, logId, v, hv v hmem⟩

end

end Accord
