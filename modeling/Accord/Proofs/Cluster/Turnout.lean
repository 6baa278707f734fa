import Accord.Proofs.Cluster.Matching

/-! # Turnout

A round is decided in the leader's favour only when it has as many answers as there are connected
peers, and half as many with the leader's own digest. The answers are counted, not their senders: if
all of those who answered are still connected, then every connected peer has answered; but the
answer of a peer that has left stands in for one of a connected peer that has not answered, which a
run of three nodes shows. Messages arrive in any order, any number of times or not at all. -/
namespace Accord

/-- In this turn the votes decide the round `rd` in favour of the node `l`, which is `n` before. -/
def Turn.Completes (t : Turn) (l : MemberId) (n : Node) (rd : Round) : Prop :=
  ∃ s a b, t.Acts l s n ∧
    Node.Doing (s.occasion (n.setClock t.before.clock)) (s.intake (n.setClock t.before.clock)) a b
      (s.react (n.setClock t.before.clock)) ∧
    a.round = some rd ∧ a.decision rd = some true ∧ Node.Carried rd a b

/-- In these turns `v` took the request of `l` in the round `k`, and `l` took the answer of `v`. -/
structure Answered (turns : List Turn) (v l : MemberId) (k : Nat) (digest : String) : Prop where
  asked : ∃ t ∈ turns, ∃ n method command,
    t.Acts v (.message l (.roundRequest method command (some k))) n
  heard : ∃ t ∈ turns, ∃ n, t.Acts l (.message v (.roundAnswer digest (some k))) n

theorem Answered.mono {turns more : List Turn} {v l : MemberId} {k : Nat} {digest : String}
    (h : Answered turns v l k digest) : Answered (turns ++ more) v l k digest := by
  obtain ⟨⟨a, ha, hasked⟩, ⟨b, hb, hheard⟩⟩ := h
  exact ⟨⟨a, List.mem_append_left _ ha, hasked⟩, ⟨b, List.mem_append_left _ hb, hheard⟩⟩

/-! ## Successes are completions -/

theorem Node.Deeds.completes {o : Occasion} {n m : Node} (h : Deeds o n m) {answer : Answer}
    {data : Json} (ha : answer ∈ m.answers) (hok : answer.reply = .ok data) :
    answer ∈ n.answers ∨ ∃ a b r, Doing o n a b m ∧ a.round = some r ∧
      a.decision r = some true ∧ Carried r a b := by
  induction h with
  | refl => exact .inl ha
  | @tail a b hab hd ih =>
    rcases hd.success ha hok with ha | ⟨r, hr, hdecided, hc, _⟩
    · refine (ih ha).imp_right ?_
      rintro ⟨x, y, r, hxy, hrest⟩
      exact ⟨x, y, r, ⟨hxy.first, hxy.deed, hxy.rest.tail hd⟩, hrest⟩
    · exact .inr ⟨a, b, r, ⟨hab, hd, .refl⟩, hr, hdecided, hc⟩

/-- A client is told of a success in the turn in which its round is decided. -/
theorem Turn.completes_of_success {t : Turn} (hs : t.before.Settled) {number : Nat} {data : Json}
    (h : ⟨number, .ok data⟩ ∈ t.answersNow) : ∃ l n rd, t.Completes l n rd := by
  rcases t.acts_or_idles hs with ⟨l, s, n, hact⟩ | hidle
  · rw [Turn.answersNow, hact.answers hs, List.drop_left] at h
    rcases Node.Deeds.completes (s.deeds_react _) h rfl with hold | ⟨a, b, rd, hdone⟩
    · have hnone : (n.setClock t.before.clock).answers = [] := (hs.quiet hact.node).2
      have hold := Stimulus.intake_answers hold rfl
      rw [hnone] at hold
      cases hold
    · exact ⟨l, n, rd, s, a, b, hact, hdone⟩
  · rw [Turn.answersNow, hidle.answers, List.drop_length] at h
    cases h

/-! ## Answers are to requests -/

section

variable {size : Nat} {turns : List Turn} {w : World} {t : Turn} {l : MemberId} {n : Node}

/-- All answers that were sent are to requests that their senders took. -/
theorem Run.answers_sent (r : Run Action.AnyOrder size turns w) {v : MemberId} {digest : String}
    {round : Option Nat} (h : ⟨⟨v, l⟩, .roundAnswer digest round⟩ ∈ w.sent) :
    ∃ k, round = some k ∧ ∃ a ∈ turns, ∃ n method command,
      a.Acts v (.message l (.roundRequest method command (some k))) n := by
  refine r.invariant (P := fun turns w => ⟨⟨v, l⟩, .roundAnswer digest round⟩ ∈ w.sent →
    ∃ k, round = some k ∧ ∃ a ∈ turns, ∃ n method command,
      a.Acts v (.message l (.roundRequest method command (some k))) n) ?_ ?_ h
  · intro w hw h
    rw [hw.sent] at h
    cases h
  · intro turns t r ha ih h
    rw [t.sent_append r.settled] at h
    rcases List.mem_append.mp h with h | h
    · obtain ⟨k, hk, a, hmem, hacts⟩ := ih h
      exact ⟨k, hk, a, List.mem_append_left _ hmem, hacts⟩
    · obtain ⟨s, n, hact, _, d, hpeer, hmsg, hcause⟩ := Turn.sends r.settled h
      cases hcause with
      | deed hd hs =>
        rw [hmsg] at hs
        cases hs
      | @reply sender m m' hs hof hr =>
        cases hr with
        | vote _ _ hm' => cases hmsg.symm.trans hm'
        | batch _ _ _ hm' => cases hmsg.symm.trans hm'
        | @roundAnswer method command round' _ hp hm' =>
          cases hmsg.symm.trans hm'
          obtain rfl : sender = l := hp.symm.trans hpeer
          subst hs
          -- the request is of the kind that was read, with the same round
          have hkind := Message.kind_of_ofText hof
          cases m with
          | roundRequest =>
            obtain ⟨_, hread⟩ := Message.round_of_ofText hof
            cases hread
            obtain ⟨k, rfl, _⟩ := r.asks_sent (r.sent_of_delivery ha hact.delivery)
            exact ⟨k, rfl, t, by simp, n, _, _, hact⟩
          | _ => cases hkind

/-- The answers that a round has counted: at most one of each peer, each to a request of the
round. -/
def Turnout (turns : List Turn) (l : MemberId) (rd : Round) : Prop :=
  ∃ answers, Agreement.Records answers rd.tally ∧
    ∀ {v digest}, (v, digest) ∈ answers → Answered turns v l rd.number digest

theorem Turnout.mono {more : List Turn} {rd : Round} (h : Turnout turns l rd) :
    Turnout (turns ++ more) l rd := by
  obtain ⟨answers, hrecords, hanswered⟩ := h
  exact ⟨answers, hrecords, fun hmem => (hanswered hmem).mono⟩

theorem Turnout.record {rd : Round} (h : Turnout turns l rd) {v : MemberId} {digest : String}
    (ha : Answered turns v l rd.number digest) :
    Turnout turns l { rd with tally := rd.tally.record v digest } := by
  obtain ⟨answers, hrecords, hanswered⟩ := h
  rcases hrecords.record_or_same v digest with hmore | hsame
  · refine ⟨answers ++ [(v, digest)], hmore, ?_⟩
    intro u d hmem
    rcases List.mem_append.mp hmem with hold | hnew
    · exact hanswered hold
    · cases List.mem_singleton.mp hnew
      exact ha
  · exact ⟨answers, hsame, hanswered⟩

/-- What a node takes in adds at most the answer at hand. -/
theorem Turn.Acts.turnout {s : Stimulus} (hact : t.Acts l s n)
    (r : Run Action.AnyOrder size turns t.before) (ha : t.action.AnyOrder t.before)
    (h : ∀ {rd}, n.round = some rd → Turnout turns l rd) {rd : Round}
    (hr : (s.intake (n.setClock t.before.clock)).round = some rd) :
    Turnout (turns ++ [t]) l rd := by
  rcases s.intake_round (n.setClock t.before.clock) with he | ⟨v, m, digest, round, rd₀, rfl, hof,
    hr₀, hnum, he⟩
  · exact (h (he.symm.trans hr)).mono
  · cases he.symm.trans hr
    refine (h hr₀).mono.record ?_
    have hkind := Message.kind_of_ofText hof
    cases m with
    | roundAnswer =>
      cases Message.ofText_roundAnswer hof
      obtain ⟨k, rfl, a, hmem, hasked⟩ := r.answers_sent (r.sent_of_delivery ha hact.delivery)
      obtain rfl : k = rd₀.number := by simpa using hnum
      exact ⟨⟨a, List.mem_append_left _ hmem, hasked⟩, ⟨t, by simp, n, hact⟩⟩
    | _ => cases hkind

theorem Run.turnout (r : Run Action.AnyOrder size turns w) (hn : w.node? l = some n) {rd : Round}
    (hr : n.round = some rd) : Turnout turns l rd := by
  refine r.invariant (P := fun turns w => ∀ {n rd}, w.node? l = some n → n.round = some rd →
    Turnout turns l rd) ?_ ?_ hn hr
  · intro w hw n rd hn hr
    have r₀ : Run Action.AnyOrder size [] w := .start hw
    obtain ⟨_, _, hmem, _⟩ := r₀.opens hn hr
    cases hmem
  · intro turns t r ha ih m rd hm hr
    obtain ⟨n, hn, hstep⟩ := t.nodeStep r.settled hm
    cases hstep with
    | rewired hrw =>
      obtain ⟨directory, available, clock, _, rfl⟩ := hrw
      exact (ih hn hr).mono
    | @acted s hact =>
      rcases (Node.Deeds.progress (s.deeds_react (n.setClock t.before.clock))).round with
        hnone | hsame | ⟨rd', hr', _, hp⟩
      · exact absurd (hnone.symm.trans hr) (by simp)
      · exact hact.turnout r ha (ih hn) (hsame.symm.trans hr)
      · -- a new round has no answers
        obtain rfl := Option.some.inj (hr'.symm.trans hr)
        refine ⟨[], by rw [hp.unanswered]; exact Agreement.records_initial, ?_⟩
        intro v digest hmem
        cases hmem

/-- A round that is decided in its leader's favour was in flight, and its answers agree. -/
theorem Turn.Completes.turnout {rd : Round} (h : t.Completes l n rd) (hs : 1 < size)
    (r : Run Action.AnyOrder size turns t.before) (ha : t.action.AnyOrder t.before) :
    Turnout (turns ++ [t]) l rd ∧
      rd.tally.resolve n.directory.count rd.ownDigest = some true := by
  obtain ⟨s, a, b, hact, hdoing, hround, hdecided, _⟩ := h
  have hsame := (s.intake_same _).trans hdoing.first.same
  have hsize : a.topology.size ≠ 1 := by
    rw [hsame.topology]
    exact fun h => hs.ne' ((r.proper hact.node).size.symm.trans h)
  have hb := Node.backed_of_decision hsize hround hdecided
  have hagreed := hb.agreed
  rw [hsame.directory] at hagreed
  refine ⟨?_, hagreed⟩
  rcases hdoing.first.progress.round with hnone | hold | ⟨rd', hr', _, hp⟩
  · exact absurd (hnone.symm.trans hround) (by simp)
  · exact hact.turnout r ha (fun hr => r.turnout hact.node hr) (hold.symm.trans hround)
  · obtain rfl := Option.some.inj (hr'.symm.trans hround)
    exact absurd hb hp.not_backed

/-! ## Who has answered -/

/-- The nodes that answered in the round `rd` of `l` and those of them that agreed with it, where
`peers` peers are connected. -/
structure Support (turns : List Turn) (l : MemberId) (rd : Round) (peers : Nat)
    (answered agreeing : Finset MemberId) : Prop where
  answers : ∀ v ∈ answered, ∃ digest, Answered turns v l rd.number digest
  agrees : ∀ v ∈ agreeing, Answered turns v l rd.number rd.ownDigest
  part : agreeing ⊆ answered
  all : peers ≤ answered.card
  half : peers ≤ 2 * agreeing.card

theorem Turnout.support {rd : Round} (h : Turnout turns l rd) {peers : Nat}
    (hr : rd.tally.resolve peers rd.ownDigest = some true) :
    ∃ answered agreeing, Support turns l rd peers answered agreeing := by
  obtain ⟨answers, hrecords, hanswered⟩ := h
  obtain ⟨hall, hhalf, _⟩ := hrecords.resolve_true hr
  refine ⟨(answers.map (·.1)).toFinset, Agreement.camp answers rd.ownDigest, ?_⟩
  constructor
  · intro v hv
    obtain ⟨⟨v', digest⟩, hmem, rfl⟩ := List.mem_map.mp (List.mem_toFinset.mp hv)
    exact ⟨digest, hanswered hmem⟩
  · intro v hv
    exact hanswered (Agreement.mem_camp.mp hv)
  · intro v hv
    exact List.mem_toFinset.mpr (List.mem_map.mpr ⟨_, Agreement.mem_camp.mp hv, rfl⟩)
  · rw [List.toFinset_card_of_nodup hrecords.once, List.length_map, ← hrecords.votes]
    exact hall
  · rw [hrecords.card_camp]
    exact hhalf

/-- Where only connected peers have answered, all of them have. -/
theorem Support.eq_peers {rd : Round} {peers : List MemberId} {answered agreeing : Finset MemberId}
    (h : Support turns l rd peers.length answered agreeing) (hd : peers.Nodup)
    (hc : ∀ v ∈ answered, v ∈ peers) : answered = peers.toFinset := by
  refine Finset.eq_of_subset_of_card_le ?_ ?_
  · intro v hv
    exact List.mem_toFinset.mpr (hc v hv)
  · rw [List.toFinset_card_of_nodup hd]
    exact h.all

/-- Whenever the votes decide a round in the leader's favour, at least as many nodes have answered
in it as there are connected peers, and at least half as many agreed with the leader. If all nodes
that have answered in it are still connected, then every connected peer has answered, and at least
half of the connected peers agreed. -/
theorem success_needs_turnout (hs : 1 < size) (r : Run Action.AnyOrder size turns t.before)
    (ha : t.action.AnyOrder t.before) {rd : Round} (h : t.Completes l n rd) :
    (∃ answered agreeing, Support (turns ++ [t]) l rd n.directory.count answered agreeing) ∧
    ((∀ v digest, Answered (turns ++ [t]) v l rd.number digest → v ∈ n.directory.peers) →
      (∀ v ∈ n.directory.peers, ∃ digest, Answered (turns ++ [t]) v l rd.number digest) ∧
      ∃ agreeing : Finset MemberId, agreeing ⊆ n.directory.peers.toFinset ∧
        n.directory.count ≤ 2 * agreeing.card ∧
        ∀ v ∈ agreeing, Answered (turns ++ [t]) v l rd.number rd.ownDigest) := by
  obtain ⟨hturnout, hresolved⟩ := h.turnout hs r ha
  obtain ⟨answered, agreeing, hsupport⟩ := hturnout.support hresolved
  refine ⟨⟨answered, agreeing, hsupport⟩, ?_⟩
  intro hstay
  obtain ⟨_, _, _, hact, _⟩ := h
  have hcount : n.directory.count = n.directory.peers.length := (List.length_map _).symm
  have hall := (hcount ▸ hsupport).eq_peers (r.proper hact.node).sorted.nodup (by
    intro v hv
    obtain ⟨digest, hv⟩ := hsupport.answers v hv
    exact hstay v digest hv)
  refine ⟨?_, _, hall ▸ hsupport.part, hsupport.half, hsupport.agrees⟩
  intro v hv
  exact hsupport.answers v (by rw [hall]; exact List.mem_toFinset.mpr hv)

end

/-- A turn whose evaluation shows a success completes a round of the node that acts. -/
theorem Turn.completes_of_outcome {t : Turn} (hs : t.before.Settled) {l : MemberId}
    (hl : t.stimulus?.map (·.1) = some l)
    (hok : (t.outcome.answers.drop t.before.answers.length).any (·.reply.isOk) = true) :
    ∃ n rd, t.before.node? l = some n ∧ t.Completes l n rd := by
  rw [Turn.outcome_eq] at hok
  obtain ⟨⟨number, reply⟩, hmem, hok⟩ := List.any_eq_true.mp hok
  cases reply with
  | error e => cases hok
  | ok data =>
    obtain ⟨l', n, rd, hc⟩ := Turn.completes_of_success hs hmem
    obtain ⟨s, a, b, hact, hrest⟩ := hc
    have hl' : some l' = some l := by rw [← hl, hact.stimulus]; rfl
    obtain rfl := Option.some.inj hl'
    exact ⟨n, rd, hact.node, s, a, b, hact, hrest⟩

/-- The turn in which the first of two nodes gets the answer to its write. -/
def approval : Turn := ⟨pair.result propose, .deliver ⟨2, 1⟩⟩

theorem pair_success_needs_turnout : ∃ n rd, approval.Completes 1 n rd ∧
    (∀ v digest, Answered (pair.turns propose ++ [approval]) v 1 rd.number digest →
      v ∈ n.directory.peers) ∧
    2 ∈ n.directory.peers ∧
    ∃ digest, Answered (pair.turns propose ++ [approval]) 2 1 rd.number digest := by
  have hrun : Run Action.InOrder 2 (pair.turns propose) approval.before := by
    rw [approval, World.result_eq]
    exact (Run.start (World.boot_fresh ..)).play propose (by simp [propose, poll, Action.InOrder])
  have hfacts : approval.stimulus?.map (·.1) = some 1 ∧
      (approval.outcome.answers.drop approval.before.answers.length).any (·.reply.isOk) = true ∧
      (∃ n ∈ approval.before.node? 1, n.directory.peers = [2]) ∧
      ∀ x ∈ (((pair.trace propose).map (·.1)) ++ [approval]).filterMap Turn.delivery?,
        x.ends.target = 1 → x.ends.source = 2 := by
    decide +kernel
  rw [← World.turns_eq] at hfacts
  obtain ⟨hl, hok, ⟨n', hn', hpeers⟩, hfrom⟩ := hfacts
  obtain ⟨n, rd, hn, hc⟩ := Turn.completes_of_outcome hrun.settled hl hok
  obtain rfl := Option.some.inj (hn'.symm.trans hn)
  have hstay : ∀ v digest, Answered (pair.turns propose ++ [approval]) v 1 rd.number digest →
      v ∈ n'.directory.peers := by
    intro v digest h
    obtain ⟨t, ht, n, hact⟩ := h.heard
    have hv := hfrom _ (List.mem_filterMap.mpr ⟨t, ht, hact.delivery⟩) rfl
    rw [hpeers]
    exact List.mem_singleton.mpr hv
  have htwo : 2 ∈ n'.directory.peers := by rw [hpeers]; simp
  have hall := success_needs_turnout (by decide) hrun.anyOrder trivial hc
  exact ⟨n', rd, hc, hstay, htwo, (hall.2 hstay).1 2 htwo⟩

/-- The first node puts a write to the vote with two peers. The second one answers and leaves; the
third one has not even got the request. -/
def absence : List Action :=
  poll ++ [.deliver ⟨2, 1⟩, .openLink ⟨1, 3⟩, .openLink ⟨3, 1⟩,
    .submit 1 .post ⟨"CREATE TABLE t (v INT)", none⟩, .deliver ⟨1, 2⟩, .deliver ⟨1, 2⟩,
    .deliver ⟨2, 1⟩, .closeLink ⟨2, 1⟩, .closeLink ⟨1, 2⟩]

/-- The turn in which the first node learns that the second one has left. -/
def departure : Turn := ⟨trio.result absence, .disconnected 1 2⟩

/-- A write succeeds although a connected peer has not answered. -/
theorem success_without_answer_of_peer : ∃ n rd, departure.Completes 1 n rd ∧
    Run Action.InOrder 3 (trio.turns absence ++ [departure]) departure.after ∧
    3 ∈ n.directory.peers ∧
    ∀ digest, ¬ Answered (trio.turns absence ++ [departure]) 3 1 rd.number digest := by
  have hrun : Run Action.InOrder 3 (trio.turns absence) departure.before := by
    rw [departure, World.result_eq]
    exact (Run.start (World.boot_fresh ..)).play absence (by
      simp [absence, poll, Action.InOrder])
  have hfacts : departure.stimulus?.map (·.1) = some 1 ∧
      (departure.outcome.answers.drop departure.before.answers.length).any (·.reply.isOk) = true ∧
      (∃ n ∈ departure.before.node? 1, 3 ∈ n.directory.peers) ∧
      ∀ x ∈ (((trio.trace absence).map (·.1)) ++ [departure]).filterMap Turn.delivery?,
        x.ends.source ≠ 3 := by
    decide +kernel
  rw [← World.turns_eq] at hfacts
  obtain ⟨hl, hok, ⟨n', hn', hpeer⟩, hfrom⟩ := hfacts
  obtain ⟨n, rd, hn, hc⟩ := Turn.completes_of_outcome hrun.settled hl hok
  obtain rfl := Option.some.inj (hn'.symm.trans hn)
  have hallowed : departure.action.InOrder departure.before := show (2 : MemberId) ≠ 1 by decide
  refine ⟨n', rd, hc, hrun.next hallowed, hpeer, ?_⟩
  intro digest h
  obtain ⟨t, ht, n, hact⟩ := h.heard
  exact hfrom _ (List.mem_filterMap.mpr ⟨t, ht, hact.delivery⟩) rfl

end Accord
