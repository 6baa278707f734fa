import Accord.Proofs.Node.Deeds

/-! # Operations are answered in their order

What a node was asked and has not answered is the operation of the round in flight and the queue
behind it. Every deed answers operations from the front of this list only, and no handler ends while
the next round could begin; so the operations that a node was asked are at any time those that it
has answered, followed by those outstanding. -/
namespace Accord
namespace Node

variable {o : Occasion} {n m : Node}

/-- The operations that a node has not answered yet. -/
def outstanding (n : Node) : List Operation := (n.round.map (·.op)).toList ++ n.queue

theorem outstanding_of_none (h : n.round = none) : n.outstanding = n.queue := by
  rw [outstanding, h]
  rfl

theorem outstanding_of_some {r : Round} (h : n.round = some r) :
    n.outstanding = r.op :: n.queue := by
  rw [outstanding, h]
  rfl

theorem outstanding_eq_nil : n.outstanding = [] ↔ n.round = none ∧ n.queue = [] := by
  cases h : n.round <;> simp [outstanding, h]

/-! ## What is answered -/

/-- A node that answers some of its operations, the oldest ones first. -/
structure Serves (done : List Operation) (n m : Node) : Prop where
  outstanding : n.outstanding = done ++ m.outstanding
  answers : m.answers.map (·.op) = n.answers.map (·.op) ++ done.map (·.number)

theorem Serves.nothing (ho : m.outstanding = n.outstanding) (ha : m.answers = n.answers) :
    Serves [] n m := ⟨ho.symm, by rw [ha]; simp⟩

theorem Serves.first {op : Operation} {rest : List Operation} {reply : Reply}
    (hn : n.outstanding = op :: rest) (hr : m.round = none) (hq : m.queue = rest)
    (ha : m.answers = n.answers ++ [⟨op.number, reply⟩]) : Serves [op] n m :=
  ⟨by rw [hn, outstanding_of_none hr, hq]; rfl, by rw [ha]; simp⟩

theorem Serves.trans {done done' : List Operation} {l : Node} (h : Serves done n m)
    (h' : Serves done' m l) : Serves (done ++ done') n l :=
  ⟨by rw [h.outstanding, h'.outstanding, List.append_assoc],
    by rw [h'.answers, h.answers, List.map_append, List.append_assoc]⟩

theorem Deed.serves (h : Deed o n m) : ∃ done, Serves done n m := by
  cases h with
  | @begin _ op rest hq hr hl ho =>
    have hn : n.outstanding = op :: rest := (outstanding_of_none hr).trans hq
    cases ho with
    | cutOff => exact ⟨[op], .first hn hr rfl rfl⟩
    | read => exact ⟨[], .nothing (by rw [hn]; rfl) rfl⟩
    | unwritten => exact ⟨[op], .first hn hr rfl rfl⟩
    | write => exact ⟨[], .nothing (by rw [hn]; rfl) rfl⟩
  | succeed hr _ hc => cases hc <;> exact ⟨_, .first (outstanding_of_some hr) rfl rfl rfl⟩
  | fail hr hd => cases hd <;> exact ⟨_, .first (outstanding_of_some hr) rfl rfl rfl⟩
  | dismiss e hr hq => exact ⟨_, .first ((outstanding_of_none hr).trans hq) hr rfl rfl⟩
  | _ => exact ⟨[], .nothing rfl rfl⟩

theorem Deeds.serves (h : Deeds o n m) : ∃ done, Serves done n m := by
  induction h with
  | refl => exact ⟨[], .nothing rfl rfl⟩
  | tail _ hd ih =>
    obtain ⟨done, h⟩ := ih
    obtain ⟨done', h'⟩ := hd.serves
    exact ⟨done ++ done', h.trans h'⟩

theorem Absorbed.serves {sender : MemberId} {msg : Message} (h : Absorbed sender n msg m) :
    Serves [] n m := by
  cases h with
  | count hr => exact .nothing (by rw [outstanding_of_some hr]; rfl) rfl
  | _ => exact .nothing rfl rfl

/-! ## Only leaders have operations -/

/-- A node that does not lead owes nobody an answer. -/
def Led (n : Node) : Prop := n.leads = false → n.outstanding = []

theorem Led.of_eq (h : n.Led) (hs : m.standing = n.standing)
    (ho : m.outstanding = n.outstanding) : m.Led := by
  intro hl
  rw [leads, hs] at hl
  exact ho.trans (h hl)

theorem Led.of_leader (h : n.Led) (hs : m.standing.self = n.standing.self)
    (hl : m.standing.leader = n.standing.leader) (ho : m.outstanding = n.outstanding) : m.Led := by
  intro hm
  refine ho.trans (h ?_)
  rw [← Bool.not_eq_true, leads_iff] at hm ⊢
  rwa [← hs, ← hl]

/-- A leader that has nothing left to answer may cease to lead, as long as nobody takes the node for
its own departed peer. -/
theorem Deed.led (h : Deed o n m) (ho : o ≠ .departure n.standing.self) (hn : n.Led) : m.Led := by
  cases h with
  | wait _ _ _ hs hl => exact hn.of_leader hs hl rfl
  | forget _ _ _ _ hf =>
    intro _
    refine hn (Bool.eq_false_iff.mpr fun hl => ho (hf.departure_of_leads hl))
  | follow _ _ _ _ _ hi =>
    intro _
    cases hl : n.leads with
    | false => exact hn hl
    | true => exact outstanding_eq_nil.mpr (hi hl)
  | win =>
    intro hl
    rw [leads_promote] at hl
    cases hl
  | reign =>
    intro hl
    rw [leads_promote] at hl
    cases hl
  | begin _ _ hl ho =>
    intro hm
    cases ho <;> exact absurd hl (Bool.eq_false_iff.mp hm)
  | succeed hr _ hc =>
    intro hm
    have hnone := hn (by cases hc <;> exact hm)
    rw [outstanding_of_some hr] at hnone
    cases hnone
  | fail hr hd =>
    intro hm
    have hnone := hn (by cases hd <;> exact hm)
    rw [outstanding_of_some hr] at hnone
    cases hnone
  | dismiss _ hr hq =>
    intro hl
    have hnone := hn hl
    rw [outstanding_of_none hr, hq] at hnone
    cases hnone
  | _ => exact hn.of_eq rfl rfl

theorem Deeds.led (h : Deeds o n m) (ho : o ≠ .departure n.standing.self) (hn : n.Led) :
    m.Led := by
  induction h with
  | refl => exact hn
  | tail ha hd ih => exact hd.led ((Deeds.same ha).self ▸ ho) ih

theorem Absorbed.led {sender : MemberId} {msg : Message} (h : Absorbed sender n msg m)
    (hn : n.Led) : m.Led :=
  hn.of_eq h.same.2 h.serves.outstanding.symm

/-! ## Rounds follow each other -/

/-- Operations wait only for a round in flight. -/
def Busy (n : Node) : Prop := n.round = none → n.queue = []

/-- A handler that does not concern operations. -/
structure Spares (n m : Node) : Prop where
  round : m.round = n.round
  queue : m.queue = n.queue

theorem Spares.refl (n : Node) : Spares n n := ⟨rfl, rfl⟩

theorem spares_standing (n : Node) (standing : Standing) : Spares n { n with standing } :=
  ⟨rfl, rfl⟩

theorem Spares.trans {l : Node} (h : Spares n m) (h' : Spares m l) : Spares n l :=
  ⟨h'.round.trans h.round, h'.queue.trans h.queue⟩

theorem Spares.busy (h : Spares n m) (hn : n.Busy) : m.Busy := by
  intro hr
  rw [h.queue]
  exact hn (h.round ▸ hr)

theorem Opened.standing {op : Operation} (h : Opened op n m) : m.standing = n.standing := by
  cases h <;> rfl

theorem decideRound_standing (n : Node) : n.decideRound.standing = n.standing := by
  unfold decideRound
  split
  · rename_i h
    obtain ⟨r, hr, _⟩ := Option.bind_eq_some_iff.mp h
    have hc := carried hr
    generalize n.endRound none = m at hc
    cases hc <;> rfl
  · rename_i h
    obtain ⟨r, hr, _⟩ := Option.bind_eq_some_iff.mp h
    have hd := dropped hr .outvoted
    generalize n.endRound (some .outvoted) = m at hd
    cases hd <;> rfl
  · rfl

theorem busy_drainQueue (ops : List Operation) (hl : n.leads = true) : (drainQueue ops n).Busy := by
  induction ops generalizing n with
  | nil => exact fun _ => rfl
  | cons op rest ih =>
    rw [drainQueue]
    split
    · refine ih ?_
      rw [leads, decideRound_standing, (opened op n).standing]
      exact hl
    · rename_i h
      intro hr
      exact absurd (by rw [hl, show n.round = none from hr]; rfl) h

theorem busy_proceed (h : n.Led) : n.proceed.Busy := by
  cases hl : n.leads with
  | true => exact busy_drainQueue _ hl
  | false =>
    rw [proceed, (outstanding_eq_nil.mp (h hl)).2]
    exact fun _ => rfl

theorem busy_decideRound_proceed (h : n.Led) : n.decideRound.proceed.Busy :=
  busy_proceed (Deeds.led (o := .other) (deeds_decideRound n) (by rintro ⟨⟩) h)

/-! ## Handlers -/

theorem spares_search (n : Node) : Spares n n.search := by
  unfold search
  obtain ⟨pick, dice⟩ := n.dice.roll
  exact ⟨rfl, rfl⟩

theorem spares_loseLeader (n : Node) : Spares n n.loseLeader := by
  unfold loseLeader seek
  obtain ⟨pick, dice⟩ := n.dice.roll
  exact ⟨rfl, rfl⟩

theorem spares_stand (n : Node) : Spares n n.stand := by
  have ha : Spares n n.askForVotes := by
    unfold askForVotes
    split <;> split <;> exact ⟨rfl, rfl⟩
  simp only [stand]
  split
  · exact ha.trans (spares_search _)
  · exact ha

theorem spares_decideElection (n : Node) : Spares n n.decideElection := by
  simp only [decideElection]
  split
  · exact .refl n
  · split <;> exact ⟨rfl, rfl⟩

theorem spares_catchUp (leader : MemberId) (logId : Int) (n : Node) :
    Spares n (n.catchUp leader logId) := by
  unfold catchUp
  split
  · exact .refl n
  · simp only
    split
    · exact .refl n
    · split <;> exact ⟨rfl, rfl⟩

theorem busy_turnTo (leader : MemberId) (h : n.Busy) : (n.turnTo leader).Busy := by
  simp only [turnTo]
  split
  · exact fun _ => (failAll_idle _ n).2
  · exact h

theorem busy_onHeartbeat (leader : MemberId) (logId : Int) (h : n.Busy) :
    (n.onHeartbeat leader logId).Busy := by
  unfold onHeartbeat
  split
  · exact (spares_catchUp leader logId _).busy h
  · split
    · exact (spares_catchUp leader logId _).busy h
    · split
      · split
        · exact (spares_catchUp leader logId _).busy (busy_turnTo leader h)
        · exact h
      · exact h

theorem Absorbed.busy {sender : MemberId} {msg : Message} (h : Absorbed sender n msg m)
    (hn : n.Busy) : m.Busy := by
  cases h with
  | count => intro hr; cases hr
  | _ => exact hn

theorem busy_onMessage (sender : MemberId) (msg : Message) (hl : n.Led) (hn : n.Busy) :
    (n.onMessage sender msg).Busy := by
  have hmild (h : n.onMessage sender msg = n.absorb sender msg) : (n.onMessage sender msg).Busy :=
    h ▸ (absorbed sender msg n).busy hn
  cases msg with
  | vote voter accept round =>
    simp only [onMessage, onVote]
    split
    · exact (spares_decideElection _).busy hn
    · exact hn
  | roundAnswer digest round =>
    simp only [onMessage, onRoundAnswer]
    split
    · exact hn
    · rename_i r hr
      split
      · exact hn
      · exact busy_decideRound_proceed (hl.of_eq rfl (by rw [outstanding_of_some hr]; rfl))
  | announcement leader =>
    simp only [onMessage, onAnnouncement]
    split
    · exact hn
    · exact busy_turnTo leader hn
  | heartbeat leader logId => exact busy_onHeartbeat leader logId hn
  | _ => exact hmild rfl

theorem busy_onDisconnected {peer : MemberId} (hp : peer ≠ n.standing.self) (h : n.Led) :
    (n.onDisconnected peer).Busy := by
  have hd {m : Node} (hm : m.Led) (hs : m.standing.self = n.standing.self) :
      m.decideElection.decideRound.proceed.Busy := by
    refine busy_decideRound_proceed (Deeds.led (deeds_decideElection (o := .departure peer) rfl m)
      ?_ hm)
    rw [hs]
    exact fun he => hp (Occasion.departure.inj he)
  simp only [onDisconnected]
  split
  · rename_i hlead
    have hdeed : Deed (.departure peer) n n.loseLeader := deed_loseLeader (.departed rfl hlead)
    exact hd (hdeed.led (fun he => hp (Occasion.departure.inj he)) h) hdeed.same.self
  · exact hd h rfl

theorem busy_tickAt (now : Moment) (hl : n.Led) (hn : n.Busy) : (n.tickAt now).Busy := by
  have hheartbeat : Spares n (n.tickHeartbeat now) := by
    simp only [tickHeartbeat]
    split
    · split <;> exact ⟨rfl, rfl⟩
    · exact .refl n
  have helection (m : Node) : Spares m (m.tickElection now) := by
    simp only [tickElection]
    split
    · split
      · exact (spares_standing m _).trans (spares_stand _)
      · exact ⟨rfl, rfl⟩
    · exact .refl m
  have hvote (m : Node) : Spares m (m.tickVote now) := by
    simp only [tickVote]
    split
    · split
      · exact ⟨rfl, rfl⟩
      · exact (spares_standing m _).trans (spares_loseLeader _)
      · exact (spares_standing m _).trans (spares_stand _)
    · exact .refl m
  have hround {m : Node} (hm : m.Led) (hb : m.Busy) : (m.tickRound now).Busy := by
    unfold tickRound
    split
    · exact busy_proceed (Deeds.led (o := .other) (deeds_endRound m _) (by rintro ⟨⟩) hm)
    · exact hb
  have hcatch (m : Node) : Spares m (m.tickCatchUp now) := by
    unfold tickCatchUp
    split <;> exact ⟨rfl, rfl⟩
  have hstore := (tickElection_store now (n.tickHeartbeat now)).trans (tickHeartbeat_store now n)
  have hdeeds : Deeds (.timer n.store) n
      (((n.tickHeartbeat now).tickElection now).tickVote now) :=
    ((deeds_tickHeartbeat now n).trans
      (deeds_tickElection now (by rw [tickHeartbeat_store]))).trans
      (deeds_tickVote now (by rw [hstore]))
  have hspares := (hheartbeat.trans (helection _)).trans (hvote _)
  exact (hcatch _).busy (hround (hdeeds.led (by rintro ⟨⟩) hl) (hspares.busy hn))

end Node

/-! ## The life of a node -/

/-- The peers that come and go are other nodes. -/
def Event.Foreign (self : MemberId) : Event → Prop
  | .connected peer => peer ≠ self
  | .disconnected peer => peer ≠ self
  | _ => True

/-- What a client submits. -/
def Event.submitted : Event → List Operation
  | .client op => [op]
  | _ => []

/-- A node that has been started, what it was asked since and what was collected of its answers, both
in order. It does what is due at any moments, and its surroundings change at will. -/
inductive Node.Life : Node → List Operation → List Answer → Prop
  | start (topology : Topology) (timing : Timing) (clock : Clock) (dice : Dice) (store : Store) :
      Life (Node.new topology timing clock dice store).start [] []
  | handle {n : Node} {asked : List Operation} {told : List Answer} (event : Event)
      (h : Life n asked told) (he : event.Foreign n.id) :
      Life (n.handle event) (asked ++ event.submitted) told
  | tick {n : Node} {asked : List Operation} {told : List Answer} (now : Moment)
      (h : Life n asked told) : Life (n.tickAt now) asked told
  | rewire {n : Node} {asked : List Operation} {told : List Answer} (directory : Directory)
      (store : Store) (clock : Clock) (h : Life n asked told) :
      Life { n with directory, store, clock } asked told
  | collect {n : Node} {asked : List Operation} {told : List Answer} (h : Life n asked told) :
      Life n.collect.2 asked (told ++ n.collect.1.2)

namespace Node

/-- What holds of a node between two events. -/
structure Orderly (asked : List Operation) (told : List Answer) (n : Node) : Prop where
  self : n.standing.self = n.topology.self
  led : n.Led
  busy : n.Busy
  order : ∃ done, asked = done ++ n.outstanding ∧
    (told ++ n.answers).map (·.op) = done.map (·.number)

variable {n m : Node} {asked : List Operation} {told : List Answer}

/-- After it has taken in an event, a node goes on with deeds. -/
theorem Orderly.deeds {o : Occasion} (h : Orderly asked told n) (hd : Deeds o n m)
    (ho : o ≠ .departure n.standing.self) (hb : m.Busy) : Orderly asked told m where
  self := by rw [hd.same.self, hd.same.topology, h.self]
  led := hd.led ho h.led
  busy := hb
  order := by
    obtain ⟨done, hasked, htold⟩ := h.order
    obtain ⟨more, hmore⟩ := hd.serves
    refine ⟨done ++ more, by rw [hasked, hmore.outstanding, List.append_assoc], ?_⟩
    rw [List.map_append] at htold
    rw [List.map_append, hmore.answers, ← List.append_assoc, htold, List.map_append]

theorem Orderly.absorb (h : Orderly asked told n) (sender : MemberId) (msg : Message) :
    Orderly asked told (n.absorb sender msg) where
  self := by
    have hs := (absorbed sender msg n).same.1
    rw [hs.self, hs.topology, h.self]
  led := (absorbed sender msg n).led h.led
  busy := (absorbed sender msg n).busy h.busy
  order := by
    obtain ⟨done, hasked, htold⟩ := h.order
    have hs := (absorbed sender msg n).serves
    refine ⟨done, by rw [hasked, hs.outstanding, List.nil_append], ?_⟩
    rw [← htold, List.map_append, List.map_append, hs.answers, List.map_nil, List.append_nil]

theorem Orderly.submit (h : Orderly asked told n) (op : Operation) :
    Orderly (asked ++ [op]) told (n.submit op) := by
  obtain ⟨done, hasked, htold⟩ := h.order
  unfold Node.submit
  split
  · rename_i hl
    change Orderly _ _ (n.setQueue (n.queue ++ [op])).proceed
    have hled : (n.setQueue (n.queue ++ [op])).Led :=
      fun hf => absurd hl (Bool.eq_false_iff.mp hf)
    have hd : Deeds .other (n.setQueue (n.queue ++ [op])) _ := deeds_proceed _
    obtain ⟨more, hmore⟩ := hd.serves
    refine ⟨by rw [hd.same.self, hd.same.topology]; exact h.self, hd.led (by rintro ⟨⟩) hled,
      busy_proceed hled, done ++ more, ?_, ?_⟩
    · rw [List.append_assoc done, ← hmore.outstanding, hasked, outstanding, outstanding,
        List.append_assoc, List.append_assoc]
      rfl
    · rw [List.map_append] at htold
      rw [List.map_append, hmore.answers, ← List.append_assoc, List.map_append, ← htold]
      rfl
  · rename_i hl
    have hnone := h.led (Bool.eq_false_iff.mpr hl)
    refine ⟨h.self, h.led.of_eq rfl rfl, h.busy, done ++ [op], ?_, ?_⟩
    · rw [hnone, List.append_nil] at hasked
      rw [hasked]
      exact ((congrArg (done ++ [op] ++ ·) hnone).trans (List.append_nil _)).symm
    · rw [List.map_append] at htold
      rw [List.map_append, answer, List.map_append, ← List.append_assoc, htold, List.map_append]
      rfl

theorem Orderly.handle {event : Event} (h : Orderly asked told n) (he : event.Foreign n.id) :
    Orderly (asked ++ event.submitted) told (n.handle event) := by
  have hnone {m : Node} (hm : Orderly asked told m) : Orderly (asked ++ []) told m := by
    rwa [List.append_nil]
  have hother {peer : MemberId} (hp : peer ≠ n.id) : peer ≠ n.standing.self := by
    rwa [h.self]
  cases event with
  | frame sender text =>
    refine hnone ?_
    simp only [Node.handle, onFrame]
    split
    · rename_i msg _
      refine (h.absorb sender msg).deeds (deeds_onMessage sender msg n) ?_
        (busy_onMessage sender msg h.led h.busy)
      cases msg <;> rintro ⟨⟩
    · exact h
  | connected peer =>
    refine hnone (h.deeds (o := .other) (deeds_onConnected peer n) (by rintro ⟨⟩) ?_)
    simp only [Node.handle, onConnected]
    split <;> exact h.busy
  | disconnected peer =>
    exact hnone (h.deeds (deeds_onDisconnected peer n)
      (fun ho => hother he (Occasion.departure.inj ho)) (busy_onDisconnected (hother he) h.led))
  | client op => exact h.submit op
  | campaign =>
    exact hnone (h.deeds (deeds_stand rfl) (by rintro ⟨⟩) ((spares_stand n).busy h.busy))

theorem Life.orderly (h : Life n asked told) : Orderly asked told n := by
  induction h with
  | start topology timing clock dice store =>
    unfold Node.start seek
    obtain ⟨pick, dice⟩ := (Node.new topology timing clock dice store).dice.roll
    exact ⟨rfl, fun _ => rfl, fun _ => rfl, [], rfl, rfl⟩
  | handle event _ he ih => exact ih.handle he
  | @tick n _ _ now _ ih =>
    exact ih.deeds (deeds_tickAt now n) (by rintro ⟨⟩) (busy_tickAt now ih.led ih.busy)
  | rewire _ _ _ _ ih => exact ⟨ih.self, ih.led.of_eq rfl rfl, ih.busy, ih.order⟩
  | collect _ ih =>
    refine ⟨ih.self, ih.led.of_eq rfl rfl, ih.busy, ?_⟩
    obtain ⟨done, hasked, htold⟩ := ih.order
    exact ⟨done, hasked, by simpa [Node.collect] using htold⟩

/-! ## The end of a node -/

theorem foldl_answer_answers (ops : List Operation) (e : ReplyError) (n : Node) :
    (ops.foldl (fun n op => n.answer op (.error e)) n).answers =
      n.answers ++ ops.map fun op => ⟨op.number, .error e⟩ := by
  induction ops generalizing n with
  | nil => simp
  | cons op rest ih => rw [List.foldl_cons, ih, answer]; simp

theorem shutdown_answers (n : Node) :
    n.shutdown.answers = n.answers ++ n.outstanding.map fun op => ⟨op.number, .error .shutdown⟩ :=
  foldl_answer_answers n.outstanding .shutdown _

theorem outstanding_shutdown (n : Node) : n.shutdown.outstanding = [] := by
  obtain ⟨hr, hq⟩ := foldl_answer_frame n.outstanding .shutdown
    { n with standing := n.standing.stop, round := none, queue := [] }
  exact outstanding_eq_nil.mpr ⟨hr, hq⟩

/-- No operation is lost, answered twice or answered out of turn: what a node was asked is what it
has answered, then the operation of its round, then its queue. Only a leader has a round, nothing
waits without one, and a node that is shut down has answered everything. -/
theorem operations_answered_in_order (h : Life n asked told) :
    (∃ done, asked = done ++ ((n.round.map (·.op)).toList ++ n.queue) ∧
      (told ++ n.answers).map (·.op) = done.map (·.number)) ∧
    (n.queue ≠ [] → n.round.isSome = true) ∧
    (n.round.isSome = true → n.role = .leader) ∧
    n.shutdown.round = none ∧ n.shutdown.queue = [] ∧
    (told ++ n.shutdown.answers).map (·.op) = asked.map (·.number) := by
  have ho := h.orderly
  obtain ⟨done, hasked, htold⟩ := ho.order
  obtain ⟨hr, hq⟩ := outstanding_eq_nil.mp (outstanding_shutdown n)
  refine ⟨ho.order, fun hqueue => ?_, fun hround => ?_, hr, hq, ?_⟩
  · rw [← Option.ne_none_iff_isSome]
    exact fun hnone => hqueue (ho.busy hnone)
  · rw [role_iff, ← leads_iff]
    by_contra hl
    have hnone := (outstanding_eq_nil.mp (ho.led (Bool.eq_false_iff.mpr hl))).1
    rw [hnone] at hround
    cases hround
  · rw [shutdown_answers, ← List.append_assoc, List.map_append, htold, hasked, List.map_append,
      List.map_map]
    rfl

/-- The first node of two, started and connected with the other one. -/
def ofTwo : Node :=
  { (Node.new ⟨1, 2, by decide, by decide⟩ .standard ⟨0, ⟨2024, 1, 1, 0, 0⟩⟩ (.loaded 1)
      .empty).start with
    directory := (Directory.empty.register 2).2
    store := .empty
    clock := ⟨0, ⟨2024, 1, 1, 0, 0⟩⟩ }

theorem life_ofTwo : Life ofTwo [] [] := .rewire _ _ _ (.start _ _ _ _ _)

/-- A node is elected, asked for two things at once, and told of another leader. -/
def deposition : List Event :=
  [.campaign, .frame 2 (Message.text (.vote 2 true (some 1))),
    .client ⟨0, .get, ⟨"SELECT * FROM t", none⟩⟩, .client ⟨1, .post, ⟨"CREATE TABLE t (v INT)", none⟩⟩,
    .frame 2 (Message.text (.announcement 2))]

/-- The node after some events. -/
def handleAll (events : List Event) (n : Node) : Node :=
  events.foldl (fun n event => n.handle event) n

theorem Life.handleAll (h : Life n asked told) (events : List Event)
    (he : ∀ event ∈ events, ∀ self, event.Foreign self) :
    Life (n.handleAll events) (asked ++ events.flatMap Event.submitted) told := by
  induction events generalizing n asked with
  | nil =>
    rw [List.flatMap_nil, List.append_nil]
    exact h
  | cons event rest ih =>
    have hnext := ih (h.handle event (he event (by simp) n.id)) fun e hm => he e (by simp [hm])
    rwa [List.append_assoc] at hnext

theorem deposed_leader_answers_in_order :
    Life (ofTwo.handleAll deposition) (deposition.flatMap Event.submitted) [] ∧
    (ofTwo.handleAll (deposition.take 4)).outstanding.map (·.number) = [0, 1] ∧
    (ofTwo.handleAll deposition).outstanding.length = 0 ∧
    (ofTwo.handleAll deposition).answers.map (·.op) =
      (deposition.flatMap Event.submitted).map (·.number) := by
  have h := life_ofTwo.handleAll deposition (by simp [deposition, Event.Foreign])
  have hnone : (ofTwo.handleAll deposition).outstanding.length = 0 := by decide +kernel
  obtain ⟨⟨done, hasked, hdone⟩, _⟩ := operations_answered_in_order h
  rw [List.nil_append] at h hasked hdone
  refine ⟨h, by decide +kernel, hnone, ?_⟩
  rw [hdone, hasked, ← outstanding, List.length_eq_zero_iff.mp hnone, List.append_nil]

end Node
end Accord
