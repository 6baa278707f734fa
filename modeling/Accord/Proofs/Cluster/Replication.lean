import Accord.Proofs.Cluster.Books
import Accord.Proofs.Cluster.Followers

/-! # Followers through a run

Between the leader and each of its followers stands the ledger that the follower has been told of:
the messages on the link lead from it to the leader's own. What the follower has executed is a part
of what this ledger has settled, as long as the leader hands out no entry that is put to the vote
and no follower misses that the entry which it appended for a vote is taken out again. -/
namespace Accord

namespace Ledger

variable {g g' g'' : Ledger} {q q' : List Message}

theorem Flow.settled_prefix (h : Flow g q g') : g.settled <+: g'.settled :=
  (h.spares (k := none) (by rintro _ ⟨⟩)).settled

/-- A flow in which the requests for votes are dated by what was settled then. -/
inductive Dated (asked : Message → Nat → Prop) : Ledger → List Message → Ledger → Prop
  | nil {g : Ledger} : Dated asked g [] g
  | cons {g g' g'' : Ledger} {m : Message} {q : List Message} (h : Step g m g')
      (ha : m.kind = .roundRequest → asked m g.settled.length) (hq : Dated asked g' q g'') :
      Dated asked g (m :: q) g''

variable {asked asked' : Message → Nat → Prop}

theorem Dated.flow (h : Dated asked g q g') : Flow g q g' := by
  induction h with
  | nil => exact .nil
  | cons hs _ _ ih => exact .cons hs ih

theorem Dated.append (h : Dated asked g q g') (h' : Dated asked g' q' g'') :
    Dated asked g (q ++ q') g'' := by
  induction h with
  | nil => exact h'
  | cons hs ha _ ih => exact .cons hs ha (ih h')

theorem Dated.mono (h : Dated asked g q g') (hm : ∀ m k, asked m k → asked' m k) :
    Dated asked' g q g' := by
  induction h with
  | nil => exact .nil
  | cons hs ha _ ih => exact .cons hs (fun hk => hm _ _ (ha hk)) ih

theorem Flow.dated (h : Flow g q g') (ha : ∀ m ∈ q, ∀ k ≤ g'.settled.length, asked m k) :
    Dated asked g q g' := by
  induction h with
  | nil => exact .nil
  | @cons g _ _ m q hs hq ih =>
    refine .cons hs ?_ (ih fun m' hm' => ha m' (.tail _ hm'))
    intro _
    exact ha m (.head _) _ (Flow.settled_prefix (.cons hs hq)).length_le

end Ledger

/-! ## What is executed -/

namespace Turn

/-- The entries that a message makes `v` execute. -/
def obeyed (v : MemberId) (t : Turn) : List Entry :=
  match t.before.node? v, t.delivery? with
  | some n, some x => if x.ends.target = v then n.executes x.message else []
  | _, _ => []

/-- The entries that the leader settles and executes. -/
def settled (leader : MemberId) (t : Turn) : List Entry :=
  match t.before.node? leader, t.after.node? leader with
  | some n, some m => m.ledger.settled.drop n.ledger.settled.length
  | _, _ => []

/-- The entries that `v` executes. -/
def executed (leader v : MemberId) (t : Turn) : List Entry :=
  if v = leader then t.settled leader else t.obeyed v

variable {t : Turn} {v : MemberId} {n : Node}

theorem obeyed_of_acts {sender : MemberId} {m : Message} (h : t.Acts v (.message sender m) n) :
    t.obeyed v = n.executes m := by
  rw [obeyed, h.node, h.delivery]
  exact if_pos rfl

theorem obeyed_nil (hno : ∀ sender m, ¬ t.Acts v (.message sender m) n)
    (hn : t.before.node? v = some n) : t.obeyed v = [] := by
  rw [obeyed, hn]
  split
  · rename_i n' x hx hd
    split
    · rename_i he
      refine (hno x.ends.source x.message ⟨?_, hn⟩).elim
      obtain ⟨⟨source, target⟩, m⟩ := x
      subst he
      obtain ⟨w, a⟩ := t
      cases a with
      | deliver ends => rw [stimulus?, hd]; rfl
      | stray x => cases hd; rfl
      | _ => cases hd
    · rfl
  · rfl

end Turn

/-- The entries that `v` has executed, in their order. -/
def executedBy (leader v : MemberId) (turns : List Turn) : List Entry :=
  turns.flatMap (Turn.executed leader v)

theorem executedBy_concat (leader v : MemberId) (turns : List Turn) (t : Turn) :
    executedBy leader v (turns ++ [t]) = executedBy leader v turns ++ t.executed leader v := by
  simp [executedBy]

/-! ## Careful runs -/

namespace Turn

/-- In this turn `v` misses that the entry of an id is taken out of the leader's log. -/
def Misses (leader v : MemberId) (k : Nat) (t : Turn) : Prop :=
  ((t.action = .openLink ⟨leader, v⟩ ∨ t.action = .closeLink ⟨leader, v⟩) ∧
    .deleteEntry k ∈ t.before.pending ⟨leader, v⟩) ∨
  (t.before.link? ⟨leader, v⟩ = none ∧ ∃ L r reply, t.before.node? leader = some L ∧
    L.round = some r ∧ r.logId = some k ∧
    ⟨r.op.number, reply⟩ ∈ t.after.answers.drop t.before.answers.length ∧ reply.isOk = false)

/-- The leader hands out no entry that is put to the vote, and a node that has appended an entry for
a vote does not miss that it is taken out. -/
structure Careful (leader : MemberId) (t : Turn) : Prop where
  entries : ∀ sender follower k L,
    t.Acts leader (.message sender (.entriesRequest follower k)) L → L.round = none
  told : ∀ v n k, v ≠ leader → t.before.node? v = some n → n.provisional = some k →
    ¬ t.Misses leader v k

end Turn

/-- Nobody asks for entries, and who has appended an entry for a vote keeps its link. -/
def LinkedAlong (leader : MemberId) (trace : List (Turn × World)) : Prop :=
  ∀ x ∈ trace, (∀ y ∈ x.1.delivery?, y.message.kind ≠ .entriesRequest) ∧
    ∀ p ∈ x.1.before.nodes, p.1 ≠ leader → p.2.provisional ≠ none →
      x.1.stimulus?.isSome = true ∧ (x.1.before.link? ⟨leader, p.1⟩).isSome = true

instance (leader : MemberId) (trace : List (Turn × World)) : Decidable (LinkedAlong leader trace) :=
  inferInstanceAs (Decidable (∀ x ∈ trace, _ ∧ ∀ p ∈ x.1.before.nodes, _ → _ → _))

theorem LinkedAlong.careful {leader : MemberId} {w : World} {actions : List Action}
    (h : LinkedAlong leader (w.trace actions)) : ∀ t ∈ w.turns actions, t.Careful leader := by
  intro t ht
  obtain ⟨hentries, hlinks⟩ := h _ (World.mem_trace ht)
  refine ⟨fun sender follower k L h => absurd rfl (hentries _ h.delivery), ?_⟩
  intro v n k hne hn hk
  obtain ⟨hacts, hlink⟩ := hlinks (v, n) (Keyed.mem_of_get? hn) hne (by rw [hk]; rintro ⟨⟩)
  rintro (⟨hopen | hclose, _⟩ | ⟨hnone, _⟩)
  · rw [Turn.stimulus?, Turn.delivery?, hopen] at hacts
    cases hacts
  · rw [Turn.stimulus?, Turn.delivery?, hclose] at hacts
    cases hacts
  · rw [hnone] at hlink
    cases hlink

/-- The leader has sent `v` a message in a turn after which it had settled at least `k` entries. -/
def AskedAt (leader v : MemberId) (turns : List Turn) (m : Message) (k : Nat) : Prop :=
  ∃ s ∈ turns, ∃ L, ⟨⟨leader, v⟩, m⟩ ∈ s.sentNow ∧ s.after.node? leader = some L ∧
    k ≤ L.ledger.settled.length

theorem AskedAt.append {leader v : MemberId} {turns : List Turn} {m : Message} {k : Nat}
    (h : AskedAt leader v turns m k) (t : Turn) : AskedAt leader v (turns ++ [t]) m k := by
  obtain ⟨s, hs, rest⟩ := h
  exact ⟨s, List.mem_append_left _ hs, rest⟩

/-- Whenever `v` is asked for a vote, its log is as long as what the leader had settled when it sent
the request. -/
def Abreast (leader v : MemberId) (turns : List Turn) : Prop :=
  ∀ t ∈ turns, ∀ s ∈ turns, ∀ m n L, m.kind = .roundRequest →
    t.delivery? = some ⟨⟨leader, v⟩, m⟩ → t.before.node? v = some n →
    ⟨⟨leader, v⟩, m⟩ ∈ s.sentNow → s.after.node? leader = some L →
      L.ledger.settled.length ≤ n.store.log.length

theorem Abreast.left {leader v : MemberId} {turns : List Turn} {t : Turn}
    (h : Abreast leader v (turns ++ [t])) : Abreast leader v turns :=
  fun t' ht s hs => h t' (List.mem_append_left _ ht) s (List.mem_append_left _ hs)

/-- Whoever is asked for a vote has as many entries as the leader had settled at any request. -/
def AbreastAlong (leader : MemberId) (trace : List (Turn × World)) : Prop :=
  ∀ x ∈ trace, ∀ y ∈ x.1.delivery?, y.message.kind = .roundRequest →
    ∀ p ∈ x.1.before.nodes, p.1 = y.ends.target →
      ∀ z ∈ trace, ∀ q ∈ z.2.sent.drop z.1.before.sent.length, q.message.kind = .roundRequest →
        ∀ l ∈ z.2.nodes, l.1 = leader → l.2.ledger.settled.length ≤ p.2.store.log.length

instance (leader : MemberId) (trace : List (Turn × World)) :
    Decidable (AbreastAlong leader trace) :=
  inferInstanceAs (Decidable (∀ x ∈ trace, ∀ y ∈ x.1.delivery?, _ →
    ∀ p ∈ x.1.before.nodes, _ → ∀ z ∈ trace, ∀ q ∈ z.2.sent.drop _, _ → ∀ l ∈ z.2.nodes, _ → _ ≤ _))

theorem AbreastAlong.abreast {leader : MemberId} {w : World} {actions : List Action}
    (h : AbreastAlong leader (w.trace actions)) (v : MemberId) :
    Abreast leader v (w.turns actions) := by
  intro t ht s hs m n L hk hdelivery hn hsent hL
  exact h _ (World.mem_trace ht) _ hdelivery hk (v, n) (Keyed.mem_of_get? hn) rfl _
    (World.mem_trace hs) _ hsent hk (leader, L) (Keyed.mem_of_get? hL) rfl

/-! ## What the leader sends -/

namespace Stimulus

variable {s : Stimulus} {n : Node}

/-- The round in flight stays the same round while a node takes something in. -/
theorem round_of_intake {r : Round} (h : (s.intake n).round = some r) :
    ∃ r₀, n.round = some r₀ ∧ r₀.op = r.op ∧ r₀.logId = r.logId := by
  cases s with
  | client op =>
    simp only [intake] at h
    split at h <;> exact ⟨r, h, rfl, rfl⟩
  | message sender m =>
    simp only [intake] at h
    split at h
    · have habsorbed := Node.absorbed sender ‹Message› n
      generalize n.absorb sender _ = n' at habsorbed h
      cases habsorbed with
      | count hr =>
        cases h
        exact ⟨_, hr, rfl, rfl⟩
      | _ => exact ⟨r, h, rfl, rfl⟩
    · exact ⟨r, h, rfl, rfl⟩
  | _ => exact ⟨r, h, rfl, rfl⟩

/-- What a leader sends to a connected peer tells how its ledger changes. -/
theorem Harmless.flow (h : s.Harmless) (hop : ∀ op ∈ s.asked, op.method = .post) (hw : n.Writing)
    (hentries : ∀ sender m follower k, s = .message sender m →
      Message.ofText m.text = .ok (.entriesRequest follower k) → n.round = none)
    (hs : Keyed.Sorted n.directory.records) {v : MemberId} (hv : n.directory.reaches v = true)
    (hq : n.postedTo v = []) : n.ledger.Flow ((s.react n).postedTo v) (s.react n).ledger := by
  obtain ⟨hwriting, hledger⟩ := h.writing hop hw
  have hdirectory := (s.intake_same n).directory
  have hintake : n.ledger.Flow ((s.intake n).postedTo v) n.ledger := by
    rcases s.posts n v with hp | ⟨sender, m, m', d, rfl, hm, hr, _, hp⟩
    · rw [hp, hq]
      exact .nil
    · rw [hp, hq, List.nil_append]
      have hk : m'.kind.isWriting = false := Message.kind_of_ofText hm ▸ h sender m rfl
      cases hr with
      | vote _ _ hmsg =>
        rw [hmsg]
        exact .single (.other rfl)
      | batch _ he _ hmsg =>
        rw [hw.ready.entriesBeyond] at he
        cases he
        rw [hmsg, Node.ledger_of_none (hentries _ _ _ _ rfl hm)]
        exact .single (.batch _ _)
      | roundAnswer => cases hk
  obtain ⟨q, hposted, hflow⟩ := (s.deeds_react n).flow hwriting (hdirectory ▸ hs) (hdirectory ▸ hv)
  rw [hposted]
  exact hintake.append (hledger ▸ hflow)

end Stimulus

section

variable {size : Nat} {turns : List Turn} {w : World} {leader v : MemberId} {t : Turn}

/-- A leader that is careful tells a linked node how its ledger changes. -/
theorem Turn.Acts.flow {s : Stimulus} {L : Node} (h : t.Acts leader s L)
    (r : Run (Action.Writes leader) size turns t.before) (ha : t.action.Writes leader t.before)
    (hs : Sole leader turns) (hl : t.before.Legible) (hc : t.Careful leader) (hw : L.Writing)
    (hv : (t.before.node? v).isSome) (hlink : (t.before.link? ⟨leader, v⟩).isSome) :
    L.ledger.Flow ((s.react (L.setClock t.before.clock)).postedTo v)
      (s.react (L.setClock t.before.clock)).ledger := by
  have hany := r.ofWrites.inOrder.anyOrder
  have hharmless := h.harmless_leader r.ofWrites.inOrder ha.steady.inOrder hs
  refine hharmless.flow (n := L.setClock t.before.clock) (h.asked_post ha)
    ⟨hw.ready, hw.queue, hw.round⟩ ?_ (hany.proper h.node).sorted ?_ ?_
  · rintro sender m follower k rfl hm
    have hread := (h.read hany ha.steady.inOrder.anyOrder hl).2
    obtain rfl := Except.ok.inj (hread.symm.trans hm)
    exact hc.entries sender follower k L h
  · exact ((r.ofWrites.wired ⟨leader, v⟩).reaches h.node hv).trans hlink
  · rw [Node.postedTo, show (L.setClock t.before.clock).outbox = [] from
      (r.settled.quiet h.node).1]
    rfl

/-- A leader that is careful spares a node without a link the entry that it has appended. -/
theorem Turn.Acts.spares {s : Stimulus} {L n : Node} (h : t.Acts leader s L)
    (r : Run (Action.Writes leader) size turns t.before) (ha : t.action.Writes leader t.before)
    (hs : Sole leader turns) (hc : t.Careful leader) (hw : L.Writing) (hne : v ≠ leader)
    (hv : t.before.node? v = some n) (hlink : t.before.link? ⟨leader, v⟩ = none) :
    L.ledger.Spares n.provisional (s.react (L.setClock t.before.clock)).ledger := by
  have hharmless := h.harmless_leader r.ofWrites.inOrder ha.steady.inOrder hs
  obtain ⟨hwriting, hledger⟩ := hharmless.writing (h.asked_post ha)
    (show (L.setClock t.before.clock).Writing from ⟨hw.ready, hw.queue, hw.round⟩)
  rw [show L.ledger = (L.setClock t.before.clock).ledger from rfl, ← hledger]
  refine (s.deeds_react _).spares hwriting ?_
  intro r₁ replies reply hr₁ hid hanswers hmem
  obtain ⟨r₀, hr₀, hop, hlogId⟩ := Stimulus.round_of_intake hr₁
  obtain ⟨_, log, e, _, hsome, _⟩ := hwriting.round r₁ hr₁
  rw [← Bool.not_eq_false]
  intro hfail
  refine hc.told v n e.id hne hv (hid.symm.trans hsome) (.inr ⟨hlink, L, r₀, reply, h.node, hr₀,
    hlogId.trans hsome, ?_, hfail⟩)
  rw [h.answers r.settled, List.drop_left, hanswers, hop]
  exact List.mem_append_right _ hmem

/-! ## What stands between the leader and a follower -/

/-- The node `n`, known as `v`, has been told of the ledger `g`, and the messages to it lead from
there to the ledger of the leader `L`. In the beginning it was `n₀`; the entries that it had then
count as executed before. -/
structure Replica (leader v : MemberId) (turns : List Turn) (w : World) (n₀ L n : Node)
    (g : Ledger) : Prop where
  sound : g.Sound
  follows : Node.Follows g n (n₀.store.log ++ executedBy leader v turns)
  dated : g.Dated (AskedAt leader v turns) (w.pending ⟨leader, v⟩) L.ledger
  aligned : Abreast leader v turns → Node.Aligned g n
  tables : n.store.tables = (executedBy leader v turns).foldl Entry.replay n₀.store.tables

namespace Replica

variable {n₀ L L' n n' : Node} {g : Ledger}

theorem executedBy_idle (hne : v ≠ leader) (hidle : t.obeyed v = []) :
    executedBy leader v (turns ++ [t]) = executedBy leader v turns := by
  rw [executedBy_concat, Turn.executed, if_neg hne, hidle, List.append_nil]

/-- The leader goes on, and what it tells the node waits on the link. -/
theorem advance (h : Replica leader v turns t.before n₀ L n g) (hne : v ≠ leader)
    (hstore : n'.store = n.store) (hprovisional : n'.provisional = n.provisional)
    (hidle : t.obeyed v = []) {q : List Message}
    (hpending : t.after.pending ⟨leader, v⟩ = t.before.pending ⟨leader, v⟩ ++ q)
    (hflow : L.ledger.Flow q L'.ledger) (hL' : t.after.node? leader = some L')
    (hsent : ∀ m ∈ q, ⟨⟨leader, v⟩, m⟩ ∈ t.sentNow) :
    Replica leader v (turns ++ [t]) t.after n₀ L' n' g where
  sound := h.sound
  follows := by
    rw [executedBy_idle hne hidle]
    exact h.follows.of_eq hstore hprovisional
  dated := by
    rw [hpending]
    refine (h.dated.mono fun m k hk => hk.append t).append (hflow.dated ?_)
    intro m hm k hk
    exact ⟨t, by simp, L', hsent m hm, hL', hk⟩
  aligned habreast := by
    have haligned := h.aligned habreast.left
    rwa [Node.Aligned, hstore]
  tables := by
    rw [executedBy_idle hne hidle, hstore]
    exact h.tables

/-- The node misses messages, but none that takes out an entry which it has appended. -/
theorem skip (h : Replica leader v turns t.before n₀ L n g) (hne : v ≠ leader)
    (hstore : n'.store = n.store) (hprovisional : n'.provisional = n.provisional)
    (hidle : t.obeyed v = []) (hpending : t.after.pending ⟨leader, v⟩ = [])
    (hspares : g.Spares n.provisional L'.ledger) (hsound : L'.ledger.Sound) :
    Replica leader v (turns ++ [t]) t.after n₀ L' n' L'.ledger where
  sound := hsound
  follows := by
    rw [executedBy_idle hne hidle]
    exact (h.follows.spared hspares).of_eq hstore hprovisional
  dated := by
    rw [hpending]
    exact .nil
  aligned habreast := by
    have haligned := (h.aligned habreast.left).spared h.follows hspares
    rwa [Node.Aligned, hstore]
  tables := by
    rw [executedBy_idle hne hidle, hstore]
    exact h.tables

/-- The node reads a message of the leader. -/
theorem read (h : Replica leader v turns t.before n₀ L n g) (hne : v ≠ leader) {m : Message}
    (hact : t.Acts v (.message leader m) n)
    (hstore : n'.store = ((n.setClock t.before.clock).absorb leader m).store)
    (hprovisional : n'.provisional = ((n.setClock t.before.clock).absorb leader m).provisional)
    (hpending : t.before.pending ⟨leader, v⟩ = m :: t.after.pending ⟨leader, v⟩) :
    ∃ g', Replica leader v (turns ++ [t]) t.after n₀ L n' g' := by
  have hdated := h.dated
  rw [hpending] at hdated
  have hran : executedBy leader v (turns ++ [t]) = executedBy leader v turns ++ n.executes m := by
    rw [executedBy_concat, Turn.executed, if_neg hne, Turn.obeyed_of_acts hact]
  have hclock : Node.Follows g (n.setClock t.before.clock)
      (n₀.store.log ++ executedBy leader v turns) := h.follows.of_eq rfl rfl
  cases hdated with
  | @cons _ g' _ _ _ hstep hasked hrest =>
    refine ⟨g', hstep.sound h.sound, ?_, hrest.mono fun m k hk => hk.append t, ?_, ?_⟩
    · rw [hran, ← List.append_assoc]
      exact (hclock.read h.sound hstep leader).of_eq hstore hprovisional
    · intro habreast
      have haligned : Node.Aligned g (n.setClock t.before.clock) := h.aligned habreast.left
      rw [Node.Aligned, hstore]
      refine haligned.read hclock h.sound hstep leader ?_
      intro hk
      obtain ⟨s, hs, M, hsent, hM, hle⟩ := hasked hk
      exact hle.trans (habreast t (by simp) s (List.mem_append_left _ hs) m n M hk hact.delivery
        hact.node hsent hM)
    · rw [hran, hstore, Node.tables_absorb hclock.ready h.sound hstep leader, List.foldl_append,
        ← h.tables]
      rfl

end Replica

/-! ## Turns and runs -/

/-- Only one node acts in a turn. -/
theorem Turn.Acts.unique {id id' : MemberId} {s s' : Stimulus} {n n' : Node} (h : t.Acts id s n)
    (h' : t.Acts id' s' n') : id = id' ∧ s = s' := by
  cases h.stimulus.symm.trans h'.stimulus
  exact ⟨rfl, rfl⟩

/-- Nothing is taken off the links to a node while another one acts. -/
theorem Turn.Acts.onset_pending {id : MemberId} {s : Stimulus} {n m : Node} (h : t.Acts id s n)
    (hv : t.before.node? v = some m) (hne : v ≠ id) (sender : MemberId) :
    t.onset.pending ⟨sender, v⟩ = t.before.pending ⟨sender, v⟩ := by
  have hnone := Turn.taken_of_not_acts hv (fun s' h' => hne (h'.unique h).1) sender
  have hall := t.taken_append_onset ⟨sender, v⟩
  rwa [hnone, List.nil_append] at hall

theorem Node.mem_posted_of_postedTo {n : Node} {m : Message} (h : m ∈ n.postedTo v)
    (id : MemberId) : ⟨⟨id, v⟩, m⟩ ∈ n.posted id := by
  obtain ⟨d, hd, rfl⟩ := List.mem_map.mp h
  obtain ⟨hd, hpeer⟩ := List.mem_filter.mp hd
  exact Node.mem_posted.mpr ⟨rfl, d, hd, of_decide_eq_true hpeer, rfl⟩

section

variable {n₀ L L' n n' : Node}

/-- A turn of the leader. -/
theorem Turn.Acts.replica_leader {s : Stimulus} {g : Ledger} (hact : t.Acts leader s L)
    (r : Run (Action.Writes leader) size turns t.before) (ha : t.action.Writes leader t.before)
    (hs : Sole leader turns) (hl : t.before.Legible) (hc : t.Careful leader)
    (hbooks : Books leader turns t.before L) (hne : v ≠ leader) (hn : t.before.node? v = some n)
    (h : Replica leader v turns t.before n₀ L n g) :
    ∃ g', Replica leader v (turns ++ [t]) t.after n₀
      (s.react (L.setClock t.before.clock)).emptied n g' := by
  have hreal : (t.before.node? v).isSome := by rw [hn]; rfl
  have honset := hact.onset_pending hn hne leader
  have hidle : t.obeyed v = [] :=
    Turn.obeyed_nil (fun sender m h' => hne (h'.unique hact).1) hn
  cases hlink : t.before.link? ⟨leader, v⟩ with
  | some link =>
    have hsome : (t.before.link? ⟨leader, v⟩).isSome := by rw [hlink]; rfl
    refine ⟨g, h.advance hne rfl rfl hidle ?_
      (hact.flow r ha hs hl hc hbooks.writing hreal hsome) (hact.self r.settled) ?_⟩
    · rw [hact.pending_linked r.settled hreal hsome, honset]
    · intro m hm
      rw [hact.sentNow r.settled]
      exact Node.mem_posted_of_postedTo hm leader
  | none =>
    -- nothing waits without a link, so the node has been told all
    have hpending : t.before.pending ⟨leader, v⟩ = [] := by
      rw [World.pending, hlink]
      rfl
    have hdated := h.dated
    rw [hpending] at hdated
    cases hdated
    have hwriting := (hact.booked r ha hs hbooks.writing hbooks.led).1
    refine ⟨_, h.skip hne rfl rfl hidle ?_ (hact.spares r ha hs hc hbooks.writing hne hn hlink)
      hwriting.sound⟩
    have hunlinked : (t.onset.link? ⟨leader, v⟩).isSome = false := by
      have hsame := congrArg Option.isSome (t.onset_connection ⟨leader, v⟩)
      rwa [Option.isSome_map, Option.isSome_map, hlink] at hsame
    rw [hact.pending r.settled, honset, hpending, if_neg (by simp [hunlinked])]
    rfl

/-- A turn of the follower. -/
theorem Turn.Acts.replica_follower {s : Stimulus} {g : Ledger} (hact : t.Acts v s n)
    (r : Run (Action.Writes leader) size turns t.before) (ha : t.action.Writes leader t.before)
    (hs : Sole leader (turns ++ [t])) (hl : t.before.Legible) (hne : v ≠ leader)
    (hL : t.before.node? leader = some L) (h : Replica leader v turns t.before n₀ L n g) :
    ∃ g', Replica leader v (turns ++ [t]) t.after n₀ L
      (s.react (n.setClock t.before.clock)).emptied g' := by
  have hin := r.ofWrites.inOrder
  have hobeys := hact.obeys hin ha.steady.inOrder hs hne (hin.meek hs.left hne hact.node)
  have honset : t.after.pending ⟨leader, v⟩ = t.onset.pending ⟨leader, v⟩ := by
    rw [hact.pending r.settled, if_neg fun h => hne h.1.symm, List.append_nil]
  by_cases hm : ∃ m, s = .message leader m
  · obtain ⟨m, rfl⟩ := hm
    have hread := (hact.read hin.anyOrder ha.steady.inOrder.anyOrder hl).2
    have hintake : (Stimulus.message leader m).intake (n.setClock t.before.clock) =
        (n.setClock t.before.clock).absorb leader m := by
      simp only [Stimulus.intake, hread]
    rw [hintake] at hobeys
    refine h.read hne hact ((Node.emptied_store _).trans hobeys.store)
      ((Node.emptied_provisional _).trans hobeys.provisional) ?_
    rw [honset, ← t.taken_append_onset,
      Turn.taken_of_delivery ha.steady.inOrder hact.delivery]
    rfl
  · have hharmless := hact.harmless hin ha.steady.inOrder hs.left fun m he => hm ⟨m, he⟩
    obtain ⟨hstore, hprovisional⟩ := hharmless.keeps (n.setClock t.before.clock)
    have htaken : t.taken ⟨leader, v⟩ = [] := by
      refine List.eq_nil_iff_forall_not_mem.mpr ?_
      intro m hmem
      exact hm ⟨m, (hact.unique (Turn.acts_of_taken hact.node hmem)).2⟩
    have hidle : t.obeyed v = [] := by
      by_cases hmessage : ∃ sender m, s = .message sender m
      · obtain ⟨sender, m, rfl⟩ := hmessage
        rw [Turn.obeyed_of_acts hact, Node.executes_other (hharmless sender m rfl)]
      · exact Turn.obeyed_nil (fun sender m h' => hmessage ⟨sender, m, (hact.unique h').2⟩)
          hact.node
    refine ⟨g, h.advance hne ((Node.emptied_store _).trans (hobeys.store.trans hstore))
      ((Node.emptied_provisional _).trans (hobeys.provisional.trans hprovisional)) hidle ?_ .nil ?_
      (List.forall_mem_nil _)⟩
    · rw [honset, List.append_nil, ← t.taken_append_onset ⟨leader, v⟩, htaken, List.nil_append]
    · rw [hact.other r.settled hne.symm]
      exact hL

/-- A turn of a third node. -/
theorem Turn.Acts.replica_other {id : MemberId} {s : Stimulus} {m : Node} {g : Ledger}
    (hact : t.Acts id s m) (hw : t.before.Settled) (hid : id ≠ leader) (hv : v ≠ id)
    (hne : v ≠ leader) (hL : t.before.node? leader = some L) (hn : t.before.node? v = some n)
    (h : Replica leader v turns t.before n₀ L n g) :
    Replica leader v (turns ++ [t]) t.after n₀ L n g := by
  have hidle : t.obeyed v = [] := Turn.obeyed_nil (fun sender m h' => hv (h'.unique hact).1) hn
  refine h.advance hne rfl rfl hidle ?_ .nil ?_ (List.forall_mem_nil _)
  · rw [hact.pending hw, if_neg fun h => hid h.1.symm, List.append_nil, List.append_nil,
      hact.onset_pending hn hv]
  · rw [hact.other hw hid.symm, hL]

/-- A turn in which no node acts. -/
theorem Turn.Rests.replica {g : Ledger} (hrest : t.Rests) (hno : ∀ id s n, ¬ t.Acts id s n)
    (hc : t.Careful leader) (hbooks : Books leader turns t.before L) (hne : v ≠ leader)
    (hL : t.before.node? leader = some L) (hn : t.before.node? v = some n)
    (h : Replica leader v turns t.before n₀ L n g) (hL' : t.after.node? leader = some L')
    (hn' : t.after.node? v = some n') :
    ∃ g', Replica leader v (turns ++ [t]) t.after n₀ L' n' g' := by
  obtain ⟨L₁, directory, hL₁, rfl⟩ := hrest.node hL'
  obtain rfl := Option.some.inj (hL₁.symm.trans hL)
  obtain ⟨n₁, directory', hn₁, rfl⟩ := hrest.node hn'
  obtain rfl := Option.some.inj (hn₁.symm.trans hn)
  have hidle : t.obeyed v = [] := Turn.obeyed_nil (fun sender m => hno v _ _) hn
  have hreal : (t.before.node? (Ends.mk leader v).target).isSome := by rw [hn]; rfl
  rcases hrest.pending hreal with hp | ⟨hp, hlost⟩
  · refine ⟨g, h.advance hne rfl rfl hidle ?_ .nil hL' (List.forall_mem_nil _)⟩
    rw [hp, List.append_nil]
  · refine ⟨_, h.skip hne rfl rfl hidle hp ?_ (Node.Writing.sound ⟨hbooks.writing.ready,
      hbooks.writing.queue, hbooks.writing.round⟩)⟩
    refine h.dated.flow.spares ?_
    intro id hid hmem
    exact hc.told v _ id hne hn hid (.inl ⟨hlost, hmem⟩)

/-- In the beginning every node has been told all. -/
theorem World.Fresh.replica (hw : w.Fresh size) (hb : w.Prepared leader)
    (hL : w.node? leader = some L) (hn : w.node? v = some n) :
    Replica leader v [] w n L n L.ledger := by
  have hrun : Run (Action.Writes leader) size [] w := .start hw
  have hbooks := hrun.books hb (List.forall_mem_nil _) hL
  have hledger : L.ledger = ⟨L.store.log, none⟩ := Node.ledger_of_none (hw.idle hL).1
  have hbehind := hb.behind v n L hn hL
  constructor
  · exact hbooks.writing.sound
  · obtain ⟨_, _, _, hprovisional⟩ := hw.idle hn
    refine ⟨hb.ready v n hn, ?_, ?_, ?_⟩
    · rw [hprovisional]
      rintro _ ⟨⟩
    · rw [hledger]
      exact .inl (by simpa using hbehind.length_le)
    · -- what the node has of the log is what the leader has at the same place
      rw [hledger, executedBy, List.flatMap_nil, List.append_nil, List.map_take]
      exact (List.prefix_take_iff.mpr ⟨hbehind, by simp⟩).sublist
  · rw [World.pending, World.link?, hw.links]
    exact .nil
  · intro _
    rw [Node.Aligned, hledger, Option.toList_none, List.append_nil]
    exact hbehind
  · rfl

end

/-- Every node but the leader is told of a ledger of the leader. -/
theorem Run.replica (r : Run (Action.Writes leader) size turns w)
    (hb : (origin turns w).Prepared leader) (hs : Sole leader turns) (hl : w.Legible)
    (hc : ∀ t ∈ turns, t.Careful leader) (hne : v ≠ leader) {L n : Node}
    (hL : w.node? leader = some L) (hn : w.node? v = some n) :
    ∃ n₀ g, (origin turns w).node? v = some n₀ ∧ Replica leader v turns w n₀ L n g := by
  refine r.invariant (P := fun turns w => (origin turns w).Prepared leader → Sole leader turns →
    w.Legible → (∀ t ∈ turns, t.Careful leader) → ∀ L n, w.node? leader = some L →
      w.node? v = some n → ∃ n₀ g, (origin turns w).node? v = some n₀ ∧
        Replica leader v turns w n₀ L n g) ?_ ?_ hb hs hl hc L n hL hn
  · intro w hw hb _ _ _ L n hL hn
    exact ⟨n, L.ledger, hn, hw.replica hb hL hn⟩
  · intro turns t r ha ih hb hs hl hc L' n' hL' hn'
    obtain ⟨L, hL, _⟩ := t.nodeStep r.settled hL'
    obtain ⟨n, hn, _⟩ := t.nodeStep r.settled hn'
    rw [origin_concat] at hb
    have hlb := hl.before r.settled
    have hct : t.Careful leader := hc t (by simp)
    have hbooks := r.books hb hs.left hL
    obtain ⟨n₀, g, hn₀, h⟩ :=
      ih hb hs.left hlb (fun t' ht => hc t' (List.mem_append_left _ ht)) L n hL hn
    suffices hnext : ∃ g', Replica leader v (turns ++ [t]) t.after n₀ L' n' g' by
      obtain ⟨g', hg'⟩ := hnext
      exact ⟨n₀, g', by rwa [origin_concat], hg'⟩
    by_cases hact : ∃ id s m, t.Acts id s m
    · obtain ⟨id, s, m, hact⟩ := hact
      by_cases hid : id = leader
      · subst hid
        obtain rfl := Option.some.inj (hact.node.symm.trans hL)
        rw [hact.self r.settled] at hL'
        obtain rfl := Option.some.inj hL'
        rw [hact.other r.settled hne, hn] at hn'
        obtain rfl := Option.some.inj hn'
        exact hact.replica_leader r ha hs.left hlb hct hbooks hne hn h
      · rw [hact.other r.settled (Ne.symm hid), hL] at hL'
        obtain rfl := Option.some.inj hL'
        by_cases hv : v = id
        · subst hv
          obtain rfl := Option.some.inj (hact.node.symm.trans hn)
          rw [hact.self r.settled] at hn'
          obtain rfl := Option.some.inj hn'
          exact hact.replica_follower r ha hs hlb hne hL h
        · rw [hact.other r.settled hv, hn] at hn'
          obtain rfl := Option.some.inj hn'
          exact ⟨g, hact.replica_other r.settled hid hv hne hL hn h⟩
    · have hno : ∀ id s m, ¬ t.Acts id s m := fun id s m h => hact ⟨id, s, m, h⟩
      exact ((t.acts_or_rests r.settled ha.steady).resolve_left hact).replica hno hct hbooks hne hL
        hn h hL' hn'

end

end Accord
