import Accord.Proofs.Cluster.Replication
import Accord.Proofs.Cluster.Rounds

/-! # Writes as a whole

What a node has executed are entries that the leader had from before and the node lacked, and then
those of writes that succeeded, each once and in the order in which they were submitted: a write
that its client was told has failed is executed nowhere. This holds if no log is ahead of the
leader's in the beginning, while the leader hands out no entry that is put to the vote and no node
misses that the entry which it appended is taken out. Where the leader does hand one out, a failed
write is executed, as a run of two nodes shows. -/
namespace Accord

section

variable {size : Nat} {turns : List Turn} {w : World} {leader v : MemberId} {L₀ L n : Node}

/-- The writes that succeeded, with their entries, account for what has become of the log and the
tables of the leader, which was `L₀` in the beginning. -/
structure Account (turns : List Turn) (w : World) (L₀ L : Node)
    (posts : List (Operation × Entry)) : Prop where
  settled : L.ledger.settled = L₀.store.log ++ posts.map (·.2)
  text : ∀ p ∈ posts, p.1.command.text = p.2.command
  asked : (posts.map (·.1)).Sublist (submissions turns)
  once : (posts.map (·.1.number)).Nodup
  succeeded : ∀ p ∈ posts, ∃ data, ⟨p.1.number, .ok data⟩ ∈ w.answers
  decided : ∀ p ∈ posts, ∀ reply, ⟨p.1.number, reply⟩ ∈ w.answers → reply.isOk = true
  tables : L.store.tables = (posts.map (·.2)).foldl Entry.replay L₀.store.tables

theorem Run.account (r : Run (Action.Writes leader) size turns w)
    (hb : (origin turns w).Prepared leader) (hs : Sole leader turns)
    (hL : w.node? leader = some L) :
    ∃ L₀ posts, (origin turns w).node? leader = some L₀ ∧ Account turns w L₀ L posts := by
  obtain ⟨L₀, posts, horigin, hbooked⟩ := (r.books hb hs hL).booked
  obtain ⟨hround, hqueue, hanswers, _⟩ := r.origin_fresh.idle horigin
  obtain ⟨done, replies, hout, hsub, hreplies, hops, hok⟩ := hbooked.answers
  rw [Node.outstanding_eq_nil.mpr ⟨hround, hqueue⟩, List.nil_append] at hout
  rw [hanswers, List.nil_append] at hreplies
  change w.answers = replies at hreplies
  subst hreplies
  have hdone : done.Sublist (submissions turns) := by
    rw [hout]
    exact List.sublist_append_left _ _
  have hnumbers : ((submissions turns).map (·.number)).Nodup :=
    (List.pairwise_map.mpr (r.ascending hL).1).imp Nat.ne_of_lt
  -- no operation is answered twice
  have honce : (w.answers.map (·.op)).Nodup := by
    rw [hops]
    exact hnumbers.sublist (hdone.map _)
  have hgood : ∀ p ∈ posts, ∃ a ∈ w.answers, a.op = p.1.number ∧ a.reply.isOk = true := by
    intro p hp
    have hmem : p.1.number ∈ (w.answers.filter (·.reply.isOk)).map (·.op) := by
      rw [hok]
      exact List.mem_map.mpr ⟨p, hp, rfl⟩
    obtain ⟨a, ha, hnumber⟩ := List.mem_map.mp hmem
    obtain ⟨ha, haok⟩ := List.mem_filter.mp ha
    exact ⟨a, ha, hnumber, haok⟩
  refine ⟨L₀, posts, horigin, ?_, hbooked.text, hsub.trans hdone, ?_, ?_, ?_, hbooked.tables⟩
  · have hsettled := hbooked.settled
    rwa [Node.ledger_of_none hround] at hsettled
  · have honly := hnumbers.sublist ((hsub.trans hdone).map (·.number))
    rwa [List.map_map] at honly
  · intro p hp
    obtain ⟨⟨op, reply⟩, ha, rfl, haok⟩ := hgood p hp
    cases reply with
    | ok data => exact ⟨data, ha⟩
    | error e => cases haok
  · intro p hp reply hreply
    obtain ⟨a, ha, hnumber, haok⟩ := hgood p hp
    obtain rfl := List.inj_on_of_nodup_map honce ha hreply hnumber
    exact haok

/-- What the leader has settled stays settled. -/
theorem Turn.settled_prefix {t : Turn} (r : Run (Action.Writes leader) size turns t.before)
    (ha : t.action.Writes leader t.before) (hb : (origin turns t.before).Prepared leader)
    (hs : Sole leader turns) {M : Node} (hL : t.before.node? leader = some L)
    (hM : t.after.node? leader = some M) : L.ledger.settled <+: M.ledger.settled := by
  by_cases hact : ∃ id s n, t.Acts id s n
  · obtain ⟨id, s, n, hact⟩ := hact
    by_cases hid : id = leader
    · subst hid
      obtain rfl := Option.some.inj (hact.node.symm.trans hL)
      rw [hact.self r.settled] at hM
      obtain rfl := Option.some.inj hM
      have hbooks := r.books hb hs hL
      obtain ⟨_, _, posts, hbooked⟩ := hact.booked r ha hs hbooks.writing hbooks.led
      exact hbooked.settled_prefix
    · rw [hact.other r.settled (Ne.symm hid), hL] at hM
      obtain rfl := Option.some.inj hM
      exact List.prefix_refl _
  · obtain ⟨L', directory, hL', rfl⟩ :=
      ((t.acts_or_rests r.settled ha.steady).resolve_left hact).node hM
    obtain rfl := Option.some.inj (hL'.symm.trans hL)
    exact List.prefix_refl _

/-- What the leader has executed is what it has settled since the beginning. -/
theorem Run.executedBy_leader (r : Run (Action.Writes leader) size turns w)
    (hb : (origin turns w).Prepared leader) (hs : Sole leader turns)
    (hL₀ : (origin turns w).node? leader = some L₀) (hL : w.node? leader = some L) :
    L₀.store.log ++ executedBy leader leader turns = L.ledger.settled := by
  refine r.invariant (P := fun turns w => (origin turns w).Prepared leader → Sole leader turns →
    (origin turns w).node? leader = some L₀ → ∀ L, w.node? leader = some L →
      L₀.store.log ++ executedBy leader leader turns = L.ledger.settled) ?_ ?_ hb hs hL₀ L hL
  · intro w hw _ _ hL₀ L hL
    obtain rfl := Option.some.inj (hL₀.symm.trans hL)
    rw [Node.ledger_of_none (hw.idle hL).1]
    exact List.append_nil _
  · intro turns t r ha ih hb hs hL₀ M hM
    obtain ⟨L, hL, _⟩ := t.nodeStep r.settled hM
    rw [origin_concat] at hb hL₀
    have hpart := Turn.settled_prefix r ha hb hs.left hL hM
    rw [executedBy_concat, ← List.append_assoc, ih hb hs.left hL₀ L hL, Turn.executed, if_pos rfl,
      Turn.settled, hL, hM]
    exact List.prefix_iff_eq_append.mp hpart

/-- Some entries are those of writes that succeeded, each once and in their order. -/
structure Enacts (turns : List Turn) (w : World) (entries : List Entry) (ops : List Operation) :
    Prop where
  asked : ops.Sublist (submissions turns)
  once : (ops.map (·.number)).Nodup
  text : entries.map (·.command) = ops.map (·.command.text)
  succeeded : ∀ op ∈ ops, ∃ data, ⟨op.number, .ok data⟩ ∈ w.answers
  decided : ∀ op ∈ ops, ∀ reply, ⟨op.number, reply⟩ ∈ w.answers → reply.isOk = true

theorem Account.enacts {posts : List (Operation × Entry)} (h : Account turns w L₀ L posts)
    {entries : List Entry}
    (hsub : (entries.map Entry.key).Sublist ((posts.map (·.2)).map Entry.key)) :
    ∃ ops, Enacts turns w entries ops := by
  rw [List.map_map] at hsub
  obtain ⟨done, hdone, hkeys⟩ := List.sublist_map_iff.mp hsub
  refine ⟨done.map (·.1), (hdone.map _).trans h.asked, ?_, ?_, ?_, ?_⟩
  · rw [List.map_map]
    exact h.once.sublist (hdone.map _)
  · calc entries.map (·.command)
        = (entries.map Entry.key).map Prod.snd := by rw [List.map_map]; rfl
      _ = done.map (·.2.command) := by rw [hkeys, List.map_map]; rfl
      _ = (done.map (·.1)).map (·.command.text) := by
        rw [List.map_map]
        exact List.map_congr_left fun p hp => (h.text p (hdone.subset hp)).symm
  · intro op hop
    obtain ⟨p, hp, rfl⟩ := List.mem_map.mp hop
    exact h.succeeded p (hdone.subset hp)
  · intro op hop
    obtain ⟨p, hp, rfl⟩ := List.mem_map.mp hop
    exact h.decided p (hdone.subset hp)

/-- Some entries are first those of the leader's old ones that a node lacked in the beginning, and
then those of writes that succeeded, each once and in their order. -/
def CatchesUp (turns : List Turn) (w : World) (L₀ n₀ : Node) (entries : List Entry) : Prop :=
  ∃ old new ops, entries = old ++ new ∧
    (old.map Entry.key).Sublist ((L₀.store.log.drop n₀.store.log.length).map Entry.key) ∧
    Enacts turns w new ops

/-- Entries that the leader has settled and the node did not have in the beginning. -/
theorem Account.catchesUp {posts : List (Operation × Entry)} (h : Account turns w L₀ L posts)
    {n₀ : Node} {entries : List Entry}
    (hbehind : n₀.store.log.map Entry.key <+: L₀.store.log.map Entry.key)
    (hsub : ((n₀.store.log ++ entries).map Entry.key).Sublist (L.ledger.settled.map Entry.key)) :
    CatchesUp turns w L₀ n₀ entries := by
  -- the part of the leader's log that the node has is cancelled
  have hparts : L₀.store.log.map Entry.key = n₀.store.log.map Entry.key ++
      (L₀.store.log.drop n₀.store.log.length).map Entry.key := by
    rw [List.map_drop, ← List.length_map (f := Entry.key)]
    exact (List.prefix_iff_eq_append.mp hbehind).symm
  rw [h.settled, List.map_append, List.map_append, hparts, List.append_assoc,
    List.append_sublist_append_left, List.sublist_append_iff] at hsub
  obtain ⟨first, second, hsplit, hfirst, hsecond⟩ := hsub
  obtain ⟨old, new, rfl, rfl, rfl⟩ := List.map_eq_append_iff.mp hsplit
  obtain ⟨ops, hops⟩ := h.enacts hsecond
  exact ⟨old, new, ops, rfl, hfirst, hops⟩

/-- Every node executes entries of the leader that it lacked in the beginning, and then writes that
succeeded and no others, each at most once and in the order in which they were submitted; its tables
are what this makes of those that it began with. -/
theorem writes_atomic (r : Run (Action.Writes leader) size turns w)
    (hb : (origin turns w).Prepared leader) (hs : Sole leader turns) (hl : w.Legible)
    (hc : ∀ t ∈ turns, t.Careful leader) (hL : (w.node? leader).isSome) {L₀ n₀ : Node}
    (hL₀ : (origin turns w).node? leader = some L₀) (hn : w.node? v = some n)
    (hn₀ : (origin turns w).node? v = some n₀) :
    CatchesUp turns w L₀ n₀ (executedBy leader v turns) ∧
      n.store.tables = (executedBy leader v turns).foldl Entry.replay n₀.store.tables := by
  obtain ⟨L, hL⟩ := Option.isSome_iff_exists.mp hL
  obtain ⟨L₁, posts, hL₁, h⟩ := r.account hb hs hL
  obtain rfl := Option.some.inj (hL₀.symm.trans hL₁)
  have hbehind := hb.behind v n₀ L₀ hn₀ hL₀
  by_cases hv : v = leader
  · subst hv
    obtain rfl := Option.some.inj (hn.symm.trans hL)
    obtain rfl := Option.some.inj (hn₀.symm.trans hL₀)
    have hall := r.executedBy_leader hb hs hL₀ hL
    refine ⟨h.catchesUp hbehind (by rw [hall]), ?_⟩
    rw [h.settled, List.append_cancel_left_eq] at hall
    rw [hall]
    exact h.tables
  · obtain ⟨n₁, g, hn₁, hreplica⟩ := r.replica hb hs hl hc hv hL hn
    obtain rfl := Option.some.inj (hn₀.symm.trans hn₁)
    refine ⟨h.catchesUp hbehind (hreplica.follows.ran.trans (List.Sublist.map _ ?_)),
      hreplica.tables⟩
    -- what the node was told of is an earlier state of what the leader has settled
    exact (List.take_sublist _ _).trans hreplica.dated.flow.settled_prefix.sublist

end

/-- A write is put to the vote and committed, and both of two nodes execute it. -/
def commit : List Action := propose ++ [.deliver ⟨2, 1⟩, .deliver ⟨1, 2⟩]

theorem run_commit : Run (Action.Writes 1) 2 (pair.turns commit) (pair.play commit) := by
  refine (Run.start (World.boot_fresh ..)).play commit ?_
  simp [commit, propose, poll, Action.Writes, Action.Steady, Action.InOrder]

theorem blank_commit : (origin (pair.turns commit) (pair.play commit)).Blank :=
  show pair.Blank from World.boot_blank _ _ _

theorem pair_write_atomic : ∃ n n₀ L₀, (pair.play commit).node? 2 = some n ∧
    pair.node? 2 = some n₀ ∧ pair.node? 1 = some L₀ ∧
    (executedBy 1 2 (pair.turns commit)).length = 1 ∧
    CatchesUp (pair.turns commit) (pair.play commit) L₀ n₀ (executedBy 1 2 (pair.turns commit)) ∧
    n.store.tables =
      (executedBy 1 2 (pair.turns commit)).foldl Entry.replay n₀.store.tables := by
  have hfacts : (executedBy 1 2 ((pair.trace commit).map (·.1))).length = 1 ∧
      SoleAlong 1 (pair.trace commit) ∧
      (pair.result commit).sent.all (·.message.isFaithful) = true ∧
      LinkedAlong 1 (pair.trace commit) ∧ ((pair.result commit).node? 1).isSome = true ∧
      ((pair.result commit).node? 2).isSome = true ∧ (pair.node? 2).isSome = true ∧
      (pair.node? 1).isSome = true := by
    decide +kernel
  rw [← World.turns_eq, World.result_eq] at hfacts
  obtain ⟨hlen, hsole, hfaithful, hlinked, hL, hn, hn₀, hL₀⟩ := hfacts
  obtain ⟨n, hn⟩ := Option.isSome_iff_exists.mp hn
  obtain ⟨n₀, hn₀⟩ := Option.isSome_iff_exists.mp hn₀
  obtain ⟨L₀, hL₀⟩ := Option.isSome_iff_exists.mp hL₀
  exact ⟨n, n₀, L₀, hn, hn₀, hL₀, hlen, writes_atomic run_commit (blank_commit.prepared 1)
    hsole.sole (.of_sent hfaithful) hlinked.careful hL hL₀ hn hn₀⟩

/-- The link to the other node is replaced while a write is put to the vote, so that it misses the
request and asks for the entry instead; the vote then fails. -/
def outrun : List Action :=
  poll ++ [.deliver ⟨2, 1⟩, .submit 1 .post ⟨"CREATE TABLE t (v INT)", none⟩, .openLink ⟨1, 2⟩,
    .connected 1 2, .deliver ⟨1, 2⟩, .deliver ⟨2, 1⟩, .deliver ⟨1, 2⟩,
    .setClock ⟨4900000000, ⟨2024, 1, 1, 0, 0⟩⟩, .tick 1,
    .setClock ⟨5000000000, ⟨2024, 1, 1, 0, 0⟩⟩, .tick 1]

def Reply.isTimeout : Reply → Bool
  | .error e => e = .timeout
  | .ok _ => false

/-- A node executes a write that its client is told has failed. -/
theorem failed_write_executed : ∃ turns w, Run (Action.Writes 1) 2 turns w ∧
    (origin turns w).Blank ∧ Sole 1 turns ∧ w.Legible ∧
    ∃ op ∈ submissions turns, ⟨op.number, .error .timeout⟩ ∈ w.answers ∧
      (executedBy 1 2 turns).map (·.command) = [op.command.text] := by
  have hrun : Run (Action.Writes 1) 2 (pair.turns outrun) (pair.play outrun) := by
    refine (Run.start (World.boot_fresh ..)).play outrun ?_
    simp [outrun, poll, Action.Writes, Action.Steady, Action.InOrder]
  have hfacts : SoleAlong 1 (pair.trace outrun) ∧
      (pair.result outrun).sent.all (·.message.isFaithful) = true ∧
      ∃ op ∈ submissions ((pair.trace outrun).map (·.1)),
        (∃ a ∈ (pair.result outrun).answers, a.op = op.number ∧ Reply.isTimeout a.reply = true) ∧
        (executedBy 1 2 ((pair.trace outrun).map (·.1))).map (·.command) = [op.command.text] := by
    decide +kernel
  rw [← World.turns_eq, World.result_eq] at hfacts
  obtain ⟨hsole, hfaithful, op, hop, ⟨⟨number, reply⟩, ha, rfl, hreply⟩, hexecuted⟩ := hfacts
  have hblank : (origin (pair.turns outrun) (pair.play outrun)).Blank :=
    show pair.Blank from World.boot_blank _ _ _
  cases reply with
  | ok data => cases hreply
  | error e =>
    obtain rfl := of_decide_eq_true hreply
    exact ⟨_, _, hrun, hblank, hsole.sole, .of_sent hfaithful, op, hop, ha, hexecuted⟩

end Accord
