import Accord.Proofs.Cluster.Atomicity

/-! # Logs that match

Where moreover every node has caught up whenever it is asked for a vote, all logs are parts of the
leader's once nothing is put to the vote and no message of the leader is under way: entries of the
same id hold the same command, and all of them are those of writes that succeeded. A node that is
asked while it lags behind appends the command under an id of its own and keeps it, which a run of
three nodes shows. -/
namespace Accord

section

variable {size : Nat} {turns : List Turn} {w : World} {leader v : MemberId} {L n : Node}

/-- A log is a part of the leader's. -/
theorem Run.log_prefix (r : Run (Action.Writes leader) size turns w) (hb : (origin turns w).Blank)
    (hs : Sole leader turns) (hl : w.Legible) (hc : ∀ t ∈ turns, t.Careful leader)
    (ha : Abreast leader v turns) (hL : w.node? leader = some L) (hround : L.round = none)
    (hquiet : w.pending ⟨leader, v⟩ = []) (hn : w.node? v = some n) :
    n.store.log.Numbered ∧ n.store.log.map Entry.key <+: L.ledger.settled.map Entry.key := by
  by_cases hv : v = leader
  · subst hv
    obtain rfl := Option.some.inj (hn.symm.trans hL)
    rw [Node.ledger_of_none hround]
    exact ⟨(r.books (hb.prepared v) hs hL).writing.ready.numbered, List.prefix_refl _⟩
  · obtain ⟨_, g, _, hreplica⟩ := r.replica (hb.prepared leader) hs hl hc hv hL hn
    have hdated := hreplica.dated
    rw [hquiet] at hdated
    -- the node has been told all
    cases hdated
    have haligned := hreplica.aligned ha
    rw [Node.Aligned, Node.ledger_of_none hround, Option.toList_none, List.append_nil] at haligned
    rw [Node.ledger_of_none hround]
    exact ⟨hreplica.follows.ready.numbered, haligned⟩

/-- While nothing is put to the vote and no message of the leader is under way, any two nodes hold
the same command under every id that both have, and all that they hold are writes that succeeded. -/
theorem logs_match (r : Run (Action.Writes leader) size turns w) (hb : (origin turns w).Blank)
    (hs : Sole leader turns) (hl : w.Legible) (hc : ∀ t ∈ turns, t.Careful leader)
    (ha : ∀ v, Abreast leader v turns) (hL : w.node? leader = some L) (hround : L.round = none)
    (hquiet : ∀ v, w.pending ⟨leader, v⟩ = []) :
    (∀ u v m n, w.node? u = some m → w.node? v = some n → ∀ x ∈ m.store.log, ∀ y ∈ n.store.log,
      x.id = y.id → x.command = y.command) ∧
    ∀ v n, w.node? v = some n → ∃ ops, Enacts turns w n.store.log ops := by
  have hpart {v : MemberId} {n : Node} (hn : w.node? v = some n) :=
    r.log_prefix hb hs hl hc (ha v) hL hround (hquiet v) hn
  obtain ⟨L₀, posts, hL₀, haccount⟩ := r.account (hb.prepared leader) hs hL
  have hsettled : L.ledger.settled = posts.map (·.2) := by
    rw [haccount.settled, (hb leader L₀ hL₀).1, List.nil_append]
  refine ⟨?_, ?_⟩
  · intro u v m n hm hn x hx y hy
    exact Log.command_eq_of_prefix (hpart hm).1 (hpart hn).1 (hpart hm).2 (hpart hn).2 hx hy
  · intro v n hn
    exact haccount.enacts (hsettled ▸ (hpart hn).2.sublist)

end

theorem World.pending_nil {w : World} (h : ∀ p ∈ w.links, p.2.queue = []) (ends : Ends) :
    w.pending ends = [] := by
  rw [pending, link?]
  cases hl : Keyed.get? ends w.links with
  | none => rfl
  | some link => exact h (ends, link) (Keyed.mem_of_get? hl)

theorem pair_logs_match : (∃ n, (pair.play commit).node? 2 = some n ∧ n.store.log.length = 1) ∧
    (∀ u v m n, (pair.play commit).node? u = some m → (pair.play commit).node? v = some n →
      ∀ x ∈ m.store.log, ∀ y ∈ n.store.log, x.id = y.id → x.command = y.command) ∧
    ∀ v n, (pair.play commit).node? v = some n →
      ∃ ops, Enacts (pair.turns commit) (pair.play commit) n.store.log ops := by
  have hfacts : (∃ n ∈ (pair.result commit).node? 2, n.store.log.length = 1) ∧
      SoleAlong 1 (pair.trace commit) ∧
      (pair.result commit).sent.all (·.message.isFaithful) = true ∧
      LinkedAlong 1 (pair.trace commit) ∧ AbreastAlong 1 (pair.trace commit) ∧
      (∃ n ∈ (pair.result commit).node? 1, n.round.isNone = true) ∧
      ∀ p ∈ (pair.result commit).links, p.2.queue = [] := by
    decide +kernel
  rw [World.result_eq] at hfacts
  obtain ⟨hlen, hsole, hfaithful, hlinked, habreast, ⟨L, hL, hround⟩, hqueues⟩ := hfacts
  exact ⟨hlen, logs_match run_commit blank_commit hsole.sole (.of_sent hfaithful) hlinked.careful
    habreast.abreast hL (Option.isNone_iff_eq_none.mp hround) fun v => World.pending_nil hqueues _⟩

/-- Under some id two logs hold different commands. -/
def Log.Differs (log other : Log) : Prop :=
  ∃ x ∈ log, ∃ y ∈ other, x.id = y.id ∧ x.command ≠ y.command

instance (log other : Log) : Decidable (log.Differs other) :=
  inferInstanceAs (Decidable (∃ x ∈ log, ∃ y ∈ other, x.id = y.id ∧ x.command ≠ y.command))

/-- A log holds the command of a write that has failed. -/
def Log.HoldsFailed (turns : List Turn) (w : World) (log : Log) : Prop :=
  ∃ op ∈ submissions turns, (∃ e ∈ log, e.command = op.command.text) ∧
    ∃ a ∈ w.answers, a.op = op.number ∧ a.reply.isOk = false

instance (turns : List Turn) (w : World) (log : Log) : Decidable (log.HoldsFailed turns w) :=
  inferInstanceAs (Decidable (∃ op ∈ submissions turns, (∃ e ∈ log, _) ∧ ∃ a ∈ w.answers, _ ∧ _))

/-- Three nodes without any entries. -/
def trio : World := .boot 3 .standard ⟨0, ⟨2024, 1, 1, 0, 0⟩⟩ .empty

/-- The first node commits a write with the second one and puts another one to the vote with the
third, which does not have the first write yet. -/
def overtake : List Action :=
  propose ++ [.deliver ⟨2, 1⟩, .closeLink ⟨1, 2⟩, .closeLink ⟨2, 1⟩, .openLink ⟨1, 3⟩,
    .openLink ⟨3, 1⟩, .submit 1 .post ⟨"CREATE TABLE u (v INT)", none⟩, .deliver ⟨1, 3⟩,
    .deliver ⟨3, 1⟩, .deliver ⟨1, 3⟩]

/-- Two connected nodes hold different commands under one id while nothing is under way, one of them
that of a write which has failed. -/
theorem logs_diverge : ∃ turns w L n, Run (Action.Writes 1) 3 turns w ∧
    (origin turns w).Blank ∧ Sole 1 turns ∧ w.Legible ∧ w.node? 1 = some L ∧ w.node? 3 = some n ∧
    (w.link? ⟨1, 3⟩).isSome = true ∧ L.round = none ∧ (∀ ends, w.pending ends = []) ∧
    L.store.log.Differs n.store.log ∧ n.store.log.HoldsFailed turns w := by
  have hrun : Run (Action.Writes 1) 3 (trio.turns overtake) (trio.play overtake) := by
    refine (Run.start (World.boot_fresh ..)).play overtake ?_
    simp [overtake, propose, poll, Action.Writes, Action.Steady, Action.InOrder]
  have hblank : (origin (trio.turns overtake) (trio.play overtake)).Blank :=
    show trio.Blank from World.boot_blank _ _ _
  have hfacts : SoleAlong 1 (trio.trace overtake) ∧
      (trio.result overtake).sent.all (·.message.isFaithful) = true ∧
      (∀ p ∈ (trio.result overtake).links, p.2.queue = []) ∧
      ((trio.result overtake).link? ⟨1, 3⟩).isSome = true ∧
      ∃ L ∈ (trio.result overtake).node? 1, ∃ n ∈ (trio.result overtake).node? 3,
        L.round.isNone = true ∧ L.store.log.Differs n.store.log ∧
          n.store.log.HoldsFailed ((trio.trace overtake).map (·.1)) (trio.result overtake) := by
    decide +kernel
  rw [← World.turns_eq, World.result_eq] at hfacts
  obtain ⟨hsole, hfaithful, hqueues, hlink, L, hL, n, hn, hround, hdiffer⟩ := hfacts
  exact ⟨_, _, L, n, hrun, hblank, hsole.sole, .of_sent hfaithful, hL, hn, hlink,
    Option.isNone_iff_eq_none.mp hround, World.pending_nil hqueues, hdiffer⟩

end Accord
