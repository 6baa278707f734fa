import Accord.Node.Step
import Accord.Proofs.Keyed

/-! # What nodes do by themselves

A handler first takes in what it was given and then does one thing after another. `Deed` lists these
things once, each with what it needs and what becomes of the node; `Deeds` is any number of them.
Every handler is shown here to be made of deeds, so that what all deeds preserve is preserved by all
handlers. -/
namespace Accord

/-- What makes a node do something by itself. -/
inductive Occasion where
  /-- A message names a leader. -/
  | news (leader : MemberId)
  /-- The connection to a peer has ended. -/
  | departure (peer : MemberId)
  /-- Time has passed, or an operator asks for an election. -/
  | timer (store : Store)
  | other

/-- Whether an election may be decided now. -/
def Occasion.decides : Occasion → Bool
  | .departure _ => true
  | .other => true
  | _ => false

def Message.occasion : Message → Occasion
  | .announcement leader => .news leader
  | .heartbeat leader _ => .news leader
  | _ => .other

/-- The messages that tell a node to write to its log or its tables. -/
def Message.Kind.isWriting : Kind → Bool
  | .batch => true
  | .roundRequest => true
  | .applyEntry => true
  | .deleteEntry => true
  | _ => false

namespace Node

def setQueue (queue : List Operation) (n : Node) : Node := { n with queue }

/-! ## The beginning and the end of a round -/

/-- Whether no vote of a node can succeed for want of peers. -/
def isCutOff (n : Node) : Bool := n.directory.count = 0 && 1 < n.topology.size

/-- The round of an operation, as it is put to the vote. -/
def newRound (op : Operation) (result : Except StoreError Json) (logId : Option Nat) (n : Node) :
    Round :=
  ⟨n.lastRound + 1, op, result, logId, .initial, n.clock.now + n.timing.voting.nanos⟩

def roundRequest (op : Operation) (n : Node) : Message :=
  .roundRequest op.method op.command (some (n.lastRound + 1))

theorem openRound_cutOff {op : Operation} {n : Node} (h : n.isCutOff = true) :
    n.openRound op = n.answer op (.error .outvoted) := by
  unfold openRound
  exact if_pos h

theorem openRound_get {op : Operation} {n : Node} (h : n.isCutOff = false) (hm : op.method = .get) :
    n.openRound op = { n with
      lastRound := n.lastRound + 1
      outbox := n.outbox ++ n.directory.broadcast (n.roundRequest op)
      store := (n.execute op.command).2.store
      round := some (n.newRound op (n.execute op.command).1 none) } := by
  rw [openRound, if_neg (show ¬_ = true by rw [isCutOff] at h; simp only [h]; decide)]
  simp only [hm]
  rw [roundRequest, hm]
  rfl

theorem openRound_post_error {op : Operation} {n : Node} {e : StoreError} (h : n.isCutOff = false)
    (hm : op.method = .post) (ha : (n.appendCommand op.command).1 = .error e) :
    n.openRound op = { n with
      lastRound := n.lastRound + 1
      store := (n.appendCommand op.command).2.store
      answers := n.answers ++ [⟨op.number, .error (.storage e)⟩] } := by
  rw [openRound, if_neg (show ¬_ = true by rw [isCutOff] at h; simp only [h]; decide)]
  simp only [hm]
  simp only [appendCommand, useStore] at ha ⊢
  rw [ha]
  rfl

theorem openRound_post_ok {op : Operation} {n : Node} {logId : Nat} (h : n.isCutOff = false)
    (hm : op.method = .post) (ha : (n.appendCommand op.command).1 = .ok logId) :
    n.openRound op = { n with
      lastRound := n.lastRound + 1
      outbox := n.outbox ++ n.directory.broadcast (n.roundRequest op)
      store := (n.appendCommand op.command).2.store
      round := some (n.newRound op (.ok (.natural logId)) (some logId)) } := by
  rw [openRound, if_neg (show ¬_ = true by rw [isCutOff] at h; simp only [h]; decide)]
  simp only [hm]
  simp only [appendCommand, useStore] at ha ⊢
  rw [ha, roundRequest, hm]
  rfl

/-- What becomes of a node that puts an operation to the vote. -/
inductive Opened (op : Operation) (n : Node) : Node → Prop
  | cutOff (h : n.isCutOff = true) : Opened op n (n.answer op (.error .outvoted))
  | read (h : n.isCutOff = false) (hm : op.method = .get) : Opened op n { n with
      lastRound := n.lastRound + 1
      outbox := n.outbox ++ n.directory.broadcast (n.roundRequest op)
      store := (n.execute op.command).2.store
      round := some (n.newRound op (n.execute op.command).1 none) }
  | unwritten {e : StoreError} (h : n.isCutOff = false) (hm : op.method = .post)
      (ha : (n.appendCommand op.command).1 = .error e) : Opened op n { n with
        lastRound := n.lastRound + 1
        store := (n.appendCommand op.command).2.store
        answers := n.answers ++ [⟨op.number, .error (.storage e)⟩] }
  | write {logId : Nat} (h : n.isCutOff = false) (hm : op.method = .post)
      (ha : (n.appendCommand op.command).1 = .ok logId) : Opened op n { n with
        lastRound := n.lastRound + 1
        outbox := n.outbox ++ n.directory.broadcast (n.roundRequest op)
        store := (n.appendCommand op.command).2.store
        round := some (n.newRound op (.ok (.natural logId)) (some logId)) }

theorem opened (op : Operation) (n : Node) : Opened op n (n.openRound op) := by
  cases h : n.isCutOff with
  | true => exact openRound_cutOff h ▸ .cutOff h
  | false =>
    cases hm : op.method with
    | get => exact openRound_get h hm ▸ .read h hm
    | post =>
      cases ha : (n.appendCommand op.command).1 with
      | error e => exact openRound_post_error h hm ha ▸ .unwritten h hm ha
      | ok logId => exact openRound_post_ok h hm ha ▸ .write h hm ha

theorem setQueue_openRound (queue : List Operation) (op : Operation) (n : Node) :
    (n.setQueue queue).openRound op = (n.openRound op).setQueue queue := by
  cases hc : n.isCutOff with
  | true => rw [openRound_cutOff hc, openRound_cutOff (n := n.setQueue queue) hc]; rfl
  | false =>
    cases hm : op.method with
    | get => rw [openRound_get hc hm, openRound_get (n := n.setQueue queue) hc hm]; rfl
    | post =>
      cases ha : (n.appendCommand op.command).1 with
      | error e =>
        rw [openRound_post_error hc hm ha, openRound_post_error (n := n.setQueue queue) hc hm ha]
        rfl
      | ok logId =>
        rw [openRound_post_ok hc hm ha, openRound_post_ok (n := n.setQueue queue) hc hm ha]
        rfl

/-- What becomes of a node whose round is decided in its favour. -/
inductive Carried (r : Round) (n : Node) : Node → Prop
  | read (hm : r.op.method = .get) : Carried r n { n with
      round := none
      answers := n.answers ++ [⟨r.op.number, r.result.mapError ReplyError.storage⟩] }
  | write {logId : Nat} {result : Json} (hm : r.op.method = .post) (hl : r.logId = some logId)
      (ha : (n.store.apply logId).1 = .ok result) : Carried r n { n with
        round := none
        store := (n.store.apply logId).2
        outbox := n.outbox ++ n.directory.broadcast (.applyEntry logId)
        answers := n.answers ++ [⟨r.op.number, .ok result⟩] }
  | unwritten {logId : Nat} {e : StoreError} (hm : r.op.method = .post) (hl : r.logId = some logId)
      (ha : (n.store.apply logId).1 = .error e) : Carried r n { n with
        round := none
        store := ((n.store.apply logId).2.truncate logId).2
        outbox := n.outbox ++ n.directory.broadcast (.deleteEntry logId)
        answers := n.answers ++ [⟨r.op.number, .error (.storage e)⟩] }
  | void (hm : r.op.method = .post) (hl : r.logId = none) : Carried r n { n with
      round := none
      answers := n.answers ++ [⟨r.op.number, .error .outvoted⟩] }

theorem carried {n : Node} {r : Round} (h : n.round = some r) : Carried r n (n.endRound none) := by
  rw [endRound, h]
  simp only [settleRound]
  cases hm : r.op.method with
  | get => exact .read hm
  | post =>
    cases hl : r.logId with
    | none => exact .void hm hl
    | some logId =>
      simp only [enact, useStore]
      cases ha : (n.store.apply logId).1 with
      | ok result => exact .write hm hl ha
      | error e => exact .unwritten hm hl ha

/-- What becomes of a node that gives up its round. -/
inductive Dropped (r : Round) (e : ReplyError) (n : Node) : Node → Prop
  | read (hl : r.logId = none) : Dropped r e n { n with
      round := none
      answers := n.answers ++ [⟨r.op.number, .error e⟩] }
  | write {logId : Nat} (hl : r.logId = some logId) : Dropped r e n { n with
      round := none
      store := (n.store.truncate logId).2
      outbox := n.outbox ++ n.directory.broadcast (.deleteEntry logId)
      answers := n.answers ++ [⟨r.op.number, .error e⟩] }

theorem dropped {n : Node} {r : Round} (h : n.round = some r) (e : ReplyError) :
    Dropped r e n (n.endRound (some e)) := by
  rw [endRound, h]
  simp only [undoRound]
  cases hl : r.logId with
  | none => exact .read hl
  | some logId => exact .write hl

theorem endRound_of_none {n : Node} (h : n.round = none) (failure : Option ReplyError) :
    n.endRound failure = n := by
  rw [endRound, h]

theorem setQueue_endRound (queue : List Operation) (failure : Option ReplyError) (n : Node) :
    (n.setQueue queue).endRound failure = (n.endRound failure).setQueue queue := by
  cases h : n.round with
  | none => rw [endRound_of_none h, endRound_of_none (n := n.setQueue queue) h]
  | some r =>
    have h' : (n.setQueue queue).round = some r := h
    rw [endRound, endRound, h, h']
    cases failure with
    | some e =>
      simp only [undoRound]
      cases r.logId <;> rfl
    | none =>
      simp only [settleRound]
      cases r.op.method with
      | get => rfl
      | post =>
        cases r.logId with
        | none => rfl
        | some logId =>
          simp only [enact, useStore, setQueue]
          cases (n.store.apply logId).1 <;> rfl

theorem setQueue_decideRound (queue : List Operation) (n : Node) :
    (n.setQueue queue).decideRound = n.decideRound.setQueue queue := by
  have h : (n.setQueue queue).round.bind (decision · (n.setQueue queue)) =
      n.round.bind (decision · n) := rfl
  rw [decideRound, decideRound, h]
  split
  · exact setQueue_endRound _ _ _
  · exact setQueue_endRound _ _ _
  · rfl

/-! ## Deeds -/

/-- Why a node presumes its leader lost. -/
inductive Forsaken (o : Occasion) (n : Node) : Prop
  /-- The connection to the leader has ended. -/
  | departed {leader : MemberId} (ho : o = .departure leader)
      (hl : n.standing.leader = some leader)
  /-- The leader has not given a sign in time. -/
  | silent {store : Store} (ho : o = .timer store) (hr : n.role = .follower)

/-- One thing that a node does by itself. -/
inductive Deed (o : Occasion) : Node → Node → Prop
  /-- Timers are set, dice are rolled, or the wait for entries begins or ends. -/
  | wait {n : Node} (dice : Dice) (standing : Standing) (requestedAt : Option Moment)
      (hs : standing.self = n.standing.self) (hl : standing.leader = n.standing.leader) :
      Deed o n { n with dice, standing, requestedAt }
  /-- The leader is presumed lost. -/
  | forget {n : Node} (dice : Dice) (standing : Standing) (hs : standing.self = n.standing.self)
      (hl : standing.leader = none) (hf : Forsaken o n) :
      Deed o n { n with dice, standing, requestedAt := none }
  /-- A node follows a leader it heard of; if it led, it has given up its operations. -/
  | follow {n : Node} {leader : MemberId} (standing : Standing) (requestedAt : Option Moment)
      (hh : o = .news leader) (hs : standing.self = n.standing.self)
      (hl : standing.leader = some leader) (hi : n.leads = true → n.round = none ∧ n.queue = []) :
      Deed o n { n with standing, requestedAt }
  /-- The election is over. -/
  | resolve {n : Node} (hr : n.ballot.resolved = false) :
      Deed o n { n with ballot := { n.ballot with resolved := true } }
  /-- All connected peers have voted, and more than half of them accepted. -/
  | win {n : Node} (hw : o.decides = true) (hr : n.ballot.resolved = false)
      (hn : n.standing.leader = none)
      (ha : Ballot.isMajority n.ballot.accepted n.directory.count = true) :
      Deed o n { n with ballot := { n.ballot with resolved := true } }.promote
  /-- The only node of a cluster leads it. -/
  | reign {n : Node} (hw : o = .timer n.store) (hc : n.directory.count = 0)
      (hs : n.topology.size = 1) : Deed o n n.promote
  /-- A candidate begins an election. -/
  | stand {n : Node} {logId : Nat} (hw : o = .timer n.store) (hc : n.directory.count ≠ 0)
      (hl : n.lastId = .ok logId) :
      Deed o n ({ n with ballot := n.ballot.begin }.broadcast
        (.voteRequest n.id logId (some n.ballot.begin.round)))
  /-- A leader gives a sign. -/
  | sign {n : Node} (hl : n.leads = true) : Deed o n (n.broadcast n.heartbeat)
  /-- A leader gives a new peer a sign. -/
  | greet {n : Node} (peer : MemberId) (hl : n.leads = true) :
      Deed o n (n.send peer n.heartbeat)
  /-- A node asks for the entries that it lacks. -/
  | ask {n : Node} {own : Nat} (leader : MemberId) (hl : n.lastId = .ok own) :
      Deed o n (n.send leader (.entriesRequest n.id own))
  /-- The leader puts the next operation to the vote. -/
  | begin {n m : Node} {op : Operation} {rest : List Operation} (hq : n.queue = op :: rest)
      (hr : n.round = none) (hl : n.leads = true) (ho : Opened op (n.setQueue rest) m) :
      Deed o n m
  /-- The votes agree with the leader. -/
  | succeed {n m : Node} {r : Round} (hr : n.round = some r) (hd : n.decision r = some true)
      (hc : Carried r n m) : Deed o n m
  /-- The votes do not agree with the leader, the round takes too long, or another node leads. -/
  | fail {n m : Node} {r : Round} {e : ReplyError} (hr : n.round = some r) (hd : Dropped r e n m) :
      Deed o n m
  /-- An operation that waits for its round is given up; the round before it has been. -/
  | dismiss {n : Node} {op : Operation} {rest : List Operation} (e : ReplyError)
      (hr : n.round = none) (hq : n.queue = op :: rest) :
      Deed o n ((n.setQueue rest).answer op (.error e))

/-- Any number of deeds. -/
abbrev Deeds (o : Occasion) : Node → Node → Prop :=
  Relation.ReflTransGen (Deed o)

variable {o : Occasion}

/-! ## What stays -/

/-- What no handler changes. -/
structure Same (n m : Node) : Prop where
  topology : m.topology = n.topology
  timing : m.timing = n.timing
  clock : m.clock = n.clock
  directory : m.directory = n.directory
  self : m.standing.self = n.standing.self

theorem Same.refl (n : Node) : Same n n := ⟨rfl, rfl, rfl, rfl, rfl⟩

theorem Same.trans {n m l : Node} (h : Same n m) (h' : Same m l) : Same n l :=
  ⟨h'.1.trans h.1, h'.2.trans h.2, h'.3.trans h.3, h'.4.trans h.4, h'.5.trans h.5⟩

theorem Opened.same {op : Operation} {n m : Node} (h : Opened op n m) : Same n m := by
  cases h <;> exact ⟨rfl, rfl, rfl, rfl, rfl⟩

theorem Carried.same {r : Round} {n m : Node} (h : Carried r n m) : Same n m := by
  cases h <;> exact ⟨rfl, rfl, rfl, rfl, rfl⟩

theorem Dropped.same {r : Round} {e : ReplyError} {n m : Node} (h : Dropped r e n m) :
    Same n m := by
  cases h <;> exact ⟨rfl, rfl, rfl, rfl, rfl⟩

theorem Deed.same {n m : Node} (h : Deed o n m) : Same n m := by
  cases h with
  | wait _ _ _ hs => exact ⟨rfl, rfl, rfl, rfl, hs⟩
  | forget _ _ hs => exact ⟨rfl, rfl, rfl, rfl, hs⟩
  | follow _ _ _ hs => exact ⟨rfl, rfl, rfl, rfl, hs⟩
  | begin _ _ _ ho => exact ⟨ho.same.1, ho.same.2, ho.same.3, ho.same.4, ho.same.5⟩
  | succeed _ _ hc => exact hc.same
  | fail _ hd => exact hd.same
  | _ => exact ⟨rfl, rfl, rfl, rfl, rfl⟩

theorem Deeds.same {n m : Node} (h : Deeds o n m) : Same n m := by
  induction h with
  | refl => exact .refl n
  | tail _ hd ih => exact ih.trans hd.same

/-! ## What is sent -/

theorem mem_peers_of_broadcast {directory : Directory} {m : Message} {d : Delivery}
    (h : d ∈ directory.broadcast m) : d.peer ∈ directory.peers ∧ d.message = m := by
  obtain ⟨entry, he, hd⟩ := List.mem_filterMap.mp h
  unfold Directory.delivery? at hd
  split at hd
  · cases hd
    exact ⟨List.mem_map_of_mem he, rfl⟩
  · cases hd

theorem mem_peers_of_dispatch {directory : Directory} {peer : MemberId} {m : Message} {d : Delivery}
    (h : d ∈ (directory.dispatch peer m).toList) :
    d.peer = peer ∧ peer ∈ directory.peers ∧ d.message = m := by
  rw [Option.mem_toList] at h
  obtain ⟨connection, hc, hd⟩ := Option.bind_eq_some_iff.mp h
  unfold Directory.delivery? at hd
  split at hd
  · cases hd
    refine ⟨rfl, ?_, rfl⟩
    rw [Directory.peers, Keyed.mem_keys_iff, hc]
    rfl
  · cases hd

/-- What a node may send while it becomes another one. -/
inductive Says (o : Occasion) (n m : Node) : Message → Prop
  | announcement : Says o n m (.announcement n.id)
  | voteRequest {logId : Nat} (hw : o = .timer n.store) (hl : n.lastId = .ok logId)
      (hb : m.ballot = n.ballot.begin) :
      Says o n m (.voteRequest n.id logId (some m.ballot.round))
  | heartbeat : Says o n m (.heartbeat n.id n.announcedLog)
  | entriesRequest (own : Nat) : Says o n m (.entriesRequest n.id own)
  | roundRequest {r : Round} (hr : m.round = some r) (hn : r.number = m.lastRound)
      (hl : m.lastRound = n.lastRound + 1) :
      Says o n m (.roundRequest r.op.method r.op.command (some r.number))
  | applyEntry {r : Round} {logId : Nat} (hr : n.round = some r) (hl : r.logId = some logId) :
      Says o n m (.applyEntry logId)
  | deleteEntry {r : Round} {logId : Nat} (hr : n.round = some r) (hl : r.logId = some logId) :
      Says o n m (.deleteEntry logId)

/-- A deed sends at most one message, to all peers or to one. -/
theorem Deed.outbox {n m : Node} (h : Deed o n m) :
    m.outbox = n.outbox ∨ ∃ msg, Says o n m msg ∧
      (m.outbox = n.outbox ++ n.directory.broadcast msg ∨
        ∃ peer, m.outbox = n.outbox ++ (n.directory.dispatch peer msg).toList) := by
  cases h with
  | win => exact .inr ⟨_, .announcement, .inl rfl⟩
  | reign => exact .inr ⟨_, .announcement, .inl rfl⟩
  | stand hw hc hl => exact .inr ⟨_, .voteRequest hw hl rfl, .inl rfl⟩
  | sign => exact .inr ⟨_, .heartbeat, .inl rfl⟩
  | greet peer => exact .inr ⟨_, .heartbeat, .inr ⟨peer, rfl⟩⟩
  | ask leader => exact .inr ⟨_, .entriesRequest _, .inr ⟨leader, rfl⟩⟩
  | begin hq hr hl ho =>
    cases ho with
    | cutOff => exact .inl rfl
    | read h hm => exact .inr ⟨_, .roundRequest rfl rfl rfl, .inl rfl⟩
    | unwritten => exact .inl rfl
    | write h hm ha => exact .inr ⟨_, .roundRequest rfl rfl rfl, .inl rfl⟩
  | succeed hr _ hc =>
    cases hc with
    | read => exact .inl rfl
    | write hm hl ha => exact .inr ⟨_, .applyEntry hr hl, .inl rfl⟩
    | unwritten hm hl ha => exact .inr ⟨_, .deleteEntry hr hl, .inl rfl⟩
    | void => exact .inl rfl
  | fail hr hdr =>
    cases hdr with
    | read => exact .inl rfl
    | write hl => exact .inr ⟨_, .deleteEntry hr hl, .inl rfl⟩
  | _ => exact .inl rfl

/-- Whatever a deed sends goes to connected peers and is one of a few messages. -/
theorem Deed.sends {n m : Node} (h : Deed o n m) {d : Delivery} (hd : d ∈ m.outbox) :
    d ∈ n.outbox ∨ d.peer ∈ n.directory.peers ∧ Says o n m d.message := by
  rcases h.outbox with he | ⟨msg, hs, he | ⟨peer, he⟩⟩
  · exact .inl (he ▸ hd)
  · rw [he] at hd
    refine (List.mem_append.mp hd).imp_right fun hd => ?_
    obtain ⟨hp, rfl⟩ := mem_peers_of_broadcast hd
    exact ⟨hp, hs⟩
  · rw [he] at hd
    refine (List.mem_append.mp hd).imp_right fun hd => ?_
    obtain ⟨rfl, hp, rfl⟩ := mem_peers_of_dispatch hd
    exact ⟨hp, hs⟩

/-! ## Handlers -/

theorem role_iff {n : Node} : n.role = .leader ↔ n.standing.leader = some n.standing.self := by
  rw [role, Standing.role]
  cases n.standing.leader with
  | none => simp
  | some leader => by_cases h : leader = n.standing.self <;> simp [h]

theorem leads_iff {n : Node} : n.leads = true ↔ n.standing.leader = some n.standing.self := by
  rw [← role_iff, leads, Standing.leads, beq_iff_eq]
  rfl

theorem Forsaken.departure_of_leads {n : Node} (h : Forsaken o n) (hl : n.leads = true) :
    o = .departure n.standing.self := by
  cases h with
  | departed ho he =>
    rw [leads_iff, he] at hl
    rw [ho, Option.some.inj hl]
  | silent _ hr =>
    rw [leads, Standing.leads, ← role, hr] at hl
    cases hl

theorem leads_promote (n : Node) : n.promote.leads = true := leads_iff.mpr rfl

/-- A leader stays one unless it hears of another one. -/
theorem Deed.leads_of_leads {n m : Node} (h : Deed o n m) (hd : o ≠ .departure n.standing.self)
    (hn : ∀ leader, o = .news leader → leader = n.standing.self) (hl : n.leads = true) :
    m.leads = true := by
  cases h with
  | wait _ standing _ hs he =>
    rw [leads_iff] at hl ⊢
    exact he.trans (hl.trans (congrArg some hs.symm))
  | forget _ _ _ _ hf => exact absurd (hf.departure_of_leads hl) hd
  | follow _ _ hh hs he =>
    rw [leads_iff]
    exact he.trans (congrArg some ((hn _ hh).trans hs.symm))
  | win => exact leads_promote _
  | reign => exact leads_promote _
  | begin _ _ _ ho => cases ho <;> exact hl
  | succeed _ _ hc => cases hc <;> exact hl
  | fail _ hd => cases hd <;> exact hl
  | _ => exact hl

theorem deeds_decideRound (n : Node) : Deeds o n n.decideRound := by
  unfold decideRound
  split
  · rename_i h
    obtain ⟨r, hr, hd⟩ := Option.bind_eq_some_iff.mp h
    exact .single (.succeed hr hd (carried hr))
  · rename_i h
    obtain ⟨r, hr, _⟩ := Option.bind_eq_some_iff.mp h
    exact .single (.fail hr (dropped hr .outvoted))
  · exact .refl

theorem deeds_drainQueue (ops : List Operation) (n : Node) :
    Deeds o (n.setQueue ops) (drainQueue ops n) := by
  induction ops generalizing n with
  | nil => exact .refl
  | cons op rest ih =>
    rw [drainQueue]
    split
    · rename_i h
      simp only [Bool.and_eq_true, Option.isNone_iff_eq_none] at h
      have hb : Deed o (n.setQueue (op :: rest)) ((n.openRound op).setQueue rest) := by
        rw [← setQueue_openRound]
        exact .begin rfl h.1 h.2 (opened _ _)
      have hd : Deeds o ((n.openRound op).setQueue rest)
          ((n.openRound op).decideRound.setQueue rest) := by
        rw [← setQueue_decideRound]
        exact deeds_decideRound _
      exact ((Relation.ReflTransGen.single hb).trans hd).trans (ih _)
    · exact .refl

theorem deeds_proceed (n : Node) : Deeds o n n.proceed := deeds_drainQueue n.queue n

theorem deeds_endRound (n : Node) (e : ReplyError) : Deeds o n (n.endRound (some e)) := by
  cases h : n.round with
  | none =>
    rw [endRound_of_none h]
  | some r => exact .single (.fail h (dropped h e))

theorem deeds_dismissAll (ops : List Operation) (e : ReplyError) {n : Node} (hr : n.round = none) :
    Deeds o (n.setQueue ops)
      (ops.foldl (fun n op => n.answer op (.error e)) (n.setQueue [])) := by
  induction ops generalizing n with
  | nil => exact .refl
  | cons op rest ih =>
    have hd : Deed o (n.setQueue (op :: rest)) ((n.answer op (.error e)).setQueue rest) :=
      .dismiss e hr rfl
    exact .head hd (ih hr)

theorem foldl_answer_frame (ops : List Operation) (e : ReplyError) (n : Node) :
    (ops.foldl (fun n op => n.answer op (.error e)) n).round = n.round ∧
      (ops.foldl (fun n op => n.answer op (.error e)) n).queue = n.queue := by
  induction ops generalizing n with
  | nil => exact ⟨rfl, rfl⟩
  | cons op rest ih => exact ih (n.answer op (.error e))

theorem endRound_round (failure : Option ReplyError) (n : Node) :
    (n.endRound failure).round = none := by
  cases h : n.round with
  | none => rw [endRound_of_none h, h]
  | some r =>
    cases failure with
    | none =>
      have hc := carried h
      generalize n.endRound none = m at hc
      cases hc <;> rfl
    | some e =>
      have hd := dropped h e
      generalize n.endRound (some e) = m at hd
      cases hd <;> rfl

theorem deeds_failAll (e : ReplyError) (n : Node) : Deeds o n (n.failAll e) :=
  (deeds_endRound n e).trans
    (deeds_dismissAll (n := n.endRound (some e)) (n.endRound (some e)).queue e (endRound_round _ n))

theorem failAll_idle (e : ReplyError) (n : Node) :
    (n.failAll e).round = none ∧ (n.failAll e).queue = [] := by
  obtain ⟨hr, hq⟩ := foldl_answer_frame (n.endRound (some e)).queue e
    ((n.endRound (some e)).setQueue [])
  exact ⟨hr.trans (endRound_round _ n), hq⟩

theorem deeds_turnTo {leader : MemberId} (hh : o = .news leader) (n : Node) :
    Deeds o n (n.turnTo leader) := by
  have hf (m : Node) (hi : m.leads = true → m.round = none ∧ m.queue = []) : Deed o m { m with
      standing := m.standing.follow leader m.timing m.clock.now, requestedAt := none } :=
    .follow (m.standing.follow leader m.timing m.clock.now) none hh rfl rfl hi
  simp only [turnTo]
  split
  · exact (deeds_failAll _ n).tail (hf _ fun _ => failAll_idle _ n)
  · rename_i h
    exact .single (hf n fun hl => absurd hl h)

theorem deed_search (n : Node) : Deed o n n.search := by
  unfold search
  obtain ⟨pick, dice⟩ := n.dice.roll
  dsimp only
  generalize n.timing.electionSpan pick = span
  exact .wait dice (n.standing.search n.timing n.clock.now span) n.requestedAt rfl rfl

theorem deed_loseLeader {n : Node} (hf : Forsaken o n) : Deed o n n.loseLeader := by
  unfold loseLeader seek
  obtain ⟨pick, dice⟩ := n.dice.roll
  dsimp only
  generalize n.timing.electionSpan pick = span
  exact .forget dice (n.standing.seek n.timing n.clock.now span) rfl rfl hf

theorem deeds_stand {n : Node} (hw : o = .timer n.store) :
    Deeds o n n.stand := by
  have ha : Deeds o n n.askForVotes := by
    unfold askForVotes
    split
    · rename_i hc
      split
      · rename_i hs
        exact .single (.reign hw hc hs)
      · exact .refl
    · rename_i hc
      split
      · exact .refl
      · rename_i logId hl
        exact .single (.stand hw hc hl)
  simp only [stand]
  split
  · exact ha.tail (deed_search _)
  · exact ha

theorem deeds_decideElection (hw : o.decides = true) (n : Node) : Deeds o n n.decideElection := by
  simp only [decideElection]
  split
  · exact .refl
  · rename_i h
    simp only [Bool.or_eq_true, not_or, Bool.not_eq_true] at h
    split
    · rename_i hm
      simp only [Bool.and_eq_true, Option.isNone_iff_eq_none] at hm
      exact .single (.win hw h.1.1 hm.2 hm.1)
    · exact .single (.resolve h.1.1)

theorem deeds_catchUp (leader : MemberId) (logId : Int) (n : Node) :
    Deeds o n (n.catchUp leader logId) := by
  unfold catchUp
  split
  · exact .refl
  · rename_i own hl
    simp only
    split
    · exact .refl
    · split
      · exact .tail (.single (.ask leader hl))
          (.wait n.dice n.standing (some n.clock.now) rfl rfl)
      · exact .refl

theorem deeds_onAnnouncement (leader : MemberId) (n : Node) :
    Deeds (.news leader) n (n.onAnnouncement leader) := by
  unfold onAnnouncement
  split
  · exact .refl
  · exact deeds_turnTo rfl n

theorem deeds_onHeartbeat (leader : MemberId) (logId : Int) (n : Node) :
    Deeds (.news leader) n (n.onHeartbeat leader logId) := by
  unfold onHeartbeat
  split
  · rename_i hl
    have hn : n.leads = true → n.round = none ∧ n.queue = [] := fun h => by
      simp [leads, Standing.leads, Standing.role, hl] at h
    exact .trans (.single (.follow (n.standing.follow leader n.timing n.clock.now) n.requestedAt
      rfl rfl rfl hn)) (deeds_catchUp _ _ _)
  · rename_i current hl
    split
    · exact .trans (.single (.wait n.dice (n.standing.refresh n.timing n.clock.now) n.requestedAt
        rfl rfl)) (deeds_catchUp _ _ _)
    · split
      · split
        · exact (deeds_turnTo rfl n).trans (deeds_catchUp _ _ _)
        · exact .refl
      · exact .refl

theorem deeds_onConnected (peer : MemberId) (n : Node) : Deeds o n (n.onConnected peer) := by
  unfold onConnected
  split
  · rename_i h
    exact .single (.greet peer h)
  · exact .refl

theorem deeds_onDisconnected (peer : MemberId) (n : Node) :
    Deeds (.departure peer) n (n.onDisconnected peer) := by
  have hd (m : Node) : Deeds (.departure peer) m m.decideElection.decideRound.proceed :=
    ((deeds_decideElection rfl m).trans (deeds_decideRound _)).trans (deeds_proceed _)
  simp only [onDisconnected]
  split
  · rename_i h
    exact .head (deed_loseLeader (.departed rfl h)) (hd _)
  · exact hd n

theorem deed_timers (n : Node) (standing : Standing) (hs : standing.self = n.standing.self)
    (hl : standing.leader = n.standing.leader) : Deed o n { n with standing } :=
  .wait n.dice standing n.requestedAt hs hl

theorem deeds_tickHeartbeat (now : Moment) (n : Node) : Deeds o n (n.tickHeartbeat now) := by
  simp only [tickHeartbeat]
  split
  · split
    · rename_i h
      exact .tail (.tail (.single (deed_timers n { n.standing with heartbeat := .idle } rfl rfl))
        (.sign h)) (deed_timers _ _ rfl rfl)
    · exact .single (deed_timers n { n.standing with heartbeat := .idle } rfl rfl)
  · exact .refl

theorem deeds_tickElection (now : Moment) {n : Node} (hw : o = .timer n.store) :
    Deeds o n (n.tickElection now) := by
  simp only [tickElection]
  split
  · have h : Deed o n _ :=
      deed_timers n { n.standing with election := .idle } rfl rfl
    split
    · exact .head h (deeds_stand hw)
    · exact .single h
  · exact .refl

theorem deeds_tickVote (now : Moment) {n : Node} (hw : o = .timer n.store) :
    Deeds o n (n.tickVote now) := by
  simp only [tickVote]
  split
  · have h : Deed o n _ := deed_timers n { n.standing with vote := .idle } rfl rfl
    split
    · exact .single h
    · rename_i hr
      exact .tail (.single h) (deed_loseLeader (.silent hw hr))
    · exact .head h (deeds_stand hw)
  · exact .refl

theorem deeds_tickRound (now : Moment) (n : Node) : Deeds o n (n.tickRound now) := by
  unfold tickRound
  split
  · exact (deeds_endRound n _).trans (deeds_proceed _)
  · exact .refl

theorem deeds_tickCatchUp (now : Moment) (n : Node) : Deeds o n (n.tickCatchUp now) := by
  unfold tickCatchUp
  split
  · exact .single (.wait n.dice n.standing none rfl rfl)
  · exact .refl

/-! Until its round is due, a node that does what is due leaves its store as it is. -/

theorem search_store (n : Node) : n.search.store = n.store := by
  unfold search
  obtain ⟨pick, dice⟩ := n.dice.roll
  rfl

theorem stand_store (n : Node) : n.stand.store = n.store := by
  have ha : n.askForVotes.store = n.store := by
    unfold askForVotes
    split
    · split <;> rfl
    · split <;> rfl
  simp only [stand]
  split
  · rw [search_store, ha]
  · exact ha

theorem tickHeartbeat_store (now : Moment) (n : Node) :
    (n.tickHeartbeat now).store = n.store := by
  simp only [tickHeartbeat]
  split
  · split <;> rfl
  · rfl

theorem tickElection_store (now : Moment) (n : Node) :
    (n.tickElection now).store = n.store := by
  simp only [tickElection]
  split
  · split
    · exact stand_store _
    · rfl
  · rfl

theorem deeds_tickAt (now : Moment) (n : Node) : Deeds (.timer n.store) n (n.tickAt now) := by
  have h1 := tickHeartbeat_store now n
  have h2 := (tickElection_store now (n.tickHeartbeat now)).trans h1
  exact ((((deeds_tickHeartbeat now n).trans (deeds_tickElection now (by rw [h1]))).trans
    (deeds_tickVote now (by rw [h2]))).trans (deeds_tickRound now _)).trans
      (deeds_tickCatchUp now _)

theorem deeds_tick (n : Node) : Deeds (.timer n.store) n n.tick := deeds_tickAt n.clock.now n

/-! ## Messages -/

/-- What a node takes in of a message before it does anything by itself. -/
def absorb (sender : MemberId) (m : Message) (n : Node) : Node :=
  match m with
  | .vote voter accept round =>
    if n.ballot.concerns round then { n with ballot := n.ballot.record voter accept } else n
  | .roundAnswer digest round =>
    match n.round with
    | none => n
    | some r =>
      if round.any (· != r.number) || r.tally.hasAnswered sender then n
      else { n with round := some { r with tally := r.tally.record sender digest } }
  | .announcement _ => n
  | .heartbeat _ _ => n
  | m => n.onMessage sender m

/-- What becomes of a node that takes in a message. -/
inductive Absorbed (sender : MemberId) (n : Node) : Message → Node → Prop
  | nothing {m : Message} : Absorbed sender n m n
  | tally {voter : MemberId} {accept : Bool} {round : Option Nat}
      (hc : n.ballot.concerns round = true) : Absorbed sender n (.vote voter accept round)
        { n with ballot := n.ballot.record voter accept }
  | count {digest : String} {round : Option Nat} {r : Round} (hr : n.round = some r)
      (hn : round.any (· != r.number) = false) (ha : r.tally.hasAnswered sender = false) :
      Absorbed sender n (.roundAnswer digest round)
        { n with round := some { r with tally := r.tally.record sender digest } }
  | vote {candidate : MemberId} {logId own : Nat} {round : Option Nat} (hl : n.lastId = .ok own) :
      Absorbed sender n (.voteRequest candidate logId round)
        (n.send candidate (.vote n.id (Ballot.grants own logId) round))
  | handOut {follower : MemberId} {logId : Nat} {entries : List Entry} (hl : n.leads = true)
      (he : n.store.entriesBeyond logId = .ok entries) :
      Absorbed sender n (.entriesRequest follower logId) (n.send follower (.batch n.id entries))
  | insert {leader : MemberId} {entries : List Entry} : Absorbed sender n (.batch leader entries)
      { n with requestedAt := none, store := (insertMissing entries n.store).2 }
  | attend {method : Method} {command : Command} {round : Option Nat} :
      Absorbed sender n (.roundRequest method command round)
        (send sender (.roundAnswer (outcomeDigest (n.roundOutcome method command).1) round)
          { n with
            store := (n.roundOutcome method command).2.store
            provisional := (n.roundOutcome method command).2.provisional })
  | apply {logId : Nat} : Absorbed sender n (.applyEntry logId) { n with
      provisional := if n.provisional = some logId then none else n.provisional
      store := (n.store.apply logId).2 }
  | delete {logId : Nat} (hp : n.provisional = some logId) :
      Absorbed sender n (.deleteEntry logId)
        { n with provisional := none, store := (n.store.truncate logId).2 }

theorem absorbed (sender : MemberId) (m : Message) (n : Node) :
    Absorbed sender n m (n.absorb sender m) := by
  cases m with
  | hello node => exact .nothing
  | announcement leader => exact .nothing
  | heartbeat leader logId => exact .nothing
  | batch leader entries => exact .insert
  | applyEntry logId => exact .apply
  | vote voter accept round =>
    simp only [absorb]
    split
    · exact .tally ‹_›
    · exact .nothing
  | roundAnswer digest round =>
    simp only [absorb]
    split
    · exact .nothing
    · rename_i r hr
      split
      · exact .nothing
      · rename_i h
        simp only [Bool.or_eq_true, not_or, Bool.not_eq_true] at h
        exact .count hr h.1 h.2
  | voteRequest candidate logId round =>
    simp only [absorb, onMessage, onVoteRequest]
    split
    · exact .nothing
    · exact .vote ‹_›
  | entriesRequest follower logId =>
    simp only [absorb, onMessage, onEntriesRequest]
    split
    · rename_i hl
      split
      · exact .nothing
      · exact .handOut hl ‹_›
    · exact .nothing
  | roundRequest method command round =>
    have h : (n.roundOutcome method command).2 = { n with
        store := (n.roundOutcome method command).2.store
        provisional := (n.roundOutcome method command).2.provisional } := by
      cases method with
      | get => rfl
      | post =>
        simp only [roundOutcome, appendCommand, useStore]
        cases (n.store.append command n.clock.today).1 <;> rfl
    simp only [absorb, onMessage, onRoundRequest]
    rw [h]
    exact .attend
  | deleteEntry logId =>
    simp only [absorb, onMessage, onDeleteEntry]
    split
    · exact .delete ‹_›
    · exact .nothing

theorem Absorbed.same {sender : MemberId} {m : Message} {n n' : Node}
    (h : Absorbed sender n m n') : Same n n' ∧ n'.standing = n.standing := by
  cases h <;> exact ⟨⟨rfl, rfl, rfl, rfl, rfl⟩, rfl⟩

/-- A message that writes nothing leaves the store as it is. -/
theorem Absorbed.keeps {sender : MemberId} {m : Message} {n n' : Node} (h : Absorbed sender n m n')
    (hk : m.kind.isWriting = false) :
    n'.store = n.store ∧ n'.provisional = n.provisional := by
  cases h with
  | insert => cases hk
  | attend => cases hk
  | apply => cases hk
  | delete => cases hk
  | _ => exact ⟨rfl, rfl⟩

/-- What a node sends in reply to a message. -/
inductive Replies (sender : MemberId) (n : Node) : Message → Delivery → Prop
  | vote {candidate : MemberId} {logId own : Nat} {round : Option Nat} {d : Delivery}
      (hl : n.lastId = .ok own) (hp : d.peer = candidate)
      (hm : d.message = .vote n.id (Ballot.grants own logId) round) :
      Replies sender n (.voteRequest candidate logId round) d
  | batch {follower : MemberId} {logId : Nat} {entries : List Entry} {d : Delivery}
      (hl : n.leads = true) (he : n.store.entriesBeyond logId = .ok entries)
      (hp : d.peer = follower) (hm : d.message = .batch n.id entries) :
      Replies sender n (.entriesRequest follower logId) d
  | roundAnswer {method : Method} {command : Command} {round : Option Nat} {d : Delivery}
      (hp : d.peer = sender)
      (hm : d.message = .roundAnswer (outcomeDigest (n.roundOutcome method command).1) round) :
      Replies sender n (.roundRequest method command round) d

/-- Whatever is sent while a message is taken in goes to a connected peer and replies to it. -/
theorem Absorbed.sends {sender : MemberId} {m : Message} {n n' : Node} (h : Absorbed sender n m n')
    {d : Delivery} (hd : d ∈ n'.outbox) :
    d ∈ n.outbox ∨ d.peer ∈ n.directory.peers ∧ Replies sender n m d := by
  have hs {peer : MemberId} {msg : Message}
      (hr : d.peer = peer → d.message = msg → Replies sender n m d)
      (hd : d ∈ n.outbox ++ (n.directory.dispatch peer msg).toList) :
      d ∈ n.outbox ∨ d.peer ∈ n.directory.peers ∧ Replies sender n m d := by
    refine (List.mem_append.mp hd).imp_right fun hd => ?_
    obtain ⟨hp, hmem, hmsg⟩ := mem_peers_of_dispatch hd
    exact ⟨hp ▸ hmem, hr hp hmsg⟩
  cases h with
  | vote hl => exact hs (.vote hl) hd
  | handOut hl he => exact hs (.batch hl he) hd
  | attend => exact hs .roundAnswer hd
  | _ => exact .inl hd

theorem deeds_onMessage (sender : MemberId) (m : Message) (n : Node) :
    Deeds m.occasion (n.absorb sender m) (n.onMessage sender m) := by
  cases m with
  | vote voter accept round =>
    simp only [absorb, onMessage, onVote]
    split
    · exact deeds_decideElection rfl _
    · exact .refl
  | roundAnswer digest round =>
    simp only [absorb, onMessage, onRoundAnswer]
    cases n.round with
    | none => exact .refl
    | some r =>
      dsimp only
      split
      · exact .refl
      · exact (deeds_decideRound _).trans (deeds_proceed _)
  | announcement leader => exact deeds_onAnnouncement leader n
  | heartbeat leader logId => exact deeds_onHeartbeat leader logId n
  | _ => exact .refl

end Node
end Accord
