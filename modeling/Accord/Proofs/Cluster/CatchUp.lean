import Accord.Proofs.Cluster.Reign
import Accord.Proofs.Message.RoundTrip
import Accord.Proofs.Node.Acts
import Accord.Proofs.Node.Batches

/-! # Catching up

A leader hands out its entries behind any id that it is asked for, at any time, and the batches may
be lost, come late, twice or in any order. As long as its log only grows, every batch is a part of
the log as it was when the batch was written. So the log of a follower that takes in such batches is
always a part of the leader's, each entry is replayed once when it is appended, and a batch that was
asked for from the end of the follower's log or before it brings the follower to where the leader
was. -/
namespace Accord

namespace Node

variable {o : Occasion} {n m : Node}

/-! ## Nodes without operations -/

theorem Deed.idle (hd : Deed o n m) (hn : n.outstanding = []) :
    m.outstanding = [] ∧ m.store = n.store := by
  obtain ⟨hround, hqueue⟩ := outstanding_eq_nil.mp hn
  cases hd with
  | begin hq => rw [hqueue] at hq; cases hq
  | succeed hr => rw [hround] at hr; cases hr
  | fail hr => rw [hround] at hr; cases hr
  | dismiss _ _ hq => rw [hqueue] at hq; cases hq
  | _ => exact ⟨hn, rfl⟩

theorem Deeds.idle (hd : Deeds o n m) (hn : n.outstanding = []) :
    m.outstanding = [] ∧ m.store = n.store := by
  induction hd with
  | refl => exact ⟨hn, rfl⟩
  | tail _ hd ih =>
    obtain ⟨hout, hstore⟩ := hd.idle ih.1
    exact ⟨hout, hstore.trans ih.2⟩

theorem Absorbed.idle {sender : MemberId} {msg : Message} (h : Absorbed sender n msg m)
    (hn : n.outstanding = []) : m.outstanding = [] := by
  cases h with
  | count hr =>
    rw [(outstanding_eq_nil.mp hn).1] at hr
    cases hr
  | _ => exact hn

theorem Says.kind_ne {msg : Message} (hs : Says o n m msg) : msg.kind ≠ .batch := by
  cases hs <;> exact Message.Kind.noConfusion

end Node

namespace Stimulus

variable {s : Stimulus} {n : Node}

theorem react_id (s : Stimulus) (n : Node) : (s.react n).id = n.id :=
  congrArg Topology.self (s.react_same n).topology

theorem ready_react (s : Stimulus) (h : n.store.Ready) : (s.react n).store.Ready := by
  have hready (event : Event) : (n.handle event).store.Ready := (Node.steps_handle event n).ready h
  cases s with
  | campaign => exact hready .campaign
  | tick => exact (Node.steps_tickAt n.clock.now n).ready h
  | client op => exact hready (.client op)
  | connected peer => exact hready (.connected peer)
  | disconnected peer => exact hready (.disconnected peer)
  | message sender m =>
    rw [react]
    exact hready (.frame sender m.text)

theorem intake_idle (hc : ∀ op, s = .client op → n.leads = false) (hn : n.outstanding = []) :
    (s.intake n).outstanding = [] := by
  cases s with
  | client op =>
    rw [intake, hc op rfl]
    exact hn
  | message sender m =>
    simp only [intake]
    split
    · exact (Node.absorbed _ _ _).idle hn
    · exact hn
  | _ => exact hn

/-- A node without operations that nobody tells to write leaves its store as it is. -/
theorem Harmless.idle (h : s.Harmless) (hc : ∀ op, s = .client op → n.leads = false)
    (hn : n.outstanding = []) : (s.react n).outstanding = [] ∧ (s.react n).store = n.store := by
  obtain ⟨hout, hstore⟩ := (s.deeds_react n).idle (intake_idle hc hn)
  exact ⟨hout, hstore.trans (h.keeps n).1⟩

/-! ## Batches -/

/-- The id behind which a node is asked for its entries. -/
def asks? : Stimulus → Option Nat
  | .message _ (.entriesRequest _ logId) => some logId
  | _ => none

theorem asks?_of_ofText {sender follower : MemberId} {k : Nat} {m : Message}
    (h : Message.ofText m.text = .ok (.entriesRequest follower k)) :
    (Stimulus.message sender m).asks? = some k := by
  have hk := Message.kind_of_ofText h
  cases m with
  | entriesRequest => cases Message.ofText_entriesRequest h; rfl
  | _ => cases hk

/-- A node sends a batch only in reply to a request, with the entries that it has then. -/
theorem batch_of_react {d : Delivery} (hd : d ∈ (s.react n).outbox)
    (hk : d.message.kind = .batch) :
    d ∈ n.outbox ∨ ∃ k entries, s.asks? = some k ∧ n.store.entriesBeyond k = .ok entries ∧
      d.message = .batch n.id entries := by
  refine (sends hd).imp_right ?_
  rintro ⟨_, hc⟩
  cases hc with
  | deed _ hs => exact absurd hk hs.kind_ne
  | reply hs hm hr =>
    subst hs
    cases hr with
    | vote _ _ hm' => rw [hm'] at hk; cases hk
    | roundAnswer _ hm' => rw [hm'] at hk; cases hk
    | batch _ he _ hm' => exact ⟨_, _, asks?_of_ofText hm, he, hm'⟩

/-- What a batch does to a node without operations. -/
theorem react_batch {m : Message} {leader : MemberId} {entries : List Entry}
    (hm : Message.ofText m.text = .ok (.batch leader entries)) (hn : n.outstanding = [])
    (sender : MemberId) :
    ((message sender m).react n).outstanding = [] ∧
      ((message sender m).react n).store = (Node.insertMissing entries n.store).2 := by
  simp only [react, Node.onFrame, hm]
  exact (Node.deeds_onMessage sender (.batch leader entries) n).idle hn

end Stimulus

/-! ## A leader and a follower -/

/-- A message with the id that its sender was asked for and the log that the sender had then. -/
structure Letter where
  message : Message
  asked : Option Nat
  log : Log

/-- A batch with what a leader had behind the id that it was asked for. The leader has it still. -/
def Letter.Holds (letter : Letter) (l : Node) : Prop :=
  ∃ k, letter.asked = some k ∧ letter.message = .batch l.id (letter.log.drop k) ∧
    letter.log <+: l.store.log

/-- What a node sends when something happens to it. -/
def Stimulus.letters (s : Stimulus) (n : Node) : List Letter :=
  (s.react n).outbox.map fun d => ⟨d.message, s.asks?, n.store.log⟩

/-- A leader and a follower with a part of the leader's log. -/
structure Paired (l f : Node) : Prop where
  leader : l.store.Ready
  follower : f.store.Ready
  behind : f.store.log <+: l.store.log
  idle : f.outstanding = []
  quiet : l.outbox = []
  word : l.id < Text.wordLimit

/-- What may become of a leader `l₀` and a follower `f₀`, and what the leader has sent. Anything may
happen to the leader that leaves it the entries that it has. Nothing but a batch of the leader tells
the follower to write. Each batch may come at any time, any number of times, or never. -/
inductive Pursuit (l₀ f₀ : Node) : Node → Node → List Letter → Prop
  | start : Pursuit l₀ f₀ l₀ f₀ []
  | lead {l f : Node} {letters : List Letter} (p : Pursuit l₀ f₀ l f letters) (s : Stimulus)
      (hg : l.store.log <+: (s.react l).store.log) :
      Pursuit l₀ f₀ (s.react l).collect.2 f (letters ++ s.letters l)
  | follow {l f : Node} {letters : List Letter} (p : Pursuit l₀ f₀ l f letters) (s : Stimulus)
      (hs : s.Harmless) (hc : ∀ op, s = .client op → f.leads = false) :
      Pursuit l₀ f₀ l (s.react f) letters
  | receive {l f : Node} {letters : List Letter} (p : Pursuit l₀ f₀ l f letters) {letter : Letter}
      (hm : letter ∈ letters) (hk : letter.message.kind = .batch) (sender : MemberId) :
      Pursuit l₀ f₀ l ((Stimulus.message sender letter.message).react f) letters
  | rewire {l f : Node} {letters : List Letter} (p : Pursuit l₀ f₀ l f letters)
      (directories : Directory × Directory) (clocks : Clock × Clock) :
      Pursuit l₀ f₀ { l with directory := directories.1, clock := clocks.1 }
        { f with directory := directories.2, clock := clocks.2 } letters

variable {l₀ f₀ l f : Node} {letters : List Letter} {letter : Letter}

theorem Letter.Holds.grow (h : letter.Holds l) {l' : Node} (hid : l'.id = l.id)
    (hg : l.store.log <+: l'.store.log) : letter.Holds l' := by
  obtain ⟨k, hk, hm, hp⟩ := h
  exact ⟨k, hk, by rw [hid, hm], hp.trans hg⟩

/-- A node that loses none of its entries answers with what it has. -/
theorem Paired.holds_letters (h : Paired l f) {s : Stimulus}
    (hg : l.store.log <+: (s.react l).store.log) (hm : letter ∈ s.letters l)
    (hk : letter.message.kind = .batch) : letter.Holds (s.react l).collect.2 := by
  obtain ⟨d, hd, rfl⟩ := List.mem_map.mp hm
  rcases Stimulus.batch_of_react hd hk with hold | ⟨k, entries, hasked, hentries, hmsg⟩
  · rw [h.quiet] at hold
    cases hold
  · -- a request is answered before the node does anything else, from the log that it had
    rw [h.leader.entriesBeyond] at hentries
    cases hentries
    rw [← s.react_id l] at hmsg
    exact ⟨k, hasked, hmsg, hg⟩

/-- The log and the tables of a follower after a batch of the leader. -/
theorem Paired.receive (h : Paired l f) (he : ∀ e ∈ l.store.log, e.isPortable = true)
    (hl : letter.Holds l) (sender : MemberId) :
    ∃ k, letter.asked = some k ∧
      ((Stimulus.message sender letter.message).react f).outstanding = [] ∧
      ((Stimulus.message sender letter.message).react f).store = { f.store with
        log := f.store.log ++ Node.newEntries k letter.log f.store
        tables := (Node.newEntries k letter.log f.store).foldl Entry.replay f.store.tables } := by
  obtain ⟨k, hk, hm, hp⟩ := hl
  have hread : Message.ofText letter.message.text = .ok (.batch l.id (letter.log.drop k)) := by
    rw [hm]
    exact Message.ofText_text_batch h.word fun e hmem => he e (hp.mem (List.mem_of_mem_drop hmem))
  have hnumbered : letter.log.Numbered := h.leader.numbered.of_isPrefix hp
  obtain ⟨hout, hstore⟩ := Stimulus.react_batch hread h.idle sender
  exact ⟨k, hk, hout, hstore.trans (Node.insertMissing_drop h.follower hnumbered k)⟩

theorem newEntries_isPrefix (h : f.store.log <+: l.store.log) (hp : letter.log <+: l.store.log)
    (k : Nat) : f.store.log ++ Node.newEntries k letter.log f.store <+: l.store.log := by
  unfold Node.newEntries
  split
  · exact Log.splice_isPrefix h hp
  · rwa [List.append_nil]

theorem le_length_newEntries {log : Log} {s : Store} {k : Nat} (hk : k ≤ s.log.length) :
    log.length ≤ (s.log ++ Node.newEntries k log s).length := by
  rw [Node.newEntries, if_pos hk, List.length_append, List.length_drop]
  omega

/-- The follower has a part of the leader's log and has replayed each of the entries that it took
in, and the leader's batches are parts of its log. -/
structure Trailing (f₀ l f : Node) (letters : List Letter) : Prop extends Paired l f where
  replayed : ∃ added, f.store.log = f₀.store.log ++ added ∧
    f.store.tables = added.foldl Entry.replay f₀.store.tables
  held : ∀ letter ∈ letters, letter.message.kind = .batch → letter.Holds l

theorem Trailing.lead (h : Trailing f₀ l f letters) {s : Stimulus}
    (hg : l.store.log <+: (s.react l).store.log) :
    Trailing f₀ (s.react l).collect.2 f (letters ++ s.letters l) where
  leader := s.ready_react h.leader
  follower := h.follower
  behind := h.behind.trans hg
  idle := h.idle
  quiet := rfl
  word := (s.react_id l).symm ▸ h.word
  replayed := h.replayed
  held := by
    intro letter hm hk
    rcases List.mem_append.mp hm with hm | hm
    · exact (h.held letter hm hk).grow (s.react_id l) hg
    · exact h.holds_letters hg hm hk

theorem Trailing.follow (h : Trailing f₀ l f letters) {f' : Node} (hout : f'.outstanding = [])
    (hstore : f'.store = f.store) : Trailing f₀ l f' letters where
  leader := h.leader
  follower := hstore ▸ h.follower
  behind := hstore ▸ h.behind
  idle := hout
  quiet := h.quiet
  word := h.word
  replayed := hstore ▸ h.replayed
  held := h.held

theorem Trailing.receive (h : Trailing f₀ l f letters)
    (he : ∀ e ∈ l.store.log, e.isPortable = true) (hm : letter ∈ letters)
    (hk : letter.message.kind = .batch) (sender : MemberId) :
    Trailing f₀ l ((Stimulus.message sender letter.message).react f) letters := by
  have hl := h.held letter hm hk
  obtain ⟨k, _, hout, hstore⟩ := h.toPaired.receive he hl sender
  obtain ⟨_, _, _, hp⟩ := hl
  obtain ⟨added, hlog, htables⟩ := h.replayed
  have hbehind := newEntries_isPrefix h.behind hp k
  refine ⟨⟨h.leader, ?_, ?_, hout, h.quiet, h.word⟩, ?_, h.held⟩
  · rw [hstore]
    exact ⟨h.follower.available, h.follower.alone, h.leader.numbered.of_isPrefix hbehind⟩
  · rw [hstore]
    exact hbehind
  · rw [hstore]
    refine ⟨added ++ Node.newEntries k letter.log f.store, ?_, ?_⟩
    · rw [hlog, List.append_assoc]
    · rw [htables, List.foldl_append]

theorem Pursuit.trailing (p : Pursuit l₀ f₀ l f letters) (h₀ : Paired l₀ f₀)
    (he : ∀ e ∈ l.store.log, e.isPortable = true) : Trailing f₀ l f letters := by
  induction p with
  | start => exact ⟨h₀, ⟨[], by simp, rfl⟩, by simp⟩
  | lead _ s hg ih =>
    -- the leader loses nothing, so its earlier entries are among those of the assumption
    exact (ih fun x hx => he x (hg.mem hx)).lead hg
  | follow _ s hs hc ih =>
    obtain ⟨hout, hstore⟩ := hs.idle hc (ih he).idle
    exact (ih he).follow hout hstore
  | receive _ hm hk sender ih => exact (ih he).receive he hm hk sender
  | rewire _ directories clocks ih =>
    obtain ⟨⟨hl, hf, hb, hi, hq, hw⟩, hr, hh⟩ := ih he
    exact ⟨⟨hl, hf, hb, hi, hq, hw⟩, hr, hh⟩

/-- The log of a follower stays a part of the leader's, and its tables are what the entries make of
them that it has taken in, one by one and once each. Each batch answers a request; a follower with
all entries up to the id of that request has, after the batch, at least as many as the leader had
when it was asked. -/
theorem follower_catches_up (h₀ : Paired l₀ f₀) (p : Pursuit l₀ f₀ l f letters)
    (he : ∀ e ∈ l.store.log, e.isPortable = true) :
    f.store.log <+: l.store.log ∧
    (∃ added, f.store.log = f₀.store.log ++ added ∧
      f.store.tables = added.foldl Entry.replay f₀.store.tables) ∧
    ∀ letter ∈ letters, letter.message.kind = .batch →
      ∃ k, letter.asked = some k ∧ ∀ sender own, f.lastId = .ok own → k ≤ own →
        ∃ latest, ((Stimulus.message sender letter.message).react f).lastId = .ok latest ∧
          letter.log.length ≤ latest := by
  have h := p.trailing h₀ he
  refine ⟨h.behind, h.replayed, ?_⟩
  intro letter hm hk
  obtain ⟨k, hasked, _⟩ := h.held letter hm hk
  refine ⟨k, hasked, ?_⟩
  intro sender own hown hle
  obtain ⟨k', hasked', _, hstore⟩ := h.toPaired.receive he (h.held letter hm hk) sender
  cases hasked.symm.trans hasked'
  cases h.follower.lastId.symm.trans hown
  refine ⟨_, (h.receive he hm hk sender).follower.lastId, ?_⟩
  rw [hstore]
  exact le_length_newEntries hle

/-- The first of two nodes, which leads. -/
def chief : Node :=
  (Node.ofTwo.handleAll
    [.campaign, .frame 2 (Message.text (.vote 2 true (some 1)))]).collect.2

/-- The second of two nodes, started and connected with the first one. -/
def newcomer : Node :=
  { (Node.new ⟨2, 2, Nat.two_pos, Nat.le_refl 2⟩ .standard ⟨0, ⟨2024, 1, 1, 0, 0⟩⟩
      (.loaded 1) .empty).start with
    directory := (Directory.empty.register 1).2 }

def tableProposal : Stimulus := .client ⟨0, .post, ⟨"CREATE TABLE t (v INT)", none⟩⟩

def entriesQuestion : Stimulus := .message 2 (.entriesRequest 2 0)

/-- The leader after it has put a write to the vote. -/
def proposer : Node := (tableProposal.react chief).collect.2

/-- The leader after it has been asked for its entries. -/
def replier : Node := (entriesQuestion.react proposer).collect.2

theorem chief_newcomer_paired : Paired chief newcomer := by
  have hfacts : (chief.store.available = true ∧ chief.store.rivals = .none ∧ chief.store.log = []) ∧
      (newcomer.store.available = true ∧ newcomer.store.rivals = .none ∧ newcomer.store.log = []) ∧
      newcomer.outstanding.length = 0 ∧ chief.outbox.length = 0 ∧ chief.id < Text.wordLimit := by
    decide +kernel
  obtain ⟨⟨ha, hr, hl⟩, ⟨ha', hr', hl'⟩, hi, hq, hw⟩ := hfacts
  refine ⟨⟨ha, hr, ?_⟩, ⟨ha', hr', ?_⟩, ?_, List.length_eq_zero_iff.mp hi,
    List.length_eq_zero_iff.mp hq, hw⟩
  · rw [hl]
    exact Log.numbered_nil
  · rw [hl']
    exact Log.numbered_nil
  · rw [hl']
    exact List.nil_prefix

/-- A leader hands out the entry of a write to a follower that has none. -/
theorem newcomer_catches_up : ∃ letters, Pursuit chief newcomer replier newcomer letters ∧
    newcomer.lastId = .ok 0 ∧ ∃ letter ∈ letters, letter.message.kind = .batch ∧
      letter.asked = some 0 ∧ letter.log.length = 1 ∧
      ∃ latest, ((Stimulus.message 1 letter.message).react newcomer).lastId = .ok latest ∧
        1 ≤ latest := by
  have hfacts : chief.store.log <+: (tableProposal.react chief).store.log ∧
      proposer.store.log <+: (entriesQuestion.react proposer).store.log ∧
      (∀ e ∈ replier.store.log, e.isPortable = true) ∧
      newcomer.lastId = .ok 0 ∧
      ∃ letter ∈ entriesQuestion.letters proposer, letter.message.kind = .batch ∧
        letter.asked = some 0 ∧ letter.log.length = 1 := by
    decide +kernel
  obtain ⟨hgrow, hgrow', hportable, hown, letter, hm, hk, hasked, hlog⟩ := hfacts
  have p₁ : Pursuit chief newcomer proposer newcomer ([] ++ tableProposal.letters chief) :=
    .lead .start tableProposal hgrow
  have p : Pursuit chief newcomer replier newcomer
      ([] ++ tableProposal.letters chief ++ entriesQuestion.letters proposer) :=
    .lead p₁ entriesQuestion hgrow'
  have hmem := List.mem_append_right ([] ++ tableProposal.letters chief) hm
  obtain ⟨k, hk', hlatest⟩ :=
    (follower_catches_up chief_newcomer_paired p hportable).2.2 letter hmem hk
  obtain rfl := Option.some.inj (hasked.symm.trans hk')
  obtain ⟨latest, hlast, hle⟩ := hlatest 1 0 hown (Nat.le_refl 0)
  rw [hlog] at hle
  exact ⟨_, p, hown, letter, hmem, hk, hasked, hlog, latest, hlast, hle⟩

end Accord
