import Accord.Proofs.Cluster.Links
import Accord.Proofs.Cluster.Reign
import Accord.Proofs.Node.Operations
import Accord.Proofs.Store.Log

/-! # The leader's books

While clients only write, a leader whose store is in reach does one of five things with each deed:
nothing that concerns its log, refuse an operation, propose an entry, commit it or take it out
again. `Ledger` is what its log then amounts to, the settled entries and the one that is put to the
vote; the messages to a peer tell how the ledger changes, and each settled entry is one that its
client was told of. -/
namespace Accord

/-- The log of a leader: what is settled, and what is put to the vote. -/
structure Ledger where
  settled : Log
  pending : Option Entry

namespace Ledger

/-- What a message of the leader says about its ledger before and after. -/
inductive Step : Ledger → Message → Ledger → Prop
  | ask {log : Log} {e : Entry} {command : Command} (round : Option Nat)
      (hid : e.id = log.length + 1) (ht : e.command = command.text) :
      Step ⟨log, none⟩ (.roundRequest .post command round) ⟨log, some e⟩
  | apply {log : Log} {e : Entry} : Step ⟨log, some e⟩ (.applyEntry e.id) ⟨log ++ [e], none⟩
  | delete {log : Log} {e : Entry} : Step ⟨log, some e⟩ (.deleteEntry e.id) ⟨log, none⟩
  | batch {log : Log} (leader : MemberId) (k : Nat) :
      Step ⟨log, none⟩ (.batch leader (log.drop k)) ⟨log, none⟩
  | empty {g : Ledger} (leader : MemberId) : Step g (.batch leader []) g
  | other {g : Ledger} {m : Message} (hm : m.kind.isWriting = false) : Step g m g

/-- What several messages say about the ledger before and after them. -/
inductive Flow : Ledger → List Message → Ledger → Prop
  | nil {g : Ledger} : Flow g [] g
  | cons {g g' g'' : Ledger} {m : Message} {q : List Message} (h : Step g m g')
      (hq : Flow g' q g'') : Flow g (m :: q) g''

theorem Flow.append {g g' g'' : Ledger} {q q' : List Message} (h : Flow g q g')
    (h' : Flow g' q' g'') : Flow g (q ++ q') g'' := by
  induction h with
  | nil => exact h'
  | cons hs _ ih => exact .cons hs (ih h')

theorem Flow.single {g g' : Ledger} {m : Message} (h : Step g m g') : Flow g [m] g' := .cons h .nil

/-- The ids of a ledger are those of a log. -/
def Sound (g : Ledger) : Prop := Log.Numbered (g.settled ++ g.pending.toList)

theorem Sound.settled {g : Ledger} (h : g.Sound) : g.settled.Numbered := Log.Numbered.left h

theorem Step.sound {g g' : Ledger} {m : Message} (h : Step g m g') (hg : g.Sound) : g'.Sound := by
  cases h with
  | ask _ hid => exact Log.numbered_concat.mpr ⟨hg.settled, hid⟩
  | apply => simpa [Sound] using hg
  | delete => simpa [Sound] using hg.settled
  | batch => exact hg
  | empty => exact hg
  | other => exact hg

/-! ## Missing messages -/

/-- A ledger goes on without dropping the entry of an id. -/
structure Spares (k : Option Nat) (g g' : Ledger) : Prop where
  settled : g.settled <+: g'.settled
  pending : ∀ e, g.pending = some e → k = some e.id →
    g' = g ∨ g.settled ++ [e] <+: g'.settled

theorem Spares.refl (k : Option Nat) (g : Ledger) : Spares k g g :=
  ⟨List.prefix_refl _, fun _ _ _ => .inl rfl⟩

theorem Spares.trans {k : Option Nat} {g g' g'' : Ledger} (h : Spares k g g')
    (h' : Spares k g' g'') : Spares k g g'' where
  settled := h.settled.trans h'.settled
  pending e he hk := by
    rcases h.pending e he hk with rfl | hp
    · exact h'.pending e he hk
    · exact .inr (hp.trans h'.settled)

theorem Step.spares {k : Option Nat} {g g' : Ledger} {m : Message} (h : Step g m g')
    (hm : ∀ id, k = some id → m ≠ .deleteEntry id) : Spares k g g' := by
  cases h with
  | ask => exact ⟨List.prefix_refl _, fun _ h => by cases h⟩
  | apply =>
    refine ⟨List.prefix_append _ _, fun e he _ => .inr ?_⟩
    cases he
    exact List.prefix_refl _
  | delete =>
    refine ⟨List.prefix_refl _, fun e he hk => ?_⟩
    cases he
    exact absurd rfl (hm _ hk)
  | batch => exact .refl k _
  | empty => exact .refl k _
  | other => exact .refl k _

theorem Flow.spares {k : Option Nat} {g g' : Ledger} {q : List Message} (h : Flow g q g')
    (hq : ∀ id, k = some id → .deleteEntry id ∉ q) : Spares k g g' := by
  induction h with
  | nil => exact .refl k _
  | cons hs _ ih =>
    refine (hs.spares fun id hk hm => hq id hk ?_).trans (ih fun id hk hm => hq id hk ?_)
    · rw [hm]
      exact .head _
    · exact .tail _ hm

end Ledger

namespace Node

def ledger (n : Node) : Ledger :=
  match n.round with
  | none => ⟨n.store.log, none⟩
  | some _ => ⟨n.store.log.dropLast, n.store.log.getLast?⟩

theorem ledger_of_none {n : Node} (h : n.round = none) : n.ledger = ⟨n.store.log, none⟩ := by
  rw [ledger, h]

theorem ledger_of_some {n : Node} {r : Round} {log : Log} {e : Entry} (h : n.round = some r)
    (hl : n.store.log = log ++ [e]) : n.ledger = ⟨log, some e⟩ := by
  rw [ledger, h, hl]
  simp

/-- A node that only writes. -/
structure Writing (n : Node) : Prop where
  ready : n.store.Ready
  queue : ∀ op ∈ n.queue, op.method = .post
  round : ∀ r, n.round = some r → r.op.method = .post ∧ ∃ log e, n.store.log = log ++ [e] ∧
    r.logId = some e.id ∧ e.command = r.op.command.text

theorem Writing.sound {n : Node} (h : n.Writing) : n.ledger.Sound := by
  cases hr : n.round with
  | none =>
    rw [ledger_of_none hr, Ledger.Sound]
    simpa using h.ready.numbered
  | some r =>
    obtain ⟨_, log, e, hlog, _⟩ := h.round r hr
    rw [ledger_of_some hr hlog, Ledger.Sound]
    exact hlog ▸ h.ready.numbered

/-- The log is what the ledger says. -/
theorem Writing.log_eq {n : Node} (h : n.Writing) {r : Round} (hr : n.round = some r) :
    n.store.log = n.ledger.settled ++ n.ledger.pending.toList := by
  obtain ⟨_, log, e, hlog, _⟩ := h.round r hr
  rw [ledger_of_some hr hlog]
  exact hlog

/-- What a deed does to a node that only writes. -/
inductive Effect (n : Node) : Node → Prop
  | quiet {m : Node} (hs : m.store = n.store) (hr : m.round = n.round) (hq : m.queue = n.queue)
      (ha : m.answers = n.answers)
      (ho : m.outbox = n.outbox ∨ ∃ msg : Message, msg.kind.isWriting = false ∧
        (m.outbox = n.outbox ++ n.directory.broadcast msg ∨
          ∃ peer, m.outbox = n.outbox ++ (n.directory.dispatch peer msg).toList)) : Effect n m
  | refuse {op : Operation} {rest : List Operation} (e : ReplyError) (hr : n.round = none)
      (hq : n.queue = op :: rest) : Effect n ((n.setQueue rest).answer op (.error e))
  | propose {op : Operation} {rest : List Operation} {r : Round} {e : Entry}
      (hq : n.queue = op :: rest) (hr : n.round = none) (hm : op.method = .post)
      (hid : e.id = n.store.log.length + 1) (ht : e.command = op.command.text) (hop : r.op = op)
      (hl : r.logId = some e.id) : Effect n { n with
        queue := rest
        lastRound := n.lastRound + 1
        outbox := n.outbox ++ n.directory.broadcast (n.roundRequest op)
        store := { n.store with log := n.store.log ++ [e] }
        round := some r }
  | commit {r : Round} {log : Log} {e : Entry} (data : Json) (hr : n.round = some r)
      (hlog : n.store.log = log ++ [e]) (ht : e.command = r.op.command.text) : Effect n { n with
        round := none
        store := { n.store with tables := e.replay n.store.tables }
        outbox := n.outbox ++ n.directory.broadcast (.applyEntry e.id)
        answers := n.answers ++ [⟨r.op.number, .ok data⟩] }
  | retract {r : Round} {log : Log} {e : Entry} (error : ReplyError) (hr : n.round = some r)
      (hlog : n.store.log = log ++ [e]) : Effect n { n with
        round := none
        store := { n.store with log }
        outbox := n.outbox ++ n.directory.broadcast (.deleteEntry e.id)
        answers := n.answers ++ [⟨r.op.number, .error error⟩] }

theorem Deed.effect {o : Occasion} {n m : Node} (h : Deed o n m) (hw : n.Writing) : Effect n m := by
  cases h with
  | win => exact .quiet rfl rfl rfl rfl (.inr ⟨_, rfl, .inl rfl⟩)
  | reign => exact .quiet rfl rfl rfl rfl (.inr ⟨_, rfl, .inl rfl⟩)
  | stand => exact .quiet rfl rfl rfl rfl (.inr ⟨_, rfl, .inl rfl⟩)
  | sign => exact .quiet rfl rfl rfl rfl (.inr ⟨_, rfl, .inl rfl⟩)
  | greet peer => exact .quiet rfl rfl rfl rfl (.inr ⟨_, rfl, .inr ⟨peer, rfl⟩⟩)
  | ask leader => exact .quiet rfl rfl rfl rfl (.inr ⟨_, rfl, .inr ⟨leader, rfl⟩⟩)
  | @begin _ op rest hq hr hl ho =>
    have hpost : op.method = .post := hw.queue op (by rw [hq]; simp)
    have happend : (n.setQueue rest).appendCommand op.command = (.ok (n.store.log.length + 1),
        { n.setQueue rest with store := { n.store with
          log := n.store.log ++ [⟨n.store.log.length + 1, op.command.text, n.clock.today⟩] } }) := by
      have hs := hw.ready.appendText op.command.text n.clock.today
      simp only [appendCommand, useStore, Store.append, setQueue, hs]
    cases ho with
    | cutOff => exact .refuse _ hr hq
    | read _ hm => rw [hpost] at hm; cases hm
    | unwritten _ _ ha => rw [happend] at ha; cases ha
    | write _ _ ha =>
      rw [happend] at ha ⊢
      cases ha
      exact .propose hq hr hpost rfl rfl rfl rfl
  | succeed hr _ hc =>
    obtain ⟨hpost, log, e, hlog, hid, ht⟩ := hw.round _ hr
    have happly : n.store.log.withId? e.id = some e := by
      have hn := hw.ready.numbered
      rw [hlog] at hn ⊢
      exact hn.withId?_last
    cases hc with
    | read hm => rw [hpost] at hm; cases hm
    | void _ hl => rw [hid] at hl; cases hl
    | write _ hl ha =>
      obtain rfl := Option.some.inj (hid.symm.trans hl)
      rw [hw.ready.apply, happly]
      exact .commit _ hr hlog ht
    | unwritten _ hl ha =>
      obtain rfl := Option.some.inj (hid.symm.trans hl)
      rw [Store.apply_error ha, hw.ready.truncate, hlog, Log.truncate_last]
      exact .retract _ hr hlog
  | fail hr hd =>
    obtain ⟨_, log, e, hlog, hid, _⟩ := hw.round _ hr
    cases hd with
    | read hl => rw [hid] at hl; cases hl
    | write hl =>
      obtain rfl := Option.some.inj (hid.symm.trans hl)
      rw [hw.ready.truncate, hlog, Log.truncate_last]
      exact .retract _ hr hlog
  | dismiss e hr hq => exact .refuse e hr hq
  | _ => exact .quiet rfl rfl rfl rfl (.inl rfl)

theorem Effect.writing {n m : Node} (h : Effect n m) (hw : n.Writing) : m.Writing := by
  cases h with
  | quiet hs hr hq =>
    refine ⟨hs ▸ hw.ready, hq ▸ hw.queue, ?_⟩
    rw [hr, hs]
    exact hw.round
  | refuse e hr hq =>
    exact ⟨hw.ready, fun op hop => hw.queue op (by rw [hq]; exact .tail _ hop), hw.round⟩
  | propose hq hr hm hid ht hop hl =>
    refine ⟨hw.ready.grow hid, fun op hop => hw.queue op (by rw [hq]; exact .tail _ hop), ?_⟩
    intro r hr
    cases hr
    exact ⟨hop ▸ hm, _, _, rfl, hl, hop ▸ ht⟩
  | commit data hr hlog =>
    refine ⟨⟨hw.ready.available, hw.ready.alone, hw.ready.numbered⟩, hw.queue, ?_⟩
    rintro _ ⟨⟩
  | retract error hr hlog =>
    have hn := hw.ready.numbered
    rw [hlog] at hn
    refine ⟨⟨hw.ready.available, hw.ready.alone, hn.left⟩, hw.queue, ?_⟩
    rintro _ ⟨⟩

theorem Deeds.writing {o : Occasion} {n m : Node} (h : Deeds o n m) (hw : n.Writing) :
    m.Writing := by
  induction h with
  | refl => exact hw
  | tail _ hd ih => exact (hd.effect ih).writing ih

/-! ## What the peers are told -/

theorem ledger_congr {n m : Node} (hs : m.store = n.store) (hr : m.round = n.round) :
    m.ledger = n.ledger := by
  rw [ledger, ledger, hs, hr]

/-- A connected peer is told how the ledger changes. -/
theorem Effect.flow {n m : Node} (h : Effect n m) (hs : Keyed.Sorted n.directory.records)
    {v : MemberId} (hv : n.directory.reaches v = true) :
    ∃ q, m.postedTo v = n.postedTo v ++ q ∧ n.ledger.Flow q m.ledger := by
  have hsend {msg : Message} (ho : m.outbox = n.outbox ++ n.directory.broadcast msg) :
      m.postedTo v = n.postedTo v ++ [msg] := by
    rw [postedTo_broadcast hs ho, if_pos hv]
  cases h with
  | quiet hstore hr _ _ ho =>
    rw [ledger_congr hstore hr]
    rcases ho with ho | ⟨msg, hk, ho | ⟨peer, ho⟩⟩
    · exact ⟨[], by rw [postedTo, ho, List.append_nil]; rfl, .nil⟩
    · exact ⟨[msg], hsend ho, .single (.other hk)⟩
    · rw [postedTo_dispatch ho]
      split
      · exact ⟨[msg], rfl, .single (.other hk)⟩
      · exact ⟨[], rfl, .nil⟩
  | refuse => exact ⟨[], (List.append_nil _).symm, .nil⟩
  | propose hq hr hm hid ht hop hl =>
    refine ⟨_, hsend rfl, ?_⟩
    rw [ledger_of_none hr, ledger_of_some rfl rfl, roundRequest, hm]
    exact .single (.ask _ hid ht)
  | commit data hr hlog =>
    refine ⟨_, hsend rfl, ?_⟩
    rw [ledger_of_some hr hlog, ledger_of_none rfl, hlog]
    exact .single .apply
  | retract error hr hlog =>
    refine ⟨_, hsend rfl, ?_⟩
    rw [ledger_of_some hr hlog, ledger_of_none rfl]
    exact .single .delete

theorem Deeds.flow {o : Occasion} {n m : Node} (h : Deeds o n m) (hw : n.Writing)
    (hs : Keyed.Sorted n.directory.records) {v : MemberId} (hv : n.directory.reaches v = true) :
    ∃ q, m.postedTo v = n.postedTo v ++ q ∧ n.ledger.Flow q m.ledger := by
  induction h with
  | refl => exact ⟨[], (List.append_nil _).symm, .nil⟩
  | tail ha hd ih =>
    obtain ⟨q, hq, hflow⟩ := ih
    have hdir := (Deeds.same ha).directory
    obtain ⟨q', hq', hflow'⟩ := (hd.effect (Deeds.writing ha hw)).flow (hdir ▸ hs) (hdir ▸ hv)
    exact ⟨q ++ q', by rw [hq', hq, List.append_assoc], hflow.append hflow'⟩

/-! ## What the clients are told -/

/-- What a node that only writes does while it is asked some operations: it answers its operations in
their order, and those of `posts` succeed, each with an entry of its own. -/
structure Booked (asked : List Operation) (posts : List (Operation × Entry)) (n m : Node) :
    Prop where
  answers : ∃ done replies, n.outstanding ++ asked = done ++ m.outstanding ∧
    (posts.map (·.1)).Sublist done ∧ m.answers = n.answers ++ replies ∧
      replies.map (·.op) = done.map (·.number) ∧
      (replies.filter (·.reply.isOk)).map (·.op) = posts.map (·.1.number)
  settled : m.ledger.settled = n.ledger.settled ++ posts.map (·.2)
  tables : m.store.tables = (posts.map (·.2)).foldl Entry.replay n.store.tables
  text : ∀ p ∈ posts, p.1.command.text = p.2.command

theorem Booked.trans {asked asked' : List Operation} {posts posts' : List (Operation × Entry)}
    {n m l : Node} (h : Booked asked posts n m) (h' : Booked asked' posts' m l) :
    Booked (asked ++ asked') (posts ++ posts') n l where
  answers := by
    obtain ⟨done, replies, ho, hsub, ha, hd, hp⟩ := h.answers
    obtain ⟨done', replies', ho', hsub', ha', hd', hp'⟩ := h'.answers
    refine ⟨done ++ done', replies ++ replies', ?_, List.map_append ▸ hsub.append hsub', ?_, ?_, ?_⟩
    · rw [← List.append_assoc, ho, List.append_assoc, ho', List.append_assoc]
    · rw [ha', ha, List.append_assoc]
    · rw [List.map_append, List.map_append, hd, hd']
    · rw [List.filter_append, List.map_append, List.map_append, hp, hp']
  settled := by rw [h'.settled, h.settled, List.map_append, List.append_assoc]
  tables := by rw [h'.tables, h.tables, List.map_append, List.foldl_append]
  text p hp := (List.mem_append.mp hp).elim (h.text p) (h'.text p)

/-- Nothing is settled, and at most some operations are asked. -/
theorem Booked.idle {asked : List Operation} {n m : Node}
    (ho : m.outstanding = n.outstanding ++ asked) (ha : m.answers = n.answers)
    (hl : m.ledger.settled = n.ledger.settled) (ht : m.store.tables = n.store.tables) :
    Booked asked [] n m :=
  ⟨⟨[], [], ho.symm, .slnil, by simp [ha], rfl, rfl⟩, by simp [hl], ht, by simp⟩

/-- The oldest operation fails. -/
theorem Booked.failed {asked rest : List Operation} {op : Operation} {e : ReplyError} {n m : Node}
    (hn : n.outstanding ++ asked = op :: rest) (hr : m.round = none) (hq : m.queue = rest)
    (ha : m.answers = n.answers ++ [⟨op.number, .error e⟩])
    (hl : m.ledger.settled = n.ledger.settled) (ht : m.store.tables = n.store.tables) :
    Booked asked [] n m :=
  ⟨⟨[op], _, by rw [hn, outstanding_of_none hr, hq]; rfl, List.nil_sublist _, ha, rfl, rfl⟩,
    by simp [hl], ht, by simp⟩

theorem Effect.booked {n m : Node} (h : Effect n m) : ∃ posts, Booked [] posts n m := by
  cases h with
  | quiet hs hr hq ha =>
    refine ⟨[], .idle ?_ ha (by rw [ledger_congr hs hr]) (by rw [hs])⟩
    rw [outstanding, outstanding, hr, hq, List.append_nil]
  | refuse e hr hq =>
    refine ⟨[], .failed ?_ hr rfl rfl rfl rfl⟩
    rw [List.append_nil, outstanding_of_none hr, hq]
    rfl
  | propose hq hr hm hid ht hop hl =>
    refine ⟨[], .idle ?_ rfl ?_ rfl⟩
    · rw [outstanding_of_none hr, outstanding_of_some rfl, hop, hq, List.append_nil]
    · rw [ledger_of_none hr, ledger_of_some rfl rfl]
  | @commit r _ e data hr hlog ht =>
    refine ⟨[(r.op, e)], ⟨[r.op], _, ?_, .refl _, rfl, rfl, rfl⟩, ?_, rfl, by simp [ht]⟩
    · rw [outstanding_of_some hr, List.append_nil]
      rfl
    · rw [ledger_of_some hr hlog, ledger_of_none rfl]
      exact hlog
  | @retract r _ e error hr hlog =>
    refine ⟨[], .failed (by rw [List.append_nil, outstanding_of_some hr]) rfl rfl rfl ?_ rfl⟩
    rw [ledger_of_some hr hlog, ledger_of_none rfl]

theorem Deeds.booked {o : Occasion} {n m : Node} (h : Deeds o n m) (hw : n.Writing) :
    ∃ posts, Booked [] posts n m := by
  induction h with
  | refl => exact ⟨[], .idle (by simp) rfl rfl rfl⟩
  | tail ha hd ih =>
    obtain ⟨posts, hb⟩ := ih
    obtain ⟨posts', hb'⟩ := (hd.effect (Deeds.writing ha hw)).booked
    exact ⟨posts ++ posts', hb.trans hb'⟩

theorem Booked.settled_prefix {asked : List Operation} {posts : List (Operation × Entry)}
    {n m : Node} (h : Booked asked posts n m) :
    n.ledger.settled <+: m.ledger.settled := by
  rw [h.settled]
  exact List.prefix_append _ _

/-- What becomes of the round in flight: it goes on or its client is told how it ended. -/
inductive Fate (r : Round) (n m : Node) : Prop
  | inFlight (hr : m.round = some r) (hl : m.ledger = n.ledger)
  | ended (replies : List Answer) (reply : Reply) (ha : m.answers = n.answers ++ replies)
      (hmem : ⟨r.op.number, reply⟩ ∈ replies)
      (hok : reply.isOk = true → n.store.log <+: m.ledger.settled)

theorem Deeds.fate {o : Occasion} {n m : Node} {r : Round} (h : Deeds o n m) (hw : n.Writing)
    (hr : n.round = some r) : Fate r n m := by
  induction h with
  | refl => exact .inFlight hr rfl
  | @tail a b ha hd ih =>
    have heffect := hd.effect (Deeds.writing ha hw)
    obtain ⟨posts, hbooked⟩ := heffect.booked
    cases ih with
    | ended _ _ has hmem hok =>
      obtain ⟨_, replies, _, _, hb, _⟩ := hbooked.answers
      refine .ended _ _ (by rw [hb, has, List.append_assoc]) (List.mem_append_left _ hmem) ?_
      exact fun h => (hok h).trans hbooked.settled_prefix
    | inFlight hra hl =>
      obtain ⟨earlier, hearlier⟩ := Deeds.booked ha hw
      obtain ⟨_, replies, _, _, hanswers, _⟩ := hearlier.answers
      cases heffect with
      | quiet hs hr' => exact .inFlight (hr'.trans hra) ((ledger_congr hs hr').trans hl)
      | refuse => exact .inFlight hra hl
      | propose _ hr' => rw [hra] at hr'; cases hr'
      | commit data hr' hlog =>
        obtain rfl := Option.some.inj (hra.symm.trans hr')
        refine .ended (replies ++ [⟨r.op.number, .ok data⟩]) (.ok data) ?_ (by simp) fun _ => ?_
        · simp only [hanswers, List.append_assoc]
        · rw [ledger_of_none rfl]
          have hsame := hw.log_eq hr
          rw [hsame, ← hl, ← (Deeds.writing ha hw).log_eq hra]
      | retract error hr' =>
        obtain rfl := Option.some.inj (hra.symm.trans hr')
        refine .ended (replies ++ [⟨r.op.number, .error error⟩]) (.error error) ?_ (by simp) ?_
        · simp only [hanswers, List.append_assoc]
        · intro h
          cases h

/-- An entry is taken out again only if its client is told so. -/
theorem Deeds.spares {o : Occasion} {n m : Node} {k : Option Nat} (h : Deeds o n m) (hw : n.Writing)
    (hk : ∀ r replies reply, n.round = some r → r.logId = k → m.answers = n.answers ++ replies →
      ⟨r.op.number, reply⟩ ∈ replies → reply.isOk = true) : n.ledger.Spares k m.ledger := by
  obtain ⟨posts, hbooked⟩ := Deeds.booked h hw
  refine ⟨hbooked.settled_prefix, fun e he hid => ?_⟩
  cases hr : n.round with
  | none =>
    rw [ledger_of_none hr] at he
    cases he
  | some r =>
    obtain ⟨_, log, x, hlog, hx, _⟩ := hw.round r hr
    have hledger := ledger_of_some hr hlog
    rw [hledger] at he
    cases he
    cases Deeds.fate h hw hr with
    | inFlight _ hl => exact .inl hl
    | ended replies reply ha hmem hok =>
      right
      rw [hledger, ← hlog]
      exact hok (hk r replies reply hr (hx.trans hid.symm) ha hmem)

end Node
end Accord
