import Accord.Proofs.Json.Value
import Accord.Proofs.Node.Operations
import Accord.Proofs.Store.Log

/-! # A write is done or undone

A leader appends the entry of a write when its round begins. As long as nobody else tells it to
write, the log keeps that entry at its end and the client is told nothing until the round is over:
then the entry is applied and the client is told the result, or it is taken out again and the client
is told an error. The client is told once. Handlers do several things one after another and may
begin the next round before they end, so this is stated of single incidents. -/
namespace Accord

/-- An event that tells a node to write to its log or its tables. -/
def Event.isWriting : Event → Bool
  | .frame _ text =>
    match Message.ofText text with
    | .ok m => m.kind.isWriting
    | .error _ => false
  | _ => false

theorem Event.isWriting_text {m : Message} (h : m.kind.isWriting = false) (sender : MemberId) :
    (Event.frame sender m.text).isWriting = false := by
  rw [isWriting]
  split
  · rename_i hm
    rw [Message.kind_of_ofText hm]
    exact h
  · rfl

namespace Node

/-- Something that happens to a node while nobody tells it to write and no client submits an
operation of this number. -/
inductive Incident (number : Nat) : Node → Node → Prop
  | deed {o : Occasion} {n m : Node} (h : Deed o n m) : Incident number n m
  | message {n : Node} {m : Message} (sender : MemberId) (hm : m.kind.isWriting = false) :
      Incident number n (n.absorb sender m)
  | enqueue {n : Node} (op : Operation) (ho : op.number ≠ number) :
      Incident number n (n.setQueue (n.queue ++ [op]))
  | refuse {n : Node} (op : Operation) (e : ReplyError) (ho : op.number ≠ number) :
      Incident number n (n.answer op (.error e))
  | rewire {n : Node} (directory : Directory) (clock : Clock) :
      Incident number n { n with directory, clock }
  | collect {n : Node} : Incident number n n.collect.2

/-- Any number of incidents, and the answers that were given on the way. -/
inductive Passage (number : Nat) (n : Node) : List Answer → Node → Prop
  | refl : Passage number n [] n
  | tail {told : List Answer} {a b : Node} (h : Passage number n told a)
      (hi : Incident number a b) : Passage number n (told ++ b.answers.drop a.answers.length) b

variable {number : Nat} {n m a b : Node} {o : Occasion} {told more : List Answer}

theorem Passage.step (h : Passage number n told a) (hi : Incident number a b)
    (hb : b.answers = a.answers ++ more) : Passage number n (told ++ more) b := by
  have htail := h.tail hi
  rwa [hb, List.drop_left] at htail

theorem Deed.answers (h : Deed o n m) : ∃ more, m.answers = n.answers ++ more := by
  cases h with
  | begin _ _ _ ho =>
    cases ho with
    | cutOff => exact ⟨_, rfl⟩
    | unwritten => exact ⟨_, rfl⟩
    | read => exact ⟨[], (List.append_nil _).symm⟩
    | write => exact ⟨[], (List.append_nil _).symm⟩
  | succeed _ _ hc => cases hc <;> exact ⟨_, rfl⟩
  | fail _ hd => cases hd <;> exact ⟨_, rfl⟩
  | dismiss => exact ⟨_, rfl⟩
  | _ => exact ⟨[], (List.append_nil _).symm⟩

theorem Passage.deeds (h : Passage number n told a) (hd : Deeds o a m) :
    ∃ more, Passage number n (told ++ more) m ∧ m.answers = a.answers ++ more := by
  induction hd with
  | refl => exact ⟨[], by rwa [List.append_nil], (List.append_nil _).symm⟩
  | tail _ hd ih =>
    obtain ⟨first, hp, hfirst⟩ := ih
    obtain ⟨second, hsecond⟩ := hd.answers
    refine ⟨first ++ second, ?_, by rw [hsecond, hfirst, List.append_assoc]⟩
    rw [← List.append_assoc]
    exact hp.step (.deed hd) hsecond

/-! ## Handlers -/

/-- All that a handler does is a passage, in which its answers are given. -/
def Passes (number : Nat) (n m : Node) : Prop :=
  ∃ told, Passage number n told m ∧ m.answers = n.answers ++ told

theorem Deeds.passes (h : Deeds o n m) : Passes number n m := by
  have hrefl : Passage number n [] n := .refl
  exact hrefl.deeds h

/-- A handler that takes something in and goes on with deeds. -/
theorem Incident.passes (hi : Incident number n a) (ha : a.answers = n.answers) (hd : Deeds o a m) :
    Passes number n m := by
  have hstep : Passage number n [] a := Passage.refl.step hi (by rw [ha, List.append_nil])
  obtain ⟨told, hp, hm⟩ := hstep.deeds hd
  exact ⟨told, hp, by rw [hm, ha]⟩

theorem passes_handle {event : Event} (he : event.isWriting = false)
    (hn : ∀ op ∈ event.submitted, op.number ≠ number) (n : Node) :
    Passes number n (n.handle event) := by
  cases event with
  | frame sender text =>
    rw [Event.isWriting] at he
    simp only [handle, onFrame]
    split
    · rename_i m hm
      rw [hm] at he
      have ha : (n.absorb sender m).answers = n.answers := by
        have habs := absorbed sender m n
        generalize n.absorb sender m = b at habs
        cases habs <;> rfl
      exact (Incident.message sender he).passes ha (deeds_onMessage sender m n)
    · exact ⟨[], .refl, (List.append_nil _).symm⟩
  | connected peer => exact Deeds.passes (o := .other) (deeds_onConnected peer n)
  | disconnected peer => exact Deeds.passes (deeds_onDisconnected peer n)
  | client op =>
    have ho : op.number ≠ number := hn op (List.mem_singleton_self op)
    simp only [handle, submit]
    split
    · exact (Incident.enqueue op ho).passes rfl (deeds_proceed (o := .other) _)
    · exact ⟨_, Passage.refl.step (.refuse op _ ho) rfl, rfl⟩
  | campaign => exact Deeds.passes (deeds_stand rfl)

/-- A leader that is asked for an operation has it behind the others, and goes on from there. -/
theorem passes_submit {op : Operation} (hl : n.leads = true) :
    Passes number (n.setQueue (n.queue ++ [op])) (n.handle (.client op)) := by
  simp only [handle, submit, hl, if_true]
  exact Deeds.passes (o := .other) (deeds_proceed _)

theorem passes_tickAt (now : Moment) (n : Node) : Passes number n (n.tickAt now) :=
  Deeds.passes (deeds_tickAt now n)

theorem Opened.eq {op : Operation} (h : Opened op n m) : m = n.openRound op := by
  cases h with
  | cutOff h => rw [openRound_cutOff h]
  | read h hm => rw [openRound_get h hm]
  | unwritten h hm ha => rw [openRound_post_error h hm ha]
  | write h hm ha => rw [openRound_post_ok h hm ha]

/-- A round begins with the operation that is the next one in the queue. -/
theorem Incident.begins {r : Round} (h : Incident number a b) (ha : a.round = none)
    (hb : b.round = some r) :
    ∃ rest, a.queue = r.op :: rest ∧ b = (a.setQueue rest).openRound r.op := by
  have hkept (hr : b.round = a.round) : ∃ rest, a.queue = r.op :: rest ∧
      b = (a.setQueue rest).openRound r.op := by
    rw [hr, ha] at hb
    cases hb
  cases h with
  | deed hd =>
    cases hd with
    | @begin _ op rest hq _ _ ho =>
      have hop : r.op = op := by
        cases ho with
        | cutOff => exact absurd (ha.symm.trans hb) (by simp)
        | unwritten => exact absurd (ha.symm.trans hb) (by simp)
        | read => cases hb; rfl
        | write => cases hb; rfl
      subst hop
      exact ⟨rest, hq, ho.eq⟩
    | succeed hr => rw [ha] at hr; cases hr
    | fail hr => rw [ha] at hr; cases hr
    | _ => exact hkept rfl
  | @message _ msg sender =>
    have habs := absorbed sender msg a
    generalize a.absorb sender msg = b at habs hb hkept ⊢
    cases habs with
    | count hr => rw [ha] at hr; cases hr
    | _ => exact hkept rfl
  | _ => exact hkept rfl

/-! ## Operations of other numbers -/

/-- No operation of this number waits for its answer. -/
def Clear (number : Nat) (n : Node) : Prop := ∀ op ∈ n.outstanding, op.number ≠ number

theorem Clear.serves {done : List Operation} (h : Clear number n) (hs : Serves done n m) :
    Clear number m ∧ number ∉ (m.answers.drop n.answers.length).map (·.op) := by
  rw [Clear, hs.outstanding] at h
  constructor
  · intro op hop
    exact h op (List.mem_append_right _ hop)
  · have hops : (m.answers.drop n.answers.length).map (·.op) = done.map (·.number) := by
      rw [List.map_drop, hs.answers, ← List.length_map (f := (·.op)), List.drop_left]
    rw [hops, List.mem_map]
    rintro ⟨op, hop, hnumber⟩
    exact h op (List.mem_append_left _ hop) hnumber

theorem Clear.incident (h : Clear number n) (hi : Incident number n m) :
    Clear number m ∧ number ∉ (m.answers.drop n.answers.length).map (·.op) := by
  cases hi with
  | deed hd =>
    obtain ⟨done, hs⟩ := hd.serves
    exact h.serves hs
  | message sender => exact h.serves (absorbed sender _ n).serves
  | enqueue op ho =>
    refine ⟨?_, by simp [setQueue]⟩
    intro other hother
    rw [outstanding, setQueue, ← List.append_assoc] at hother
    rcases List.mem_append.mp hother with hold | hnew
    · exact h other hold
    · rwa [List.mem_singleton.mp hnew]
  | refuse op e ho => exact ⟨h, by simpa [answer] using ho.symm⟩
  | rewire => exact ⟨h, by simp⟩
  | collect => exact ⟨h, by simp [collect]⟩

/-! ## The end of a write -/

/-- How a write ends: all of it is done, or nothing of it is left. -/
def Settles (store : Store) (op : Operation) (b : Node) : Reply → Prop
  | .ok v => ∃ e tables, e.command = op.command.text ∧ Command.ofText? e.command = some op.command ∧
      store.execute op.command.query op.command.bound = (.ok v, { store with tables }) ∧
      b.store = { store with log := store.log ++ [e], tables }
  | .error _ => b.store = store

variable {op : Operation} {store : Store} {e : Entry}

theorem truncate_entry (hs : store.Ready) :
    (Store.truncate e.id { store with log := store.log ++ [e] }).2 = store := by
  have hl := Log.truncate_last store.log e
  rw [Store.truncate, if_pos hs.available]
  simp only [hl]

theorem Carried.settles {r : Round} (h : Carried r a b) (hs : store.Ready)
    (he : e.id = store.log.length + 1) (ht : e.command = op.command.text)
    (hc : op.command.isFaithful = true) (hm : op.method = .post) (hop : r.op = op)
    (hl : r.logId = some e.id) (ha : a.store = { store with log := store.log ++ [e] }) :
    ∃ reply, b.answers = a.answers ++ [⟨op.number, reply⟩] ∧ Settles store op b reply := by
  subst hop
  have hentry : Log.withId? e.id a.store.log = some e := by
    rw [ha]
    exact (Log.numbered_concat.mpr ⟨hs.numbered, he⟩).withId?_last
  cases h with
  | read hm' => rw [hm] at hm'; cases hm'
  | void _ hl' => rw [hl] at hl'; cases hl'
  | unwritten _ hl' happly =>
    obtain rfl := Option.some.inj (hl.symm.trans hl')
    refine ⟨_, rfl, ?_⟩
    rw [Settles, Store.apply_error happly, ha]
    exact truncate_entry hs
  | @write _ result _ hl' happly =>
    obtain rfl := Option.some.inj (hl.symm.trans hl')
    -- the text of the entry is read as the command, or it cannot be applied
    have hav : a.store.available = true := by
      rw [ha]
      exact hs.available
    have hcommand : a.store.command e.id = a.store.commandOf e := by
      rw [Store.command, Store.entry, Store.whenAvailable, if_pos hav, hentry]
      rfl
    rw [Store.apply, hcommand, Store.commandOf] at happly ⊢
    have hread := Command.ofText?_text hc
    rw [← ht] at hread
    split at hread
    · rw [hread, ha] at happly ⊢
      simp only [Store.execute_log] at happly ⊢
      refine ⟨.ok result, rfl, e,
        (store.execute r.op.command.query r.op.command.bound).2.tables, ht, hread, ?_, ?_⟩
      · exact Prod.ext happly (Store.execute_tables _ _ _)
      · rw [Store.execute_tables]
    · rw [hread] at happly
      cases happly

theorem Dropped.settles {r : Round} {failure : ReplyError} (h : Dropped r failure a b)
    (hs : store.Ready) (hop : r.op = op) (hl : r.logId = some e.id)
    (ha : a.store = { store with log := store.log ++ [e] }) :
    ∃ reply, b.answers = a.answers ++ [⟨op.number, reply⟩] ∧ Settles store op b reply := by
  subst hop
  cases h with
  | read hl' => rw [hl] at hl'; cases hl'
  | write hl' =>
    obtain rfl := Option.some.inj (hl.symm.trans hl')
    refine ⟨_, rfl, ?_⟩
    rw [Settles, ha]
    exact truncate_entry hs

/-! ## A write in flight -/

/-- The round of a write is in flight: the store is what it was before with the entry of the write
behind it, and no other operation has the number of this one. -/
structure InFlight (op : Operation) (store : Store) (e : Entry) (n : Node) : Prop where
  round : ∃ r, n.round = some r ∧ r.op = op ∧ r.logId = some e.id
  store : n.store = { store with log := store.log ++ [e] }
  queue : ∀ other ∈ n.queue, other.number ≠ op.number

theorem InFlight.of_eq (h : InFlight op store e n) (hr : m.round = n.round)
    (hs : m.store = n.store) (hq : m.queue = n.queue) : InFlight op store e m :=
  ⟨hr ▸ h.round, hs.trans h.store, hq ▸ h.queue⟩

/-- A node whose round has ended owes an answer to the operations behind it only. -/
theorem clear_of_ended (h : InFlight op store e n) (hr : m.round = none) (hq : m.queue = n.queue) :
    Clear op.number m := by
  rw [Clear, outstanding_of_none hr, hq]
  exact h.queue

/-- What one incident makes of a write in flight. -/
inductive Advances (op : Operation) (store : Store) (e : Entry) (a b : Node) : Prop
  | stays (h : InFlight op store e b)
      (ha : op.number ∉ (b.answers.drop a.answers.length).map (·.op))
  | ends {reply : Reply} (hr : b.round = none) (ha : b.answers = a.answers ++ [⟨op.number, reply⟩])
      (hs : Settles store op b reply) (hc : Clear op.number b)

theorem InFlight.same (h : InFlight op store e a) (hr : b.round = a.round) (hs : b.store = a.store)
    (hq : b.queue = a.queue) (ha : b.answers = a.answers) : Advances op store e a b :=
  .stays (h.of_eq hr hs hq) (by rw [ha, List.drop_length]; exact List.not_mem_nil)

/-- A write whose entry is in a store that could take it. -/
structure Written (op : Operation) (store : Store) (e : Entry) : Prop where
  ready : store.Ready
  post : op.method = .post
  faithful : op.command.isFaithful = true
  id : e.id = store.log.length + 1
  text : e.command = op.command.text

theorem InFlight.deed (h : InFlight op store e a) (hw : Written op store e) (hd : Deed o a b) :
    Advances op store e a b := by
  obtain ⟨r, hr, hop, hl⟩ := h.round
  cases hd with
  | begin _ hnone => rw [hr] at hnone; cases hnone
  | dismiss _ hnone => rw [hr] at hnone; cases hnone
  | succeed hr' _ hc =>
    obtain rfl := Option.some.inj (hr.symm.trans hr')
    obtain ⟨reply, ha, hs⟩ := hc.settles hw.ready hw.id hw.text hw.faithful hw.post hop hl h.store
    have hround : b.round = none ∧ b.queue = a.queue := by cases hc <;> exact ⟨rfl, rfl⟩
    exact .ends hround.1 ha hs (clear_of_ended h hround.1 hround.2)
  | fail hr' hd =>
    obtain rfl := Option.some.inj (hr.symm.trans hr')
    obtain ⟨reply, ha, hs⟩ := hd.settles hw.ready hop hl h.store
    have hround : b.round = none ∧ b.queue = a.queue := by cases hd <;> exact ⟨rfl, rfl⟩
    exact .ends hround.1 ha hs (clear_of_ended h hround.1 hround.2)
  | _ => exact h.same rfl rfl rfl rfl

theorem InFlight.absorb {msg : Message} (h : InFlight op store e a) (sender : MemberId)
    (hm : msg.kind.isWriting = false) : Advances op store e a (a.absorb sender msg) := by
  have habs := absorbed sender msg a
  have hs := (habs.keeps hm).1
  generalize a.absorb sender msg = b at habs hs
  cases habs with
  | @count _ _ r hr =>
    -- an answer more is counted in the same round
    obtain ⟨r', hr', hop, hl⟩ := h.round
    obtain rfl := Option.some.inj (hr.symm.trans hr')
    exact .stays ⟨⟨_, rfl, hop, hl⟩, h.store, h.queue⟩ (by simp)
  | insert => cases hm
  | attend => cases hm
  | apply => cases hm
  | delete => cases hm
  | _ => exact h.same rfl hs rfl rfl

theorem InFlight.incident (h : InFlight op store e a) (hw : Written op store e)
    (hi : Incident op.number a b) : Advances op store e a b := by
  cases hi with
  | deed hd => exact h.deed hw hd
  | message sender hm => exact h.absorb sender hm
  | enqueue other ho =>
    refine .stays ⟨h.round, h.store, ?_⟩ (by simp [setQueue])
    intro waiting hwaiting
    rcases List.mem_append.mp hwaiting with hold | hnew
    · exact h.queue waiting hold
    · rwa [List.mem_singleton.mp hnew]
  | refuse other e ho => exact .stays ⟨h.round, h.store, h.queue⟩ (by simpa [answer] using ho.symm)
  | rewire => exact h.same rfl rfl rfl rfl
  | collect => exact .stays ⟨h.round, h.store, h.queue⟩ (by simp [collect])

/-- On the way from `n` to `m` the operation was answered once, by the incident that ended its round.
Behind it the write was done as a whole or nothing was left of it. -/
inductive AnsweredOnce (op : Operation) (store : Store) (e : Entry) (n : Node) :
    List Answer → Node → Prop
  | intro {before after : List Answer} {reply : Reply} {a b m : Node}
      (hbefore : Passage op.number n before a) (hnever : op.number ∉ before.map (·.op))
      (ha : InFlight op store e a) (hi : Incident op.number a b) (hb : b.round = none)
      (hreply : b.answers = a.answers ++ [⟨op.number, reply⟩]) (hs : Settles store op b reply)
      (hafter : Passage op.number b after m) (hagain : op.number ∉ after.map (·.op)) :
      AnsweredOnce op store e n (before ++ ⟨op.number, reply⟩ :: after) m

theorem InFlight.passage (h : InFlight op store e n) (hw : Written op store e)
    (hp : Passage op.number n told m) :
    InFlight op store e m ∧ op.number ∉ told.map (·.op) ∨
      Clear op.number m ∧ AnsweredOnce op store e n told m := by
  induction hp with
  | refl => exact .inl ⟨h, List.not_mem_nil⟩
  | tail hp hi ih =>
    rcases ih with ⟨ha, hnever⟩ | ⟨hclear, hanswered⟩
    · cases ha.incident hw hi with
      | stays hb hnow =>
        refine .inl ⟨hb, ?_⟩
        rw [List.map_append, List.mem_append]
        exact not_or.mpr ⟨hnever, hnow⟩
      | ends hr hreply hs hclear =>
        rw [hreply, List.drop_left]
        exact .inr ⟨hclear, .intro hp hnever ha hi hr hreply hs .refl List.not_mem_nil⟩
    · -- all that still waits has other numbers, so the operation is not answered again
      obtain ⟨hclear, hnow⟩ := hclear.incident hi
      obtain ⟨hbefore, hnever, ha, hend, hr, hreply, hs, hafter, hagain⟩ := hanswered
      refine .inr ⟨hclear, ?_⟩
      rw [List.append_assoc, List.cons_append]
      refine .intro hbefore hnever ha hend hr hreply hs (hafter.tail hi) ?_
      rw [List.map_append, List.mem_append]
      exact not_or.mpr ⟨hagain, hnow⟩

/-! ## All or nothing -/

/-- A write that a node without a round puts to the vote is refused at once, or it is in flight. -/
inductive Proposes (op : Operation) (n m : Node) : Prop
  | refused {failure : ReplyError} (hr : m.round = none) (hs : m.store = n.store)
      (ha : m.answers = n.answers ++ [⟨op.number, .error failure⟩])
  | begun {e : Entry} (hr : m.round ≠ none) (hw : Written op n.store e)
      (h : InFlight op n.store e m)

theorem proposes (hr : n.round = none) (hs : n.store.Ready) (hm : op.method = .post)
    (hc : op.command.isFaithful = true) (hq : ∀ other ∈ n.queue, other.number ≠ op.number) :
    Proposes op n (n.openRound op) := by
  have happend : n.appendCommand op.command = (.ok (n.store.log.length + 1), { n with
      store := { n.store with
        log := n.store.log ++ [⟨n.store.log.length + 1, op.command.text, n.clock.today⟩] } }) := by
    simp only [appendCommand, useStore, Store.append, hs.appendText]
  have ho := opened op n
  generalize n.openRound op = m at ho
  cases ho with
  | cutOff => exact .refused hr rfl rfl
  | read _ hm' => rw [hm] at hm'; cases hm'
  | unwritten _ _ ha => rw [happend] at ha; cases ha
  | write _ _ ha =>
    rw [happend] at ha
    cases ha
    refine .begun (e := ⟨n.store.log.length + 1, op.command.text, n.clock.today⟩)
      (Option.some_ne_none _) ⟨hs, hm, hc, rfl, rfl⟩ ⟨⟨_, rfl, rfl, rfl⟩, ?_, hq⟩
    simp only [happend]

/-- A write is done as a whole or leaves no trace. Either it is refused at once, or its round begins
and the client is told nothing until the round is over, while the log has the entry at its end. What
ends the round tells the client, and nothing tells it again: the result of the command, which is then
the last one in the log and has been executed once, or an error, and the store is what it was. All
that a node does on an event or as time passes is made of such incidents, and rounds begin in no
other way. -/
theorem write_done_or_undone {n : Node} {op : Operation} (hr : n.round = none)
    (hs : n.store.Ready) (hm : op.method = .post) (hc : op.command.isFaithful = true)
    (hq : ∀ other ∈ n.queue, other.number ≠ op.number) :
    ((n.openRound op).round = none → (n.openRound op).store = n.store ∧
      ∃ failure, (n.openRound op).answers = n.answers ++ [⟨op.number, .error failure⟩]) ∧
    ((n.openRound op).round ≠ none → ∃ e : Entry, e.command = op.command.text ∧
      ∀ told m, Passage op.number (n.openRound op) told m →
        InFlight op n.store e m ∧ op.number ∉ told.map (·.op) ∨
        AnsweredOnce op n.store e (n.openRound op) told m) ∧
    (∀ (l m : Node) (r : Round), Incident op.number l m → l.round = none → m.round = some r →
      ∃ rest, l.queue = r.op :: rest ∧ m = (l.setQueue rest).openRound r.op) ∧
    (∀ l : Node, l.leads = true →
      Passes op.number (l.setQueue (l.queue ++ [op])) (l.handle (.client op))) ∧
    (∀ (l : Node) (event : Event), event.isWriting = false →
      (∀ other ∈ event.submitted, other.number ≠ op.number) →
        Passes op.number l (l.handle event)) ∧
    ∀ (l : Node) (now : Moment), Passes op.number l (l.tickAt now) := by
  refine ⟨?_, ?_, fun l m r hi hl hm => hi.begins hl hm, fun l hl => passes_submit hl,
    fun l event he hn => passes_handle he hn l, fun l now => passes_tickAt now l⟩
  · intro hnone
    cases proposes hr hs hm hc hq with
    | refused _ hs ha => exact ⟨hs, _, ha⟩
    | begun hr => exact absurd hnone hr
  · intro hsome
    cases proposes hr hs hm hc hq with
    | refused hr => exact absurd hr hsome
    | begun _ hw h =>
      refine ⟨_, hw.text, ?_⟩
      intro told m hp
      exact (h.passage hw hp).imp_right And.right

/-- The leader of two nodes. -/
def elected : Node := ofTwo.handleAll (deposition.take 2)

def tableCreation : Operation := ⟨0, .post, ⟨"CREATE TABLE t (v INT)", none⟩⟩

/-- The other node has the same outcome as the leader. -/
def assent : Event :=
  .frame 2 (Message.text (.roundAnswer (outcomeDigest (.ok (.natural 1))) (some 1)))

/-- The other node agrees, and the table is there; or it does not answer in time, and there is
nothing of it. -/
theorem table_created_or_not : elected.leads = true ∧ elected.directory.peers = [2] ∧ ∃ e,
    (∃ told m, AnsweredOnce tableCreation elected.store e (elected.openRound tableCreation) told m ∧
      told.map (·.reply.isOk) = [true] ∧ m.store.log.length = 1 ∧ m.store.tables.length = 1) ∧
    ∃ told m, AnsweredOnce tableCreation elected.store e (elected.openRound tableCreation) told m ∧
      told.map (·.reply.isOk) = [false] ∧ m.store.log.length = 0 ∧ m.store.tables.length = 0 := by
  obtain ⟨hround, havailable, halone, hlog, hqueue, hbegins, hsilent, hleads⟩ :
      elected.round.isNone = true ∧ elected.store.available = true ∧
      elected.store.rivals = .none ∧ elected.store.log.length = 0 ∧ elected.queue.length = 0 ∧
      (elected.openRound tableCreation).round.isSome = true ∧
      (elected.openRound tableCreation).answers.length = 0 ∧
      elected.leads = true ∧ elected.directory.peers = [2] := by decide +kernel
  rw [List.length_eq_zero_iff] at hlog hqueue hsilent
  have hs : elected.store.Ready := ⟨havailable, halone, hlog ▸ Log.numbered_nil⟩
  obtain ⟨-, hbegun, -, -, hhandle, htick⟩ :=
    write_done_or_undone (Option.isNone_iff_eq_none.mp hround) hs
      (show tableCreation.method = .post from rfl) (by decide) (by simp [hqueue])
  obtain ⟨e, -, hwrite⟩ := hbegun (Option.isSome_iff_ne_none.mp hbegins)
  -- whatever ends the round has told the client
  have hover {m : Node} (hp : Passes tableCreation.number (elected.openRound tableCreation) m)
      (hm : m.round.isNone = true) :
      AnsweredOnce tableCreation elected.store e (elected.openRound tableCreation) m.answers m := by
    obtain ⟨told, hp, ha⟩ := hp
    rw [hsilent, List.nil_append] at ha
    rcases hwrite told m hp with ⟨⟨⟨r, hr, _⟩, _, _⟩, _⟩ | hanswered
    · rw [hr] at hm
      cases hm
    · rwa [ha]
  refine ⟨hleads.1, hleads.2, e, ?_, ?_⟩
  · obtain ⟨hend, hfacts⟩ :
        ((elected.openRound tableCreation).handle assent).round.isNone = true ∧
        ((elected.openRound tableCreation).handle assent).answers.map (·.reply.isOk) = [true] ∧
        ((elected.openRound tableCreation).handle assent).store.log.length = 1 ∧
        ((elected.openRound tableCreation).handle assent).store.tables.length = 1 := by
      decide +kernel
    have hassent := hhandle (elected.openRound tableCreation) assent (Event.isWriting_text rfl 2)
      (List.forall_mem_nil _)
    exact ⟨_, _, hover hassent hend, hfacts⟩
  · obtain ⟨hend, hfacts⟩ :
        ((elected.openRound tableCreation).tickAt 10000000000).round.isNone = true ∧
        ((elected.openRound tableCreation).tickAt 10000000000).answers.map (·.reply.isOk) =
          [false] ∧
        ((elected.openRound tableCreation).tickAt 10000000000).store.log.length = 0 ∧
        ((elected.openRound tableCreation).tickAt 10000000000).store.tables.length = 0 := by
      decide +kernel
    exact ⟨_, _, hover (htick (elected.openRound tableCreation) 10000000000) hend, hfacts⟩

end Node
end Accord
