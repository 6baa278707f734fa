import Accord.Proofs.Node.Acts

/-! # Entries that await the outcome of a vote

A peer appends a command before it knows whether the vote on it succeeds, and it remembers the id. As
long as it does, the log holds the entry of that id, it was appended for a vote, and the node has not
replayed it: ids are used again only after an entry has been taken out, and whatever takes out or
replays the entry of an id makes the node forget this id first. So an entry that a node takes out at
the request of a leader was never applied by it. -/
namespace Accord

/-! ## Entries kept for a vote -/

/-- In the past of a store that was `start`, the entry `e` was appended for a vote, and since then it
has been neither replayed nor taken out. -/
def Awaits (start : Store) (past : List Act) (e : Entry) : Prop :=
  ∃ earlier command later, past = earlier ++ .vote command e.time :: later ∧
    (start.afterAll earlier).append command e.time = (.ok e.id,
      { start.afterAll earlier with log := (start.afterAll earlier).log ++ [e] }) ∧
    .replay e.id ∉ later ∧ .remove e.id ∉ later

theorem Awaits.append {start : Store} {past acts : List Act} {e : Entry} (h : Awaits start past e)
    (hreplay : .replay e.id ∉ acts) (hremove : .remove e.id ∉ acts) :
    Awaits start (past ++ acts) e := by
  obtain ⟨earlier, command, later, rfl, hvote, hr, hd⟩ := h
  refine ⟨earlier, command, later ++ acts, by simp, hvote, ?_, ?_⟩
  · rw [List.mem_append, not_or]
    exact ⟨hr, hreplay⟩
  · rw [List.mem_append, not_or]
    exact ⟨hd, hremove⟩

namespace Custody

/-- The entries that are kept for a vote are in the log, they are different ones, and the one that
was appended for another node still awaits the outcome. -/
structure Kept (start : Store) (past : List Act) (c : Custody) : Prop where
  store : c.store = start.afterAll past
  own : c.store.Own
  provisional : ∀ id, c.provisional = some id →
    ∃ e ∈ c.store.log, e.id = id ∧ Awaits start past e
  proposed : ∀ id, c.proposed = some id →
    (∃ e ∈ c.store.log, e.id = id) ∧ c.provisional ≠ some id

variable {start : Store} {past acts : List Act} {c d : Custody}

theorem Kept.provisional_le (h : Kept start past c) {id : Nat} (hid : c.provisional = some id) :
    id ≤ c.store.log.length := by
  obtain ⟨e, he, rfl, _⟩ := h.provisional id hid
  exact h.own.id_le he

/-- Acts that add nothing to what is kept, and do nothing to what stays kept. -/
theorem Kept.extend (h : Kept start past c) (hs : d.store = c.store.afterAll acts)
    (hp : ∀ id, d.provisional = some id → c.provisional = some id ∧
      .replay id ∉ acts ∧ .remove id ∉ acts)
    (hq : ∀ id, d.proposed = some id → c.proposed = some id ∧ .remove id ∉ acts) :
    Kept start (past ++ acts) d := by
  refine ⟨by rw [hs, h.store, Store.afterAll_append], by rw [hs]; exact h.own.afterAll acts, ?_, ?_⟩
  · intro id hid
    obtain ⟨hold, hreplay, hremove⟩ := hp id hid
    obtain ⟨e, he, rfl, hawaits⟩ := h.provisional id hold
    rw [hs]
    exact ⟨e, h.own.mem_afterAll he hremove, rfl, hawaits.append hreplay hremove⟩
  · intro id hid
    obtain ⟨hold, hremove⟩ := hq id hid
    obtain ⟨⟨e, he, rfl⟩, hne⟩ := h.proposed id hold
    rw [hs]
    exact ⟨⟨e, h.own.mem_afterAll he hremove, rfl⟩, fun hid => hne (hp _ hid).1⟩

theorem Kept.vote (h : Kept start past c) (command : Command) (time : Instant) :
    Kept start (past ++ [.vote command time]) { c with
      store := c.store.afterAll [.vote command time]
      provisional := (c.store.append command time).1.toOption.or c.provisional } := by
  have hstore : c.store.afterAll [.vote command time] = (c.store.append command time).2 := rfl
  rcases h.own.append command time with ha | ha
  · have hown := (h.own.run (.vote command time)).1
    rw [Act.run] at hown
    rw [hstore]
    rw [ha] at hown ⊢
    refine ⟨?_, hown, ?_, ?_⟩
    · rw [Store.afterAll_append, ← h.store, hstore, ha]
    · rintro _ ⟨⟩
      refine ⟨⟨c.store.log.length + 1, command.text, time⟩, by simp, rfl, past, command, [], rfl, ?_,
        by simp, by simp⟩
      rw [← h.store]
      exact ha
    · intro id hid
      obtain ⟨⟨e, he, rfl⟩, _⟩ := h.proposed id hid
      have hle := h.own.id_le he
      refine ⟨⟨e, List.mem_append_left _ he, rfl⟩, ?_⟩
      intro hid
      have hnext : c.store.log.length + 1 = e.id := Option.some.inj hid
      omega
  · refine h.extend rfl ?_ ?_
    · intro id hid
      rw [ha] at hid
      exact ⟨hid, by simp, by simp⟩
    · intro id hid
      exact ⟨hid, by simp⟩

theorem Kept.propose (h : Kept start past c) (command : Command) (time : Instant) :
    Kept start (past ++ [.propose command time]) { c with
      store := c.store.afterAll [.propose command time]
      proposed := (c.store.append command time).1.toOption } := by
  have hstore : c.store.afterAll [.propose command time] = (c.store.append command time).2 := rfl
  -- nothing is known of the new entry but that it is there and not provisional
  have hold : Kept start (past ++ [.propose command time])
      { c with store := c.store.afterAll [.propose command time], proposed := none } :=
    h.extend rfl (fun id hid => ⟨hid, by simp, by simp⟩) (by rintro _ ⟨⟩)
  refine ⟨hold.store, hold.own, hold.provisional, ?_⟩
  intro id hid
  rw [hstore]
  rcases h.own.append command time with ha | ha
  · rw [ha] at hid ⊢
    cases hid
    refine ⟨⟨_, List.mem_append_right _ (List.mem_singleton_self _), rfl⟩, ?_⟩
    intro hp
    have hle := h.provisional_le hp
    omega
  · rw [ha] at hid
    cases hid

theorem Kept.step (h : Kept start past c) (hd : Step c acts d) : Kept start (past ++ acts) d := by
  cases hd with
  | forget => exact h.extend rfl (by rintro _ ⟨⟩) fun id hid => ⟨hid, by simp⟩
  | leave => exact h.extend rfl (fun id hid => ⟨hid, by simp, by simp⟩) (by rintro _ ⟨⟩)
  | query => exact h.extend rfl (fun id hid => ⟨hid, by simp, by simp⟩) fun id hid => ⟨hid, by simp⟩
  | propose command time => exact h.propose command time
  | vote command time => exact h.vote command time
  | decline => exact h.extend rfl (fun id hid => ⟨hid, by simp, by simp⟩) fun id hid => ⟨hid, by simp⟩
  | @accept e _ ha =>
    refine h.extend rfl ?_ fun id hid => ⟨hid, by simp⟩
    intro id hid
    have hle := h.provisional_le hid
    have hnext : e.id = c.store.log.length + 1 := by
      rcases h.own.adopt e with ⟨he, _⟩ | ⟨failure, hf⟩
      · exact he
      · rw [hf] at ha
        cases ha
    refine ⟨hid, ?_, by simp⟩
    simp only [List.mem_cons, reduceCtorEq, Act.replay.injEq, List.not_mem_nil, or_false, false_or]
    omega
  | apply k =>
    refine h.extend rfl ?_ fun id hid => ⟨hid, by simp⟩
    intro id hid
    dsimp only at hid
    split at hid
    · cases hid
    · rename_i hne
      refine ⟨hid, ?_, by simp⟩
      rw [List.mem_singleton, Act.replay.injEq]
      rintro rfl
      exact hne hid
  | enact hk =>
    refine h.extend rfl ?_ fun id hid => ⟨hid, by simp⟩
    intro id hid
    refine ⟨hid, ?_, by simp⟩
    rw [List.mem_singleton, Act.replay.injEq]
    rintro rfl
    exact (h.proposed _ hk).2 hid
  | retract hk =>
    refine h.extend rfl ?_ (by rintro _ ⟨⟩)
    intro id hid
    refine ⟨hid, by simp, ?_⟩
    rw [List.mem_singleton, Act.remove.injEq]
    rintro rfl
    exact (h.proposed _ hk).2 hid
  | delete hk =>
    refine h.extend rfl (by rintro _ ⟨⟩) ?_
    intro id hid
    refine ⟨hid, ?_⟩
    rw [List.mem_singleton, Act.remove.injEq]
    rintro rfl
    exact (h.proposed _ hid).2 hk

theorem Kept.steps (h : Kept start past c) (hd : Steps c acts d) : Kept start (past ++ acts) d := by
  induction hd generalizing past with
  | refl => rwa [List.append_nil]
  | step hd _ ih =>
    rw [← List.append_assoc]
    exact ih (h.step hd)

end Custody

/-! ## Chronicles -/

namespace Node

/-- A node that was started with a store of its own, and all that it has done to the store since. Any
event can happen to it at any time, connections and clock change at will, and the store may get out
of reach. -/
inductive Chronicle (start : Store) : Node → List Act → Prop
  | start (topology : Topology) (timing : Timing) (clock : Clock) (dice : Dice) (h : start.Own) :
      Chronicle start (Node.new topology timing clock dice start).start []
  | handle {n : Node} {past : List Act} (event : Event) (h : Chronicle start n past) :
      Chronicle start (n.handle event) (past ++ n.acts event)
  | tick {n : Node} {past : List Act} (now : Moment) (h : Chronicle start n past) :
      Chronicle start (n.tickAt now) (past ++ n.tickActs now)
  | rewire {n : Node} {past : List Act} (directory : Directory) (clock : Clock)
      (h : Chronicle start n past) : Chronicle start { n with directory, clock } past
  | reach {n : Node} {past : List Act} (available : Bool) (h : Chronicle start n past) :
      Chronicle start { n with store := { n.store with available } } (past ++ [.reach available])
  | collect {n : Node} {past : List Act} (h : Chronicle start n past) :
      Chronicle start n.collect.2 past

variable {start : Store} {n : Node} {past : List Act}

theorem Chronicle.kept (h : Chronicle start n past) : n.custody.Kept start past := by
  induction h with
  | start topology timing clock dice h =>
    have hc : (Node.new topology timing clock dice start).start.custody = ⟨start, none, none⟩ := by
      unfold Node.start seek
      obtain ⟨pick, dice⟩ := (Node.new topology timing clock dice start).dice.roll
      rfl
    rw [hc]
    exact ⟨rfl, h, by rintro _ ⟨⟩, by rintro _ ⟨⟩⟩
  | handle event _ ih => exact ih.steps (steps_handle event _)
  | tick now _ ih => exact ih.steps (steps_tickAt now _)
  | rewire _ _ _ ih => exact ih
  | reach available _ ih =>
    exact ih.extend rfl (fun id hid => ⟨hid, by simp, by simp⟩) fun id hid => ⟨hid, by simp⟩
  | collect _ ih => exact ih

/-- While a node remembers an entry that it appended for a vote, the entry is in its log, and the node
has not replayed it since it was appended. So whatever message asks for an entry to be deleted, the
log stays as it is, or it loses its last entry, which was appended for a vote and never applied. The
store is always what the acts of the node have made of it. -/
theorem deleted_entry_never_applied (h : Chronicle start n past) :
    n.store = start.afterAll past ∧
    (∀ id, n.provisional = some id → ∃ e ∈ n.store.log, e.id = id ∧ Awaits start past e) ∧
    ∀ sender text id, Message.ofText text = .ok (.deleteEntry id) →
      (n.handle (.frame sender text)).store.log = n.store.log ∨
      ∃ log e, n.store.log = log ++ [e] ∧ (n.handle (.frame sender text)).store.log = log ∧
        Awaits start past e := by
  have hkept := h.kept
  refine ⟨hkept.store, hkept.provisional, ?_⟩
  intro sender text id htext
  have hlog : (n.handle (.frame sender text)).store.log =
      if n.provisional = some id then (n.store.truncate id).2.log else n.store.log := by
    simp only [handle, onFrame, htext, onMessage, onDeleteEntry]
    split <;> rfl
  rw [hlog]
  split
  · rename_i hp
    obtain ⟨e, he, rfl, hawaits⟩ := hkept.provisional id hp
    rcases Store.truncate_log e.id n.store with ht | ht
    · exact .inl (by rw [ht])
    · rw [ht]
      refine (n.store.log.truncate_cases e.id).imp_right ?_
      rintro ⟨init, last, hlast, hid, hinit⟩
      obtain rfl : last = e :=
        hkept.own.numbered.eq_of_id (by rw [custody, hlast]; simp) he hid
      exact ⟨init, last, hlast, hinit, hawaits⟩
  · exact .inl rfl

theorem Chronicle.handleAll (h : Chronicle start n past) (events : List Event) :
    ∃ acts, Chronicle start (n.handleAll events) (past ++ acts) := by
  induction events generalizing n past with
  | nil => exact ⟨[], by rwa [List.append_nil]⟩
  | cons event rest ih =>
    obtain ⟨acts, hacts⟩ := ih (h.handle event)
    exact ⟨n.acts event ++ acts, by rwa [List.append_assoc] at hacts⟩

/-- A node appends a command for a vote that fails, takes over another one under the same id, and is
asked for a vote again. -/
def reuse : List Event :=
  [.frame 2 (Message.text (.roundRequest .post ⟨"CREATE TABLE t (v INT)", none⟩ (some 1))),
    .frame 2 (Message.text (.deleteEntry 1)),
    .frame 2 (Message.text (.batch 2
      [⟨1, Command.text ⟨"CREATE TABLE u (v INT)", none⟩, ⟨2024, 1, 1, 0, 0⟩⟩])),
    .frame 2 (Message.text (.roundRequest .post ⟨"CREATE TABLE v (v INT)", none⟩ (some 2)))]

theorem second_vote_deleted : ∃ past, Chronicle .empty (ofTwo.handleAll reuse) past ∧
    (ofTwo.handleAll reuse).provisional = some 2 ∧
    (∃ e ∈ (ofTwo.handleAll reuse).store.log, e.id = 2 ∧ Awaits .empty past e) ∧
    ∃ log e, log.length = 1 ∧ (ofTwo.handleAll reuse).store.log = log ++ [e] ∧
      ((ofTwo.handleAll reuse).handle (.frame 2 (Message.text (.deleteEntry 2)))).store.log = log ∧
      Awaits .empty past e := by
  have hstart : Chronicle .empty ofTwo [] :=
    .rewire _ _ (.start _ _ _ _ ⟨rfl, Log.numbered_nil⟩)
  obtain ⟨past, hpast⟩ := hstart.handleAll reuse
  have hfacts : (ofTwo.handleAll reuse).provisional = some 2 ∧
      (ofTwo.handleAll reuse).store.log.length = 2 ∧
      ((ofTwo.handleAll reuse).handle
        (.frame 2 (Message.text (.deleteEntry 2)))).store.log.length = 1 ∧
      (Message.ofText (Message.text (.deleteEntry 2))).isOk = true := by
    decide +kernel
  obtain ⟨hprovisional, htwo, hone, hread⟩ := hfacts
  have htext : Message.ofText (Message.text (.deleteEntry 2)) = .ok (.deleteEntry 2) := by
    cases hm : Message.ofText (Message.text (.deleteEntry 2)) with
    | error e => rw [hm] at hread; cases hread
    | ok m => rw [Message.ofText_deleteEntry hm]
  obtain ⟨_, hawaits, hdelete⟩ := deleted_entry_never_applied hpast
  refine ⟨past, hpast, hprovisional, hawaits 2 hprovisional, ?_⟩
  rcases hdelete 2 _ 2 htext with hsame | ⟨log, e, hlog, hafter, he⟩
  · rw [hsame, htwo] at hone
    cases hone
  · rw [hafter] at hone
    exact ⟨log, e, hone, hlog, hafter, he⟩

end Node
end Accord
