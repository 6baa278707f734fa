import Accord.Proofs.Cluster.Ledger
import Accord.Proofs.Node.Batches

/-! # What a follower makes of the leader's messages

A follower whose log has never been longer than the leader's holds at most one entry that the leader
has not settled: the one that it appended for the vote at hand. What it executes are settled entries,
each once and in their order, as long as it is told when an entry is taken out again. If moreover it
had caught up whenever it was asked for a vote, its log is a part of the leader's. -/
namespace Accord

namespace Node

/-- The entries that a node executes when it reads a message. -/
def executes (m : Message) (n : Node) : List Entry :=
  match m with
  | .applyEntry k => (n.store.log.withId? k).toList
  | .batch _ entries => (insertMissing entries n.store).2.log.drop n.store.log.length
  | _ => []

/-- A follower that has appended the entry which the leader puts to the vote. -/
structure Tentative (g : Ledger) (n : Node) (e : Entry) : Prop where
  pending : g.pending = some e
  provisional : n.provisional = some e.id
  log : ∃ log x, n.store.log = log ++ [x] ∧ log.length = g.settled.length ∧ x.key = e.key

/-- A follower of a leader with a ledger, and the entries that it has executed. -/
structure Follows (g : Ledger) (n : Node) (ran : List Entry) : Prop where
  ready : n.store.Ready
  provisional : ∀ k, n.provisional = some k → k ≤ n.store.log.length
  level : n.store.log.length ≤ g.settled.length ∨ ∃ e, Tentative g n e
  ran : (ran.map Entry.key).Sublist ((g.settled.take n.store.log.length).map Entry.key)

/-- The log of a follower is a part of the leader's. -/
def Aligned (g : Ledger) (n : Node) : Prop :=
  n.store.log.map Entry.key <+: (g.settled ++ g.pending.toList).map Entry.key

variable {g g' : Ledger} {n : Node} {ran : List Entry}

/-! ## Missing messages -/

theorem Follows.spared (h : Follows g n ran) (hs : g.Spares n.provisional g') :
    Follows g' n ran := by
  refine ⟨h.ready, h.provisional, ?_, ?_⟩
  · rcases h.level with hle | ⟨e, he⟩
    · exact .inl (hle.trans hs.settled.length_le)
    · rcases hs.pending e he.pending he.provisional with rfl | hp
      · exact .inr ⟨e, he⟩
      · left
        obtain ⟨log, x, hlog, hlen, _⟩ := he.log
        have := hp.length_le
        simp only [hlog, List.length_append, List.length_singleton, hlen] at this ⊢
        exact this
  · exact h.ran.trans ((hs.settled.take _).map _).sublist

theorem Aligned.spared (h : Aligned g n) (hf : Follows g n ran)
    (hs : g.Spares n.provisional g') : Aligned g' n := by
  have hgrow {log : Log} (hp : n.store.log.map Entry.key <+: log.map Entry.key)
      (hl : log <+: g'.settled) : Aligned g' n :=
    hp.trans ((hl.trans (List.prefix_append _ _)).map _)
  rcases hf.level with hle | ⟨e, he⟩
  · refine hgrow (List.prefix_of_prefix_length_le h ?_ ?_) hs.settled
    · exact (List.prefix_append _ _).map _
    · simpa using hle
  · rcases hs.pending e he.pending he.provisional with rfl | hp
    · exact h
    · rw [Aligned, he.pending] at h
      exact hgrow h hp

/-! ## Messages -/

theorem Follows.of_eq {n' : Node} (h : Follows g n ran) (hs : n'.store = n.store)
    (hp : n'.provisional = n.provisional) : Follows g n' ran := by
  refine ⟨hs ▸ h.ready, ?_, ?_, ?_⟩
  · rw [hp, hs]
    exact h.provisional
  · rw [hs]
    exact h.level.imp_right fun ⟨e, he⟩ => ⟨e, he.pending, hp ▸ he.provisional, hs ▸ he.log⟩
  · rw [hs]
    exact h.ran

/-- The node after it has appended an entry for a vote. -/
structure Attended (command : Command) (n n' : Node) : Prop where
  store : ∃ time, n'.store = { n.store with
    log := n.store.log ++ [⟨n.store.log.length + 1, command.text, time⟩] }
  provisional : n'.provisional = some (n.store.log.length + 1)

theorem attended (h : n.store.Ready) (sender : MemberId) (command : Command) (round : Option Nat) :
    Attended command n (n.absorb sender (.roundRequest .post command round)) := by
  have hs := h.appendText command.text n.clock.today
  refine ⟨⟨n.clock.today, ?_⟩, ?_⟩ <;>
    simp only [absorb, onMessage, onRoundRequest, roundOutcome, appendCommand, useStore,
      Store.append, hs, send]

theorem absorb_apply (h : n.store.Ready) (sender : MemberId) (k : Nat) :
    (n.absorb sender (.applyEntry k)).store =
      { n.store with tables := (n.executes (.applyEntry k)).foldl Entry.replay n.store.tables } :=
  h.apply k

theorem absorb_batch (h : n.store.Ready) {log : Log} (hl : log.Numbered)
    (sender leader : MemberId) (k : Nat) :
    (n.absorb sender (.batch leader (log.drop k))).store = { n.store with
      log := n.store.log ++ newEntries k log n.store
      tables := (newEntries k log n.store).foldl Entry.replay n.store.tables } :=
  insertMissing_drop h hl k

theorem executes_batch (h : n.store.Ready) {log : Log} (hl : log.Numbered) (leader : MemberId)
    (k : Nat) : n.executes (.batch leader (log.drop k)) = newEntries k log n.store := by
  rw [executes, insertMissing_drop h hl, List.drop_left]

theorem absorb_empty (h : n.store.Ready) (sender leader : MemberId) :
    (n.absorb sender (.batch leader [])).store = n.store ∧ n.executes (.batch leader []) = [] := by
  have hs : (insertMissing [] n.store).2 = n.store := by
    rw [insertMissing, h.lastId]
    simp only [List.mergeSort_nil, List.filter_nil, insertEntries]
  refine ⟨hs, ?_⟩
  rw [executes, hs, List.drop_length]

theorem executes_other {m : Message} (hm : m.kind.isWriting = false) : n.executes m = [] := by
  cases m <;> first | rfl | cases hm

theorem absorb_delete_of_eq (h : n.store.Ready) {k : Nat} (hk : n.provisional = some k)
    (sender : MemberId) :
    (n.absorb sender (.deleteEntry k)).store = { n.store with log := (n.store.log.truncate k).2 } ∧
      (n.absorb sender (.deleteEntry k)).provisional = none := by
  simp only [absorb, onMessage, onDeleteEntry, hk, if_true]
  exact ⟨h.truncate k, rfl⟩

theorem absorb_delete_of_ne {k : Nat} (hk : n.provisional ≠ some k) (sender : MemberId) :
    n.absorb sender (.deleteEntry k) = n := by
  simp only [absorb, onMessage, onDeleteEntry, if_neg hk]

/-- What a follower executes is what its tables show. -/
theorem tables_absorb {m : Message} (h : n.store.Ready) (hg : g.Sound) (hs : g.Step m g')
    (sender : MemberId) :
    (n.absorb sender m).store.tables = (n.executes m).foldl Entry.replay n.store.tables := by
  cases hs with
  | ask round =>
    obtain ⟨⟨time, hstore⟩, _⟩ := attended h sender _ round
    rw [hstore]
    rfl
  | apply => rw [absorb_apply h]
  | @delete _ e =>
    by_cases hk : n.provisional = some e.id
    · rw [(absorb_delete_of_eq h hk sender).1]
      rfl
    · rw [absorb_delete_of_ne hk]
      rfl
  | batch leader k => rw [absorb_batch h hg.settled, executes_batch h hg.settled]
  | empty leader =>
    obtain ⟨hstore, hexecutes⟩ := absorb_empty h sender leader
    rw [hstore, hexecutes]
    rfl
  | other hm =>
    rw [((absorbed sender m n).keeps hm).1, executes_other hm]
    rfl

/-- An entry that is put to the vote is not there yet or tentative. -/
theorem Follows.pending {log : Log} {e : Entry} (h : Follows ⟨log, some e⟩ n ran) :
    n.store.log.length ≤ log.length ∨ Tentative ⟨log, some e⟩ n e := by
  refine h.level.imp_right ?_
  rintro ⟨e', he⟩
  obtain rfl := Option.some.inj he.pending
  exact he

theorem Follows.settled {log : Log} (h : Follows ⟨log, none⟩ n ran) :
    n.store.log.length ≤ log.length := by
  rcases h.level with hle | ⟨e, he⟩
  · exact hle
  · cases he.pending

theorem Follows.provisional_ne {log : Log} {e : Entry} (h : Follows ⟨log, some e⟩ n ran)
    (hg : Ledger.Sound ⟨log, some e⟩) (hle : n.store.log.length ≤ log.length) :
    n.provisional ≠ some e.id := by
  intro hk
  have hid : e.id = log.length + 1 := (Log.numbered_concat.mp hg).2
  have := h.provisional _ hk
  omega

theorem Follows.ask {log : Log} {e : Entry} {command : Command} (h : Follows ⟨log, none⟩ n ran)
    (hid : e.id = log.length + 1) (ht : e.command = command.text) (sender : MemberId)
    (round : Option Nat) :
    Follows ⟨log, some e⟩ (n.absorb sender (.roundRequest .post command round)) ran := by
  obtain ⟨⟨time, hstore⟩, hprov⟩ := attended h.ready sender command round
  refine ⟨?_, ?_, ?_, ?_⟩
  · rw [hstore]
    exact h.ready.grow rfl
  · intro k hk
    rw [hprov] at hk
    rw [hstore]
    cases hk
    simp
  · rcases h.settled.lt_or_eq with hlt | heq
    · left
      rw [hstore]
      simpa using hlt
    · refine .inr ⟨e, rfl, by rw [hprov, hid, heq], n.store.log, _, by rw [hstore], heq, ?_⟩
      rw [Entry.key, Entry.key, hid, ht, heq]
  · rw [hstore]
    refine h.ran.trans ((List.take_sublist_take_left ?_).map _)
    simp

theorem Follows.apply {log : Log} {e : Entry} (h : Follows ⟨log, some e⟩ n ran)
    (hg : Ledger.Sound ⟨log, some e⟩) (sender : MemberId) :
    Follows ⟨log ++ [e], none⟩ (n.absorb sender (.applyEntry e.id))
      (ran ++ n.executes (.applyEntry e.id)) := by
  have hstore := absorb_apply h.ready sender e.id
  have hid : e.id = log.length + 1 := (Log.numbered_concat.mp hg).2
  rcases h.pending with hle | ht
  · have hne := h.provisional_ne hg hle
    have hnone : n.executes (.applyEntry e.id) = [] := by
      rw [executes, h.ready.numbered.withId?_beyond (by omega)]
      rfl
    rw [hnone] at hstore ⊢
    rw [List.append_nil]
    refine (h.spared (Ledger.Step.apply.spares ?_)).of_eq hstore (if_neg hne)
    rintro id _ ⟨⟩
  · obtain ⟨l, x, hlog, hlen, hkey⟩ := ht.log
    have hx : x.id = e.id := congrArg Prod.fst hkey
    have hsome : n.executes (.applyEntry e.id) = [x] := by
      have hn := h.ready.numbered
      rw [hlog] at hn
      rw [executes, hlog, ← hx, hn.withId?_last]
      rfl
    refine ⟨?_, ?_, .inl ?_, ?_⟩
    · rw [hstore]
      exact ⟨h.ready.available, h.ready.alone, h.ready.numbered⟩
    · have hnone : (n.absorb sender (.applyEntry e.id)).provisional = none :=
        if_pos ht.provisional
      rw [hnone]
      rintro _ ⟨⟩
    · rw [hstore, hlog]
      simp [hlen]
    · have hwhole : (log ++ [e]).take (l ++ [x]).length = log ++ [e] :=
        List.take_of_length_le (by simp [hlen])
      rw [hstore, hsome, hlog, hwhole, List.map_append, List.map_append, List.map_singleton,
        List.map_singleton, hkey]
      exact (h.ran.trans ((List.take_sublist _ _).map _)).append (.refl _)

theorem Follows.delete {log : Log} {e : Entry} (h : Follows ⟨log, some e⟩ n ran)
    (hg : Ledger.Sound ⟨log, some e⟩) (sender : MemberId) :
    Follows ⟨log, none⟩ (n.absorb sender (.deleteEntry e.id)) ran := by
  rcases h.pending with hle | ht
  · have hne := h.provisional_ne hg hle
    rw [absorb_delete_of_ne hne]
    refine h.spared (Ledger.Step.delete.spares ?_)
    rintro id hk ⟨⟩
    exact hne hk
  · obtain ⟨l, x, hlog, hlen, hkey⟩ := ht.log
    have hx : x.id = e.id := congrArg Prod.fst hkey
    obtain ⟨hstore, hprov⟩ := absorb_delete_of_eq h.ready ht.provisional sender
    rw [hlog, ← hx, Log.truncate_last] at hstore
    have hn := h.ready.numbered
    rw [hlog] at hn
    rw [← hx] at hprov ⊢
    refine ⟨?_, ?_, .inl ?_, ?_⟩
    · rw [hstore]
      exact ⟨h.ready.available, h.ready.alone, hn.left⟩
    · rw [hprov]
      rintro _ ⟨⟩
    · rw [hstore]
      exact hlen.le
    · rw [hstore, hlen, List.take_length]
      exact h.ran.trans ((List.take_sublist _ _).map _)

theorem Follows.batch {log : Log} (h : Follows ⟨log, none⟩ n ran) (hl : log.Numbered)
    (sender leader : MemberId) (k : Nat) :
    Follows ⟨log, none⟩ (n.absorb sender (.batch leader (log.drop k)))
      (ran ++ n.executes (.batch leader (log.drop k))) := by
  have hstore := absorb_batch h.ready hl sender leader k
  rw [executes_batch h.ready hl]
  by_cases hk : k ≤ n.store.log.length
  · rw [newEntries, if_pos hk] at hstore ⊢
    have hlen : (n.store.log ++ log.drop n.store.log.length).length = log.length := by
      have := h.settled
      simp
      omega
    refine ⟨?_, ?_, .inl ?_, ?_⟩
    · rw [hstore]
      exact ⟨h.ready.available, h.ready.alone, h.ready.numbered.splice hl⟩
    · intro k hk
      rw [hstore, hlen]
      exact (h.provisional k hk).trans h.settled
    · rw [hstore, hlen]
    · rw [hstore, hlen, List.take_length, List.map_append]
      conv_rhs => rw [← List.take_append_drop n.store.log.length log, List.map_append]
      exact h.ran.append (.refl _)
  · rw [newEntries, if_neg hk] at hstore ⊢
    rw [List.append_nil] at hstore ⊢
    exact h.of_eq hstore rfl

theorem Follows.read {m : Message} (h : Follows g n ran) (hg : g.Sound) (hs : g.Step m g')
    (sender : MemberId) : Follows g' (n.absorb sender m) (ran ++ n.executes m) := by
  cases hs with
  | ask round hid ht =>
    show Follows _ _ (ran ++ [])
    rw [List.append_nil]
    exact h.ask hid ht sender round
  | apply => exact h.apply hg sender
  | delete =>
    show Follows _ _ (ran ++ [])
    rw [List.append_nil]
    exact h.delete hg sender
  | batch leader k => exact h.batch hg.settled sender leader k
  | empty leader =>
    obtain ⟨hstore, hexecutes⟩ := absorb_empty h.ready sender leader
    rw [hexecutes, List.append_nil]
    exact h.of_eq hstore rfl
  | other hm =>
    obtain ⟨hstore, hprov⟩ := (absorbed sender m n).keeps hm
    rw [executes_other hm, List.append_nil]
    exact h.of_eq hstore hprov

/-! A follower that has caught up appends the entry of a vote where the leader has it. -/

theorem Aligned.ask {log : Log} {e : Entry} {command : Command} (h : Aligned ⟨log, none⟩ n)
    (hf : Follows ⟨log, none⟩ n ran) (hle : log.length ≤ n.store.log.length)
    (hid : e.id = log.length + 1) (ht : e.command = command.text) (sender : MemberId)
    (round : Option Nat) :
    Aligned ⟨log, some e⟩ (n.absorb sender (.roundRequest .post command round)) := by
  obtain ⟨⟨time, hstore⟩, _⟩ := attended hf.ready sender command round
  have hlen : n.store.log.length = log.length := le_antisymm hf.settled hle
  have heq : n.store.log.map Entry.key = log.map Entry.key := by
    refine List.IsPrefix.eq_of_length ?_ (by simp [hlen])
    simpa [Aligned] using h
  rw [Aligned, hstore]
  simp [heq, Entry.key, hid, ht, hlen]

theorem Aligned.delete {log : Log} {e : Entry} (h : Aligned ⟨log, some e⟩ n)
    (hf : Follows ⟨log, some e⟩ n ran) (hg : Ledger.Sound ⟨log, some e⟩) (sender : MemberId) :
    Aligned ⟨log, none⟩ (n.absorb sender (.deleteEntry e.id)) := by
  rcases hf.pending with hle | ht
  · have hne := hf.provisional_ne hg hle
    rw [absorb_delete_of_ne hne]
    refine h.spared hf (Ledger.Step.delete.spares ?_)
    rintro id hk ⟨⟩
    exact hne hk
  · obtain ⟨l, x, hlog, hlen, hkey⟩ := ht.log
    have hx : x.id = e.id := congrArg Prod.fst hkey
    have hstore := (absorb_delete_of_eq hf.ready ht.provisional sender).1
    rw [hlog, ← hx, Log.truncate_last] at hstore
    rw [Aligned, hlog] at h
    rw [Aligned, ← hx, hstore]
    refine List.prefix_of_prefix_length_le (((List.prefix_append l [x]).map _).trans h) ?_ ?_
    · simp
    · simp [hlen]

theorem Aligned.batch {log : Log} (h : Aligned ⟨log, none⟩ n) (hf : Follows ⟨log, none⟩ n ran)
    (hl : log.Numbered) (sender leader : MemberId) (k : Nat) :
    Aligned ⟨log, none⟩ (n.absorb sender (.batch leader (log.drop k))) := by
  have hstore := absorb_batch hf.ready hl sender leader k
  by_cases hk : k ≤ n.store.log.length
  · rw [newEntries, if_pos hk] at hstore
    have heq : n.store.log.map Entry.key = (log.take n.store.log.length).map Entry.key := by
      rw [List.map_take]
      refine List.IsPrefix.eq_of_length (List.prefix_take_iff.mpr ⟨?_, by simp⟩) ?_
      · simpa [Aligned] using h
      · simp [hf.settled]
    rw [Aligned, hstore, List.map_append, heq, ← List.map_append, List.take_append_drop]
    simp
  · rw [newEntries, if_neg hk, List.append_nil] at hstore
    rw [Aligned, hstore]
    exact h

theorem Aligned.read {m : Message} (h : Aligned g n) (hf : Follows g n ran) (hg : g.Sound)
    (hs : g.Step m g') (sender : MemberId)
    (hle : m.kind = .roundRequest → g.settled.length ≤ n.store.log.length) :
    Aligned g' (n.absorb sender m) := by
  cases hs with
  | ask round hid ht => exact h.ask hf (hle rfl) hid ht sender round
  | apply =>
    rw [Aligned, absorb_apply hf.ready]
    simpa [Aligned] using h
  | delete => exact h.delete hf hg sender
  | batch leader k => exact h.batch hf hg.settled sender leader k
  | empty leader =>
    rw [Aligned, (absorb_empty hf.ready sender leader).1]
    exact h
  | other hm =>
    rw [Aligned, ((absorbed sender m n).keeps hm).1]
    exact h

end Node
end Accord
