import Accord.Proofs.Cluster.Trace

/-! # Runs with one leader

Where only one node ever leads, the other nodes put nothing to the vote, tell nobody to write
anything and leave their own stores alone unless the leader tells them otherwise: all messages by
which logs are written come from the leader. -/
namespace Accord

namespace Node

variable {o : Occasion}

/-- A node that does not lead and does nothing for a client. -/
structure Meek (n : Node) : Prop where
  leads : n.leads = false
  round : n.round = none
  queue : n.queue = []

/-- What becomes of a node that does not lead while it does something by itself. -/
structure Obeys (n m : Node) : Prop where
  meek : m.Meek
  store : m.store = n.store
  provisional : m.provisional = n.provisional
  answers : m.answers = n.answers
  sends : ∀ d ∈ m.outbox, d ∈ n.outbox ∨ d.message.kind.isWriting = false

theorem Obeys.refl {n : Node} (h : n.Meek) : Obeys n n := ⟨h, rfl, rfl, rfl, fun _ => .inl⟩

theorem Obeys.trans {n m l : Node} (h : Obeys n m) (h' : Obeys m l) : Obeys n l where
  meek := h'.meek
  store := h'.store.trans h.store
  provisional := h'.provisional.trans h.provisional
  answers := h'.answers.trans h.answers
  sends d hd := (h'.sends d hd).elim (h.sends d) .inr

theorem Deed.obeys {n m : Node} (h : Deed o n m) (hn : n.Meek) (hm : m.leads = false) :
    Obeys n m := by
  have hkeep (hr : m.round = n.round) (hq : m.queue = n.queue) (hs : m.store = n.store)
      (hp : m.provisional = n.provisional) (ha : m.answers = n.answers) : Obeys n m := by
    refine ⟨⟨hm, hr.trans hn.round, hq.trans hn.queue⟩, hs, hp, ha, fun d hd => ?_⟩
    refine (h.sends hd).imp_right fun ⟨_, hsay⟩ => ?_
    generalize d.message = msg at hsay
    cases hsay with
    | roundRequest hr' => rw [hr, hn.round] at hr'; cases hr'
    | applyEntry hr' => rw [hn.round] at hr'; cases hr'
    | deleteEntry hr' => rw [hn.round] at hr'; cases hr'
    | _ => rfl
  cases h with
  | win => rw [leads_promote] at hm; cases hm
  | reign => rw [leads_promote] at hm; cases hm
  | begin _ _ hl => rw [hn.leads] at hl; cases hl
  | succeed hr => rw [hn.round] at hr; cases hr
  | fail hr => rw [hn.round] at hr; cases hr
  | dismiss _ _ hq => rw [hn.queue] at hq; cases hq
  | _ => exact hkeep rfl rfl rfl rfl rfl

/-- A node that hears of a leader does not become one. -/
theorem Deed.follows_news {leader : MemberId} {n m : Node} (h : Deed (.news leader) n m)
    (hne : leader ≠ n.standing.self) (hl : n.leads = false) : m.leads = false := by
  rw [← Bool.not_eq_true, leads_iff] at hl ⊢
  cases h with
  | wait _ _ _ hs he =>
    intro h
    exact hl (he.symm.trans (h.trans (congrArg some hs)))
  | forget _ _ _ he =>
    intro h
    cases he.symm.trans h
  | follow _ _ hh hs he =>
    intro h
    cases hh
    exact hne (Option.some.inj (he.symm.trans (h.trans (congrArg some hs))))
  | win hw => cases hw
  | reign hw => cases hw
  | begin _ _ _ ho => cases ho <;> exact hl
  | succeed _ _ hc => cases hc <;> exact hl
  | fail _ hd => cases hd <;> exact hl
  | _ => exact hl

/-- A node that leads neither before nor after its deeds does not lead in between. -/
theorem Deeds.leads_between {n a m : Node} (h : Deeds o n a) (h' : Deeds o a m)
    (hd : o ≠ .departure n.standing.self) (hn : n.leads = false) (hm : m.leads = false) :
    a.leads = false := by
  by_cases hnews : ∃ leader, o = .news leader ∧ leader ≠ n.standing.self
  · obtain ⟨leader, rfl, hne⟩ := hnews
    clear h'
    induction h with
    | refl => exact hn
    | tail ha hab ih => exact hab.follows_news ((Deeds.same ha).self ▸ hne) ih
  · have hself := (Deeds.same h).self
    simp only [not_exists, not_and, not_not] at hnews
    rw [← Bool.not_eq_true]
    intro ha
    suffices m.leads = true by rw [hm] at this; cases this
    clear hm
    induction h' with
    | refl => exact ha
    | tail hb hbc ih =>
      have hs := (Deeds.same hb).self.trans hself
      exact hbc.leads_of_leads (hs ▸ hd) (hs ▸ hnews) ih

theorem Deeds.obeys {n m : Node} (h : Deeds o n m) (hd : o ≠ .departure n.standing.self)
    (hn : n.Meek) (hm : m.leads = false) : Obeys n m := by
  have hpart {a : Node} (ha : Deeds o n a) (h' : Deeds o a m) : Obeys n a := by
    induction ha with
    | refl => exact .refl hn
    | tail ha hab ih =>
      have hab' := Relation.ReflTransGen.head hab h'
      exact (ih hab').trans
        (hab.obeys (ih hab').meek (Deeds.leads_between (ha.tail hab) h' hd hn.leads hm))
  exact hpart h .refl

theorem Absorbed.meek {sender : MemberId} {m : Message} {n n' : Node} (h : Absorbed sender n m n')
    (hn : n.Meek) : n'.Meek := by
  cases h with
  | count hr => rw [hn.round] at hr; cases hr
  | _ => exact ⟨hn.leads, hn.round, hn.queue⟩

/-- A node that does not lead hands out no entries. -/
theorem Replies.harmless {sender : MemberId} {m : Message} {n : Node} {d : Delivery}
    (h : Replies sender n m d) (hn : n.leads = false) : d.message.kind.isWriting = false := by
  cases h with
  | vote _ _ hm => rw [hm]; rfl
  | batch hl => rw [hn] at hl; cases hl
  | roundAnswer _ hm => rw [hm]; rfl

end Node

namespace Stimulus

variable {s : Stimulus} {n : Node}

theorem intake_meek (h : n.Meek) : (s.intake n).Meek := by
  cases s with
  | client op =>
    simp only [intake, h.leads, Bool.false_eq_true, if_false]
    exact ⟨h.leads, h.round, h.queue⟩
  | message sender m =>
    simp only [intake]
    split
    · exact (Node.absorbed _ _ _).meek h
    · exact h
  | _ => exact h

theorem intake_sends (hl : n.leads = false) {d : Delivery} (hd : d ∈ (s.intake n).outbox) :
    d ∈ n.outbox ∨ d.message.kind.isWriting = false := by
  cases s with
  | client op =>
    simp only [intake] at hd
    split at hd <;> exact .inl hd
  | message sender m =>
    simp only [intake] at hd
    split at hd
    · rcases (Node.absorbed _ _ _).sends hd with hd | ⟨_, hr⟩
      · exact .inl hd
      · exact .inr (hr.harmless hl)
    · exact .inl hd
  | _ => exact .inl hd

/-- A stimulus that does not tell a node to write anything. -/
def Harmless (s : Stimulus) : Prop :=
  ∀ sender m, s = .message sender m → m.kind.isWriting = false

theorem Harmless.keeps (h : s.Harmless) (n : Node) :
    (s.intake n).store = n.store ∧ (s.intake n).provisional = n.provisional := by
  cases s with
  | client op =>
    simp only [intake]
    split <;> exact ⟨rfl, rfl⟩
  | message sender m =>
    simp only [intake]
    split
    · rename_i m' hm
      exact (Node.absorbed _ _ _).keeps (Message.kind_of_ofText hm ▸ h sender m rfl)
    · exact ⟨rfl, rfl⟩
  | _ => exact ⟨rfl, rfl⟩

end Stimulus

/-! ## One leader -/

/-- No node but one ever leads. -/
def Sole (leader : MemberId) (turns : List Turn) : Prop :=
  ∀ t ∈ turns, ∀ id n, t.after.node? id = some n → n.leads = true → id = leader

/-- Along a trace no node but one leads. -/
def SoleAlong (leader : MemberId) (trace : List (Turn × World)) : Prop :=
  ∀ x ∈ trace, ∀ p ∈ x.2.nodes, p.2.leads = true → p.1 = leader

instance (leader : MemberId) (trace : List (Turn × World)) : Decidable (SoleAlong leader trace) :=
  inferInstanceAs (Decidable (∀ x ∈ trace, ∀ p ∈ x.2.nodes, p.2.leads = true → p.1 = leader))

theorem SoleAlong.sole {leader : MemberId} {w : World} {actions : List Action}
    (h : SoleAlong leader (w.trace actions)) : Sole leader (w.turns actions) := by
  intro t ht id n hn hlead
  exact h _ (World.mem_trace ht) (id, n) (Keyed.mem_of_get? hn) hlead

theorem Sole.left {leader : MemberId} {turns : List Turn} {t : Turn}
    (h : Sole leader (turns ++ [t])) : Sole leader turns :=
  fun t' ht => h t' (List.mem_append_left _ ht)

section

variable {size : Nat} {turns : List Turn} {w : World} {leader v : MemberId}

theorem Turn.Acts.occasion_ne {t : Turn} {id : MemberId} {s : Stimulus} {n : Node}
    (h : t.Acts id s n) (r : Run Action.InOrder size turns t.before)
    (ha : t.action.InOrder t.before) :
    s.occasion (n.setClock t.before.clock) ≠
      .departure (s.intake (n.setClock t.before.clock)).standing.self := by
  have hself : (s.intake (n.setClock t.before.clock)).standing.self = id := by
    rw [(s.intake_same _).self]
    exact (r.anyOrder.proper h.node).standing
  have hs := h.stimulus
  rw [hself]
  intro ho
  cases s with
  | disconnected peer =>
    cases ho
    obtain ⟨w, a⟩ := t
    cases a with
    | disconnected id' peer => cases hs; exact ha rfl
    | deliver ends =>
      obtain ⟨x, _, he⟩ := Option.map_eq_some_iff.mp hs
      cases he
    | _ => cases hs
  | message sender m =>
    simp only [Stimulus.occasion] at ho
    split at ho
    · rename_i m' _
      cases m' <;> cases ho
    · cases ho
  | _ => cases ho

/-- What a node does that leads neither before nor after. -/
theorem Turn.Acts.obeys {t : Turn} {s : Stimulus} {n : Node} (h : t.Acts v s n)
    (r : Run Action.InOrder size turns t.before) (ha : t.action.InOrder t.before)
    (hs : Sole leader (turns ++ [t])) (hv : v ≠ leader) (hn : n.Meek) :
    Node.Obeys (s.intake (n.setClock t.before.clock)) (s.react (n.setClock t.before.clock)) := by
  refine Node.Deeds.obeys (s.deeds_react _) (h.occasion_ne r ha)
    (Stimulus.intake_meek ⟨hn.leads, hn.round, hn.queue⟩) ?_
  rw [← Bool.not_eq_true]
  intro hl
  exact hv (hs t (by simp) v _ (h.self r.settled) hl)

namespace Run

theorem meek (r : Run Action.InOrder size turns w) (hs : Sole leader turns) (hv : v ≠ leader)
    {n : Node} (h : w.node? v = some n) : n.Meek := by
  refine r.invariant (P := fun turns w => Sole leader turns → ∀ n, w.node? v = some n → n.Meek)
    ?_ ?_ hs n h
  · intro w hw _ n hn
    obtain ⟨topology, timing, clock, dice, store, rfl, _⟩ := hw.started hn
    unfold Node.start Node.seek
    obtain ⟨pick, dice⟩ := (Node.new topology timing clock dice store).dice.roll
    exact ⟨rfl, rfl, rfl⟩
  · intro turns t r ha ih hs m hm
    obtain ⟨n, hn, hstep⟩ := t.nodeStep r.settled hm
    have hmeek := ih hs.left n hn
    cases hstep with
    | acted h =>
      obtain ⟨hl, hr, hq⟩ := (h.obeys r ha hs hv hmeek).meek
      exact ⟨hl, hr, hq⟩
    | rewired hr =>
      obtain ⟨_, _, _, _, rfl⟩ := hr
      exact ⟨hmeek.leads, hmeek.round, hmeek.queue⟩

/-- Only the leader tells nodes to write. -/
theorem source_of_writing (r : Run Action.InOrder size turns w) (hs : Sole leader turns)
    {x : Transmission} (hx : x ∈ w.sent) (hk : x.message.kind.isWriting = true) :
    x.ends.source = leader := by
  refine r.invariant (P := fun turns w => Sole leader turns → ∀ x ∈ w.sent,
    x.message.kind.isWriting = true → x.ends.source = leader) ?_ ?_ hs x hx hk
  · intro w hw _ x hx
    rw [hw.sent] at hx
    cases hx
  · intro turns t r ha ih hs x hx hk
    rw [t.sent_append r.settled] at hx
    rcases List.mem_append.mp hx with hx | hx
    · exact ih hs.left x hx hk
    · by_contra hne
      obtain ⟨s, n, hact, _⟩ := Turn.sends r.settled hx
      have hmeek := r.meek hs.left hne hact.node
      have hobeys := hact.obeys r ha hs hne hmeek
      rw [hact.sentNow r.settled] at hx
      obtain ⟨_, d, hd, _, hmsg⟩ := Node.mem_posted.mp hx
      have hharmless : d.message.kind.isWriting = false := by
        rcases hobeys.sends d hd with hd | hno
        · have hq : (n.setClock t.before.clock).outbox = [] := (r.settled.quiet hact.node).1
          rcases Stimulus.intake_sends (n := n.setClock t.before.clock) hmeek.leads hd with hd | hno
          · rw [hq] at hd
            cases hd
          · exact hno
        · exact hno
      rw [← hmsg, hharmless] at hk
      cases hk

end Run

/-- Nobody but the leader tells a node to write. -/
theorem Turn.Acts.harmless {t : Turn} {id : MemberId} {s : Stimulus} {n : Node} (h : t.Acts id s n)
    (r : Run Action.InOrder size turns t.before) (ha : t.action.InOrder t.before)
    (hs : Sole leader turns) (hne : ∀ m, s ≠ .message leader m) : s.Harmless := by
  rintro sender m rfl
  rw [← Bool.not_eq_true]
  intro hk
  have hsent := r.anyOrder.sent_of_delivery ha.anyOrder h.delivery
  have hsender : sender = leader := r.source_of_writing hs hsent hk
  exact hne m (by rw [hsender])

theorem Turn.Acts.harmless_leader {t : Turn} {s : Stimulus} {n : Node} (h : t.Acts leader s n)
    (r : Run Action.InOrder size turns t.before) (ha : t.action.InOrder t.before)
    (hs : Sole leader turns) : s.Harmless := by
  refine h.harmless r ha hs ?_
  rintro m rfl
  exact r.anyOrder.sent_apart (r.anyOrder.sent_of_delivery ha.anyOrder h.delivery) rfl

end

end Accord
