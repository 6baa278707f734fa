import Accord.Proofs.Cluster.Election
import Accord.Proofs.Cluster.Links
import Accord.Proofs.Message.RoundTrip
import Accord.Proofs.Node.Operations

/-! # Two leaders are about to hear of each other

Nodes keep no record of whom they voted for, so two candidates can win at once. In a cluster whose
links are all up and never drop, a node that takes the lead announces it on every link, and a leader
that hears of another one gives up. Hence two nodes lead at the same time only while the
announcement of one of them is on its way to the other. -/
namespace Accord

namespace Node

variable {o : Occasion} {n m : Node}

theorem leads_congr (hs : m.standing.self = n.standing.self)
    (hl : m.standing.leader = n.standing.leader) : m.leads = n.leads := by
  rw [Bool.eq_iff_iff, leads_iff, leads_iff, hs, hl]

/-- A node that begins to lead announces it. -/
theorem Deed.proclaims (h : Deed o n m) (ho : o ≠ .news n.standing.self) (hn : n.leads = false)
    (hm : m.leads = true) : m.outbox = n.outbox ++ n.directory.broadcast (.announcement n.id) := by
  have hkept (hl : m.leads = n.leads) :
      m.outbox = n.outbox ++ n.directory.broadcast (.announcement n.id) := by
    rw [hl, hn] at hm
    cases hm
  cases h with
  | wait _ _ _ hs hl => exact hkept (leads_congr hs hl)
  | forget _ _ _ hl =>
    rw [leads_iff] at hm
    cases hl.symm.trans hm
  | follow _ _ hh hs hl =>
    rw [leads_iff] at hm
    have hself := Option.some.inj (hl.symm.trans (hm.trans (congrArg some hs)))
    exact absurd (hself ▸ hh) ho
  | win => rfl
  | reign => rfl
  | begin _ _ _ hop => exact hkept (by rw [leads, hop.standing]; rfl)
  | succeed _ _ hc => exact hkept (by rw [leads, hc.ballot.2]; rfl)
  | fail _ hd => exact hkept (by rw [leads, hd.ballot.2]; rfl)
  | _ => exact hkept rfl

theorem Deeds.proclaims (h : Deeds o n m) (ho : o ≠ .news n.standing.self)
    (hs : Keyed.Sorted n.directory.records) {v : MemberId} (hv : n.directory.reaches v = true)
    (hm : m.leads = true) : n.leads = true ∨ .announcement n.id ∈ m.postedTo v := by
  induction h with
  | refl => exact .inl hm
  | @tail a b ha hab ih =>
    have hsame := Deeds.same ha
    cases hl : a.leads with
    | true =>
      refine (ih hl).imp_right ?_
      intro hmem
      rcases hab.posts (hsame.directory ▸ hs) v with he | ⟨_, _, he⟩
      · exact he ▸ hmem
      · exact he ▸ List.mem_append_left _ hmem
    | false =>
      right
      have hout := hab.proclaims (hsame.self ▸ ho) hl hm
      rw [postedTo_broadcast (hsame.directory ▸ hs) hout, hsame.directory, if_pos hv, id,
        hsame.topology]
      exact List.mem_append_right _ (List.mem_singleton_self _)

/-- A node that hears of a leader does not lead. -/
theorem leads_onAnnouncement {leader : MemberId} (hid : leader ≠ n.id)
    (hs : leader ≠ n.standing.self) : (n.onAnnouncement leader).leads = false := by
  have hturn : (n.turnTo leader).standing.leader = some leader := by
    simp only [turnTo]
    split <;> rfl
  have hself := (deeds_turnTo (o := .news leader) rfl n).same.self
  rw [onAnnouncement, if_neg hid, ← Bool.not_eq_true, leads_iff, hturn, hself]
  exact fun h => hs (Option.some.inj h)

end Node

/-! ## Healthy clusters -/

/-- Every node has a link to every other one. -/
def World.Meshed (w : World) : Prop :=
  ∀ a ∈ Keyed.keys w.nodes, ∀ b ∈ Keyed.keys w.nodes, a ≠ b → (w.link? ⟨a, b⟩).isSome = true

instance (w : World) : Decidable w.Meshed := inferInstanceAs (Decidable (∀ _ ∈ _, ∀ _ ∈ _, _ → _))

/-- Links are opened once and never closed, and nodes do something only once all links are up. -/
def Action.Healthy (w : World) : Action → Prop
  | .openLink ends => ends.source ≠ ends.target ∧ (w.link? ends).isNone = true
  | .setClock _ => True
  | .campaign _ => w.Meshed
  | .tick _ => w.Meshed
  | .submit _ _ _ => w.Meshed
  | .connected id peer => peer ≠ id ∧ w.Meshed
  | .deliver _ => w.Meshed
  | _ => False

instance Action.decidableHealthy (w : World) : ∀ a : Action, Decidable (a.Healthy w)
  | .openLink ends =>
    inferInstanceAs (Decidable (ends.source ≠ ends.target ∧ (w.link? ends).isNone = true))
  | .setClock _ => .isTrue trivial
  | .campaign _ => inferInstanceAs (Decidable w.Meshed)
  | .tick _ => inferInstanceAs (Decidable w.Meshed)
  | .submit _ _ _ => inferInstanceAs (Decidable w.Meshed)
  | .connected id peer => inferInstanceAs (Decidable (peer ≠ id ∧ w.Meshed))
  | .deliver _ => inferInstanceAs (Decidable w.Meshed)
  | .closeLink _ => .isFalse id
  | .hangUp _ => .isFalse id
  | .lose _ => .isFalse id
  | .switchStore _ _ => .isFalse id
  | .disconnected _ _ => .isFalse id
  | .stray _ => .isFalse id

theorem Action.Healthy.steady {w : World} {a : Action} (h : a.Healthy w) : a.Steady w := by
  cases a with
  | openLink ends => exact h.1
  | connected id peer => exact h.1
  | setClock clock => trivial
  | campaign id => trivial
  | tick id => trivial
  | submit id method command => trivial
  | deliver ends => trivial
  | _ => exact h.elim

theorem Action.Healthy.meshed {t : Turn} (h : t.action.Healthy t.before) {p : MemberId × Stimulus}
    (hs : t.stimulus? = some p) : t.before.Meshed := by
  obtain ⟨w, a⟩ := t
  cases a with
  | campaign id => exact h
  | tick id => exact h
  | submit id method command => exact h
  | connected id peer => exact h.2
  | deliver ends => exact h
  | disconnected id peer => exact h.elim
  | stray x => exact h.elim
  | _ => cases hs

section

variable {size : Nat} {turns : List Turn} {w : World}

theorem Run.steady (r : Run Action.Healthy size turns w) : Run Action.Steady size turns w :=
  r.mono fun h => h.steady

theorem World.Fresh.node_le {w : World} (h : w.Fresh size) {id : MemberId} {n : Node}
    (hn : w.node? id = some n) : id ≤ size := by
  have hmem : id ∈ Keyed.keys w.nodes := by
    rw [Keyed.mem_keys_iff]
    exact Option.isSome_of_eq_some hn
  rw [h.members, List.mem_range'_1] at hmem
  exact Nat.lt_one_add_iff.mp hmem.2

/-- The nodes of a cluster are numbered up to its size. -/
theorem Run.node_le {allowed : World → Action → Prop} (r : Run allowed size turns w) {id : MemberId}
    {n : Node} (hn : w.node? id = some n) : id ≤ size := by
  refine r.invariant (P := fun _ w => ∀ n, w.node? id = some n → id ≤ size) ?_ ?_ n hn
  · intro w hw n hn
    exact hw.node_le hn
  · intro turns t r _ ih m hm
    obtain ⟨n, hn, _⟩ := t.nodeStep r.settled hm
    exact ih n hn

variable {t : Turn} {a b : MemberId}

/-- A leader has not been told of another one. -/
theorem Turn.announcement_waits (r : Run Action.Healthy size turns t.before)
    (ha : t.action.Healthy t.before) (hsize : size < Text.wordLimit) (hne : a ≠ b)
    {n : Node} (hn : t.before.node? a = some n) {m : Node} (hm : t.after.node? b = some m)
    (hl : m.leads = true) (h : .announcement a ∈ t.before.pending ⟨a, b⟩) :
    .announcement a ∈ t.after.pending ⟨a, b⟩ := by
  obtain ⟨m₀, hm₀, hstep⟩ := t.nodeStep r.settled hm
  rcases t.acts_or_rests r.settled ha.steady with ⟨id, s, n₀, hact⟩ | hrest
  · rw [← t.taken_append_onset] at h
    rcases List.mem_append.mp h with htaken | honset
    · -- the announcement is delivered in this turn, and its receiver leads no more
      have hactb := Turn.acts_of_taken hm₀ htaken
      have hp := r.steady.inOrder.anyOrder.proper hm₀
      rw [hactb.self r.settled] at hm
      obtain rfl := Option.some.inj hm
      have hread := Message.ofText_text_announcement (lt_of_le_of_lt (r.node_le hn) hsize)
      have hfalse : ((Stimulus.message a (.announcement a)).react
          (m₀.setClock t.before.clock)).leads = false := by
        simp only [Stimulus.react, Node.onFrame, hread, Node.onMessage]
        refine Node.leads_onAnnouncement ?_ ?_
        · exact fun h => hne (h.trans hp.self)
        · exact fun h => hne (h.trans hp.standing)
      rw [Node.emptied_leads, hfalse] at hl
      cases hl
    · rw [hact.pending r.settled]
      exact List.mem_append_left _ honset
  · have hreal : (t.before.node? (Ends.mk a b).target).isSome := by rw [hm₀]; rfl
    rcases hrest.pending hreal with he | ⟨_, hopen | hclose⟩
    · exact he ▸ h
    · rw [hopen] at ha
      rw [World.pending, Option.isNone_iff_eq_none.mp ha.2] at h
      cases h
    · rw [hclose] at ha
      exact ha.elim

/-- A node that begins to lead has announced it to every other one. -/
theorem Turn.announcement_sent (r : Run Action.Healthy size turns t.before)
    (ha : t.action.Healthy t.before) (hne : a ≠ b) {n n' : Node} (hn : t.before.node? a = some n)
    (hb : (t.before.node? b).isSome) (hn' : t.after.node? a = some n') (hl : n.leads = false)
    (hl' : n'.leads = true) : .announcement a ∈ t.after.pending ⟨a, b⟩ := by
  obtain ⟨n₀, hn₀, hstep⟩ := t.nodeStep r.settled hn'
  rw [hn] at hn₀
  cases hn₀
  have hany := r.steady.inOrder.anyOrder
  have hp := hany.proper hn
  cases hstep with
  | rewired hr =>
    obtain ⟨_, _, _, _, rfl⟩ := hr
    exact absurd (hl.symm.trans hl') (by decide)
  | @acted s hact =>
    have hmesh := ha.meshed hact.stimulus
    have hmem {id : MemberId} (h : (t.before.node? id).isSome) : id ∈ Keyed.keys t.before.nodes :=
      Keyed.mem_keys_iff.mpr h
    have hlink := hmesh a (hmem (by rw [hn]; rfl)) b (hmem hb) hne
    have hsame := s.intake_same (n.setClock t.before.clock)
    have hreach : (s.intake (n.setClock t.before.clock)).directory.reaches b = true := by
      rw [hsame.directory]
      exact (r.steady.wired ⟨a, b⟩).reaches hn hb ▸ hlink
    have hnews : s.occasion (n.setClock t.before.clock) ≠
        .news (s.intake (n.setClock t.before.clock)).standing.self := by
      rw [hsame.self.trans hp.standing]
      exact hact.leader_ne hany ha.steady.inOrder.anyOrder
    have hsorted : Keyed.Sorted (s.intake (n.setClock t.before.clock)).directory.records := by
      rw [hsame.directory]
      exact hp.sorted
    rcases (s.deeds_react _).proclaims hnews hsorted hreach hl' with hled | hsent
    · rw [Node.leads, s.intake_standing] at hled
      rw [show n.leads = true from hled] at hl
      cases hl
    · rw [hact.pending_linked r.settled hb hlink]
      refine List.mem_append_right _ ?_
      rwa [Node.id, hsame.topology, show (n.setClock t.before.clock).topology.self = a from hp.self]
        at hsent

/-- What is on its way between two leaders. -/
def World.Rivals (w : World) : Prop :=
  ∀ a b n m, a ≠ b → w.node? a = some n → w.node? b = some m → n.leads = true → m.leads = true →
    .announcement a ∈ w.pending ⟨a, b⟩ ∨ .announcement b ∈ w.pending ⟨b, a⟩

theorem Run.rivals (r : Run Action.Healthy size turns w) (hsize : size < Text.wordLimit) :
    w.Rivals := by
  refine r.invariant (P := fun _ w => w.Rivals) ?_ ?_
  · intro w hw a b n m _ hn _ hl
    obtain ⟨topology, timing, clock, dice, store, rfl, _⟩ := hw.started hn
    unfold Node.start Node.seek at hl
    cases hl
  · intro turns t r ha ih a b n m hne hn hm hl hl'
    obtain ⟨n₀, hn₀, _⟩ := t.nodeStep r.settled hn
    obtain ⟨m₀, hm₀, _⟩ := t.nodeStep r.settled hm
    cases hln : n₀.leads with
    | false => exact .inl (Turn.announcement_sent r ha hne hn₀ (by rw [hm₀]; rfl) hn hln hl)
    | true =>
      cases hlm : m₀.leads with
      | false =>
        exact .inr (Turn.announcement_sent r ha hne.symm hm₀ (by rw [hn₀]; rfl) hm hlm hl')
      | true =>
        rcases ih a b n₀ m₀ hne hn₀ hm₀ hln hlm with h | h
        · exact .inl (Turn.announcement_waits r ha hsize hne hn₀ hm hl' h)
        · exact .inr (Turn.announcement_waits r ha hsize hne.symm hm₀ hn hl h)

/-- In a healthy cluster two nodes lead at the same time only while the announcement of one of them
is on its way to the other; where no announcement is on its way, at most one node leads. -/
theorem leaders_announced (hsize : size < Text.wordLimit) (r : Run Action.Healthy size turns w) :
    (∀ a b n m, w.node? a = some n → w.node? b = some m → n.role = .leader → m.role = .leader →
      a ≠ b → .announcement a ∈ w.pending ⟨a, b⟩ ∨ .announcement b ∈ w.pending ⟨b, a⟩) ∧
    ((∀ ends leader, .announcement leader ∉ w.pending ends) → ∀ a b n m, w.node? a = some n →
      w.node? b = some m → n.role = .leader → m.role = .leader → a = b) := by
  have hrivals := r.rivals hsize
  have hleads {n : Node} (h : n.role = .leader) : n.leads = true :=
    Node.leads_iff.mpr (Node.role_iff.mp h)
  refine ⟨?_, ?_⟩
  · intro a b n m hn hm hl hl' hne
    exact hrivals a b n m hne hn hm (hleads hl) (hleads hl')
  · intro hnone a b n m hn hm hl hl'
    by_contra hne
    rcases hrivals a b n m hne hn hm (hleads hl) (hleads hl') with h | h
    · exact hnone _ _ h
    · exact hnone _ _ h

/-- Each of two nodes stands for election and gives the other one its vote. -/
def duel : List Action :=
  [.openLink ⟨1, 2⟩, .openLink ⟨2, 1⟩, .campaign 1, .campaign 2, .deliver ⟨1, 2⟩, .deliver ⟨2, 1⟩,
    .deliver ⟨2, 1⟩, .deliver ⟨1, 2⟩]

theorem run_duel : Run Action.Healthy 2 (pair.turns duel) (pair.play duel) :=
  (Run.start (World.boot_fresh ..)).playPermitted duel (by decide +kernel)

theorem roles_duel : ((pair.play duel).node? 1).map (·.role) = some .leader ∧
    ((pair.play duel).node? 2).map (·.role) = some .leader := by
  decide +kernel

/-- Two nodes of a healthy cluster lead at the same time. -/
theorem duel_elects_both : ∃ turns w n m, Run Action.Healthy 2 turns w ∧ w.node? 1 = some n ∧
    w.node? 2 = some m ∧ n.role = .leader ∧ m.role = .leader := by
  obtain ⟨n, hn, hl⟩ := Option.map_eq_some_iff.mp roles_duel.1
  obtain ⟨m, hm, hl'⟩ := Option.map_eq_some_iff.mp roles_duel.2
  exact ⟨_, _, n, m, run_duel, hn, hm, hl, hl'⟩

theorem duel_announced : .announcement 1 ∈ (pair.play duel).pending ⟨1, 2⟩ ∨
    .announcement 2 ∈ (pair.play duel).pending ⟨2, 1⟩ := by
  obtain ⟨n, hn, hl⟩ := Option.map_eq_some_iff.mp roles_duel.1
  obtain ⟨m, hm, hl'⟩ := Option.map_eq_some_iff.mp roles_duel.2
  exact (leaders_announced (by decide) run_duel).1 1 2 n m hn hm hl hl' (by decide)

end

end Accord
