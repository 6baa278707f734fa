import Accord.Proofs.Keyed
import Accord.World

/-! # Collecting what nodes send

Between two actions of a cluster nothing waits to be collected. When a node has acted, its outbox
goes to the links and its answers to the clients: `World.act_collect` says what the cluster is then,
and the lemmas on `World.become` what can be seen of it. -/
namespace Accord
namespace World

def link? (ends : Ends) (w : World) : Option Link := Keyed.get? ends w.links

/-- What a link has not delivered yet. -/
def pending (ends : Ends) (w : World) : List Message := ((w.link? ends).map (·.queue)).getD []

/-- Between two actions nothing waits to be collected. -/
structure Settled (w : World) : Prop where
  sorted : Keyed.Sorted w.nodes
  quiet : ∀ {id n}, w.node? id = some n → n.outbox = [] ∧ n.answers = []

end World

/-! ## What nodes send -/

namespace Node

/-- The node after its outbox and its answers have been collected. -/
def emptied (n : Node) : Node := { n with outbox := [], answers := [] }

theorem emptied_leads (n : Node) : n.emptied.leads = n.leads := rfl

theorem emptied_store (n : Node) : n.emptied.store = n.store := rfl

theorem emptied_provisional (n : Node) : n.emptied.provisional = n.provisional := rfl

/-- What a node sends, in the order in which it is collected. -/
def posted (id : MemberId) (n : Node) : List Transmission :=
  (n.outbox.mergeSort fun a b => a.peer ≤ b.peer).map fun d => ⟨⟨id, d.peer⟩, d.message⟩

/-- What a node sends to one peer. -/
def postedTo (peer : MemberId) (n : Node) : List Message :=
  (n.outbox.filter (·.peer = peer)).map (·.message)

theorem mem_posted {id : MemberId} {n : Node} {t : Transmission} :
    t ∈ n.posted id ↔
      t.ends.source = id ∧ ∃ d ∈ n.outbox, d.peer = t.ends.target ∧ d.message = t.message := by
  simp only [posted, List.mem_map, List.mem_mergeSort]
  constructor
  · rintro ⟨d, hd, rfl⟩
    exact ⟨rfl, d, hd, rfl, rfl⟩
  · obtain ⟨⟨source, target⟩, message⟩ := t
    rintro ⟨rfl, d, hd, rfl, rfl⟩
    exact ⟨d, hd, rfl⟩

theorem posted_on (id : MemberId) (n : Node) (ends : Ends) :
    ((n.posted id).filter (·.ends = ends)).map (·.message) =
      if ends.source = id then n.postedTo ends.target else [] := by
  rw [posted, List.filter_map, List.map_map]
  split
  · rename_i h
    have hp : ((fun t : Transmission => decide (t.ends = ends)) ∘ fun d : Delivery =>
        (⟨⟨id, d.peer⟩, d.message⟩ : Transmission)) = fun d => decide (d.peer = ends.target) := by
      funext d
      subst h
      obtain ⟨source, target⟩ := ends
      simp
    -- collecting link by link keeps the order of what goes to one peer
    rw [hp, Keyed.filter_mergeSort Delivery.peer]
    rfl
  · rename_i h
    rw [List.filter_eq_nil_iff.mpr]
    · rfl
    · intro d _ hd
      rw [Function.comp_apply, decide_eq_true_eq] at hd
      rw [← hd] at h
      exact h rfl

end Node

/-! ## Collecting -/

namespace World

/-- The cluster after a node has become another one: what it sent and answered is collected. -/
def become (id : MemberId) (n : Node) (w : World) : World :=
  (n.posted id).foldl enqueue
    { w with
      nodes := Keyed.modify id (fun _ => n.emptied) w.nodes
      sent := w.sent ++ n.posted id
      answers := w.answers ++ n.answers }

theorem enqueue_frame (w : World) (t : Transmission) :
    (w.enqueue t).nodes = w.nodes ∧ (w.enqueue t).sent = w.sent ∧
      (w.enqueue t).answers = w.answers ∧ (w.enqueue t).clock = w.clock ∧
      (w.enqueue t).submitted = w.submitted := by
  unfold enqueue
  split <;> exact ⟨rfl, rfl, rfl, rfl, rfl⟩

theorem foldl_enqueue_frame (ts : List Transmission) (w : World) :
    (ts.foldl enqueue w).nodes = w.nodes ∧ (ts.foldl enqueue w).sent = w.sent ∧
      (ts.foldl enqueue w).answers = w.answers ∧ (ts.foldl enqueue w).clock = w.clock ∧
      (ts.foldl enqueue w).submitted = w.submitted := by
  induction ts generalizing w with
  | nil => exact ⟨rfl, rfl, rfl, rfl, rfl⟩
  | cons t ts ih =>
    obtain ⟨h1, h2, h3, h4, h5⟩ := w.enqueue_frame t
    obtain ⟨g1, g2, g3, g4, g5⟩ := ih (w.enqueue t)
    exact ⟨g1.trans h1, g2.trans h2, g3.trans h3, g4.trans h4, g5.trans h5⟩

/-- What of some messages comes to wait on a link. -/
def arriving (w : World) (ends : Ends) (ts : List Transmission) : List Message :=
  if w.isReal ends.target then (ts.filter (·.ends = ends)).map (·.message) else []

theorem link?_enqueue (w : World) (t : Transmission) (ends : Ends) :
    (w.enqueue t).link? ends =
      (w.link? ends).map fun l => { l with queue := l.queue ++ w.arriving ends [t] } := by
  unfold enqueue arriving link?
  by_cases h : t.ends = ends
  · subst h
    split
    · simp only [Keyed.get?_modify_self]
      simp [Link.push]
    · simp
  · split
    · simp only [Keyed.get?_modify_of_ne (Ne.symm h)]
      simp [h]
    · simp [h]

theorem link?_foldl_enqueue (ts : List Transmission) (w : World) (ends : Ends) :
    (ts.foldl enqueue w).link? ends =
      (w.link? ends).map fun l => { l with queue := l.queue ++ w.arriving ends ts } := by
  induction ts generalizing w with
  | nil => simp [arriving]
  | cons t ts ih =>
    have hr : (w.enqueue t).isReal ends.target = w.isReal ends.target := by
      rw [isReal, isReal, (w.enqueue_frame t).1]
    rw [List.foldl_cons, ih, link?_enqueue, Option.map_map]
    congr 1
    funext l
    simp only [Function.comp_apply, arriving, hr, List.append_assoc]
    split
    · rw [← List.map_append, ← List.filter_append, List.singleton_append]
    · rfl

variable {w : World} {id : MemberId} {n : Node}

theorem become_sent : (w.become id n).sent = w.sent ++ n.posted id :=
  (foldl_enqueue_frame _ _).2.1

theorem become_answers : (w.become id n).answers = w.answers ++ n.answers :=
  (foldl_enqueue_frame _ _).2.2.1

theorem become_submitted : (w.become id n).submitted = w.submitted :=
  (foldl_enqueue_frame _ _).2.2.2.2

theorem become_nodes :
    (w.become id n).nodes = Keyed.modify id (fun _ => n.emptied) w.nodes :=
  (foldl_enqueue_frame _ _).1

theorem node?_become_self {m : Node} (h : w.node? id = some m) :
    (w.become id n).node? id = some n.emptied := by
  rw [node?, become_nodes, Keyed.get?_modify_self]
  rw [node?] at h
  rw [h]
  rfl

theorem node?_become_of_ne {other : MemberId} (h : other ≠ id) :
    (w.become id n).node? other = w.node? other := by
  rw [node?, become_nodes, Keyed.get?_modify_of_ne h]
  rfl

theorem isReal_modify (f : Node → Node) (other : MemberId) :
    Keyed.contains other (Keyed.modify id f w.nodes) = w.isReal other := by
  unfold isReal Keyed.contains
  by_cases h : other = id
  · subst h
    rw [Keyed.get?_modify_self, Option.isSome_map]
  · rw [Keyed.get?_modify_of_ne h]

theorem link?_become (ends : Ends) :
    (w.become id n).link? ends = (w.link? ends).map fun l =>
      { l with queue := l.queue ++
        if ends.source = id ∧ w.isReal ends.target = true then n.postedTo ends.target else [] } := by
  rw [become, link?_foldl_enqueue]
  congr 1
  funext l
  congr 2
  rw [arriving, isReal, isReal_modify, Node.posted_on]
  split_ifs <;> simp_all

theorem Settled.modify {f : Node → Node} (h : w.Settled) (id : MemberId)
    (hf : ∀ {n}, w.node? id = some n → (f n).outbox = [] ∧ (f n).answers = []) :
    World.Settled { w with nodes := Keyed.modify id f w.nodes } where
  sorted := by
    rw [Keyed.Sorted, Keyed.keys_modify]
    exact h.sorted
  quiet {other m} hm := by
    by_cases ho : other = id
    · subst ho
      rw [node?, Keyed.get?_modify_self, Option.map_eq_some_iff] at hm
      obtain ⟨n, hn, rfl⟩ := hm
      exact hf hn
    · rw [node?, Keyed.get?_modify_of_ne ho] at hm
      exact h.quiet hm

theorem Settled.of_nodes {v : World} (h : w.Settled) (hn : v.nodes = w.nodes) : v.Settled where
  sorted := by rw [hn]; exact h.sorted
  quiet {other m} hm := by
    rw [node?, hn] at hm
    exact h.quiet hm

theorem Settled.become (h : w.Settled) : (w.become id n).Settled :=
  (h.modify (f := fun _ => n.emptied) id fun _ => ⟨rfl, rfl⟩).of_nodes become_nodes

theorem collectNode_eq (hs : Keyed.Sorted w.nodes) (hn : w.node? id = some n) :
    w.collectNode id = w.become id n := by
  unfold collectNode
  rw [hn]
  simp only [Node.collect]
  rw [Keyed.put_of_get? hs hn]
  rfl

theorem collectNode_quiet (hs : Keyed.Sorted w.nodes)
    (hq : ∀ {n}, w.node? id = some n → n.outbox = [] ∧ n.answers = []) : w.collectNode id = w := by
  cases hn : w.node? id with
  | none => rw [collectNode, hn]
  | some n =>
    obtain ⟨ho, ha⟩ := hq hn
    have he : n.emptied = n := by rw [Node.emptied, ← ho, ← ha]
    rw [collectNode_eq hs hn, become, Node.posted, ho, ha, he, Keyed.modify_of_get? hs hn]
    simp

theorem foldl_collectNode_quiet (hs : Keyed.Sorted w.nodes) {ids : List MemberId}
    (hq : ∀ id ∈ ids, ∀ {n}, w.node? id = some n → n.outbox = [] ∧ n.answers = []) :
    ids.foldl collectNode w = w := by
  induction ids with
  | nil => rfl
  | cons id ids ih =>
    rw [List.foldl_cons, collectNode_quiet hs (hq id List.mem_cons_self)]
    exact ih fun k hk => hq k (List.mem_cons_of_mem id hk)

theorem Settled.collect (h : w.Settled) : w.collect = w :=
  foldl_collectNode_quiet h.sorted fun _ _ _ => h.quiet

theorem act_of_none {f : Node → Node} (h : w.node? id = none) : w.act id f = w := by
  have hm : id ∉ Keyed.keys w.nodes := by
    rw [Keyed.mem_keys_iff]
    rw [node?] at h
    simp [h]
  rw [act, Keyed.modify_of_not_mem hm]

/-- A node acts, and what it sent and answered is collected. -/
theorem act_collect {f : Node → Node} (hs : w.Settled) (hn : w.node? id = some n) :
    (w.act id f).collect = w.become id (f (n.setClock w.clock)) := by
  have hsort : Keyed.Sorted (w.act id f).nodes := by
    rw [act, Keyed.Sorted, Keyed.keys_modify]
    exact hs.sorted
  have hself : (w.act id f).node? id = some (f (n.setClock w.clock)) := by
    rw [node?] at hn
    rw [act, node?, Keyed.get?_modify_self, hn]
    rfl
  have hother : ∀ k, k ≠ id → ∀ {m}, (w.act id f).node? k = some m →
      m.outbox = [] ∧ m.answers = [] := by
    intro k hk m hm
    rw [act, node?, Keyed.get?_modify_of_ne hk] at hm
    exact hs.quiet hm
  have hbecome : (w.act id f).become id (f (n.setClock w.clock)) =
      w.become id (f (n.setClock w.clock)) := by
    rw [become, become, act, Keyed.modify_modify]
    rfl
  have hkeys : Keyed.keys (w.act id f).nodes = Keyed.keys w.nodes := by
    rw [act, Keyed.keys_modify]
  have hmem : id ∈ Keyed.keys w.nodes := by
    rw [node?] at hn
    rw [Keyed.mem_keys_iff, hn]
    rfl
  obtain ⟨front, back, hfb⟩ := List.append_of_mem hmem
  have hnd := hs.sorted.nodup
  rw [hfb] at hnd
  have hfront : ∀ k ∈ front, k ≠ id := by
    rintro k hk rfl
    exact (List.disjoint_of_nodup_append hnd) hk List.mem_cons_self
  rw [collect, hkeys, hfb, List.foldl_append, List.foldl_cons,
    foldl_collectNode_quiet hsort fun k hk => hother k (hfront k hk), collectNode_eq hsort hself,
    hbecome]
  exact foldl_collectNode_quiet hs.become.sorted fun _ _ _ => hs.become.quiet

theorem pending_become (ends : Ends) :
    (w.become id n).pending ends = w.pending ends ++
      if ends.source = id ∧ w.isReal ends.target = true ∧ (w.link? ends).isSome = true then
        n.postedTo ends.target
      else [] := by
  rw [pending, pending, link?_become]
  cases w.link? ends with
  | none => simp
  | some l => simp

end World

end Accord
