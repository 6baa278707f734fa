import Accord.Proofs.Cluster.Collect
import Accord.Proofs.Node.Deeds

/-! # Runs of a cluster

A run takes one action after another: something happens at one node, or a link changes, or time
passes. After each action what the node sent is on its links, so that between two actions all
outboxes are empty. `Turn.Acts` and `Turn.Idles` say once what an action does to the nodes, to what
was sent and to what waits on the links; all invariants of runs are derived from them. -/
namespace Accord

/-- What can happen to a cluster. -/
inductive Action where
  | campaign (id : MemberId)
  | tick (id : MemberId)
  | submit (id : MemberId) (method : Method) (command : Command)
  | connected (id peer : MemberId)
  | disconnected (id peer : MemberId)
  /-- Delivers the oldest message of a link. -/
  | deliver (ends : Ends)
  /-- Delivers a message that was sent at any time before. -/
  | stray (t : Transmission)
  | openLink (ends : Ends)
  | closeLink (ends : Ends)
  | hangUp (ends : Ends)
  | lose (ends : Ends)
  | switchStore (id : MemberId) (available : Bool)
  | setClock (clock : Clock)

namespace World

def perform (a : Action) (w : World) : World :=
  match a with
  | .campaign id => (w.handle id .campaign).collect
  | .tick id => (w.act id Node.tick).collect
  | .submit id method command => (w.submit id method command).2.collect
  | .connected id peer => (w.handle id (.connected peer)).collect
  | .disconnected id peer => (w.handle id (.disconnected peer)).collect
  | .deliver ends => (w.deliver ends 1).2
  | .stray t => (w.deliverOne t).collect
  | .openLink ends => w.openLink ends
  | .closeLink ends => w.closeLink ends
  | .hangUp ends => (w.hangUp ends).2
  | .lose ends => (w.lose ends).2
  | .switchStore id available => w.switchStore id available
  | .setClock clock => { w with clock }

/-- The nodes of a cluster of a size, started and not connected yet. -/
structure Fresh (size : Nat) (w : World) : Prop where
  members : Keyed.keys w.nodes = List.range' 1 size
  started : ∀ {id n}, w.node? id = some n → ∃ topology timing clock dice store,
    n = (Node.new topology timing clock dice store).start ∧ topology.self = id ∧
      topology.size = size
  links : w.links = []
  sent : w.sent = []
  answers : w.answers = []

end World

/-- One action of a run. -/
structure Turn where
  before : World
  action : Action

def Turn.after (t : Turn) : World := t.before.perform t.action

/-- The turns taken from a fresh cluster of a size, and the cluster after them. -/
inductive Run (allowed : World → Action → Prop) (size : Nat) : List Turn → World → Prop
  | start {w : World} (h : w.Fresh size) : Run allowed size [] w
  | turn {turns : List Turn} {w : World} {a : Action} (r : Run allowed size turns w)
      (h : allowed w a) : Run allowed size (turns ++ [⟨w, a⟩]) (w.perform a)

/-- Messages arrive in the order in which they were sent on a link or not at all. Nodes are not
linked with themselves. -/
def Action.InOrder (_ : World) : Action → Prop
  | .connected id peer => peer ≠ id
  | .disconnected id peer => peer ≠ id
  | .openLink ends => ends.source ≠ ends.target
  | .stray _ => False
  | _ => True

/-- Messages arrive in any order, any number of times or not at all. -/
def Action.AnyOrder (w : World) : Action → Prop
  | .stray t => t ∈ w.sent
  | a => a.InOrder w

/-! ## Turns -/

/-- What makes a node act. -/
inductive Stimulus where
  | campaign
  | tick
  | client (op : Operation)
  | connected (peer : MemberId)
  | disconnected (peer : MemberId)
  | message (sender : MemberId) (m : Message)

def Stimulus.react : Stimulus → Node → Node
  | .campaign => Node.stand
  | .tick => Node.tick
  | .client op => Node.submit op
  | .connected peer => Node.onConnected peer
  | .disconnected peer => Node.onDisconnected peer
  | .message sender m => Node.onFrame sender m.text

/-- What a node takes in of a stimulus before it does anything by itself. -/
def Stimulus.intake (s : Stimulus) (n : Node) : Node :=
  match s with
  | .client op =>
    if n.leads then n.setQueue (n.queue ++ [op])
    else n.answer op (.error (.notLeading n.standing.leader))
  | .message sender m =>
    match Message.ofText m.text with
    | .ok m => n.absorb sender m
    | .error _ => n
  | _ => n

def Stimulus.occasion (s : Stimulus) (n : Node) : Occasion :=
  match s with
  | .campaign => .timer n.store
  | .tick => .timer n.store
  | .disconnected peer => .departure peer
  | .message _ m =>
    match Message.ofText m.text with
    | .ok m => m.occasion
    | .error _ => .other
  | _ => .other

/-- A node takes a stimulus in, and what it does then are deeds. -/
theorem Stimulus.deeds_react (s : Stimulus) (n : Node) :
    Node.Deeds (s.occasion n) (s.intake n) (s.react n) := by
  cases s with
  | campaign => exact Node.deeds_stand rfl
  | tick => exact Node.deeds_tick n
  | client op =>
    simp only [intake, react, Node.submit]
    split
    · exact Node.deeds_proceed _
    · exact .refl
  | connected peer => exact Node.deeds_onConnected peer n
  | disconnected peer => exact Node.deeds_onDisconnected peer n
  | message sender m =>
    simp only [intake, react, Node.onFrame, occasion]
    cases Message.ofText m.text with
    | ok m => exact Node.deeds_onMessage sender m n
    | error e => exact .refl

namespace Turn

/-- The message that a turn delivers. -/
def delivery? (t : Turn) : Option Transmission :=
  match t.action with
  | .deliver ends => (t.before.pending ends).head?.map fun m => ⟨ends, m⟩
  | .stray x => some x
  | _ => none

/-- The node that acts in a turn, and why. -/
def stimulus? (t : Turn) : Option (MemberId × Stimulus) :=
  match t.action with
  | .campaign id => some (id, .campaign)
  | .tick id => some (id, .tick)
  | .submit id method command => some (id, .client ⟨t.before.submitted, method, command⟩)
  | .connected id peer => some (id, .connected peer)
  | .disconnected id peer => some (id, .disconnected peer)
  | _ => t.delivery?.map fun x => (x.ends.target, .message x.ends.source x.message)

/-- A turn in which the node `n` acts. -/
structure Acts (t : Turn) (id : MemberId) (s : Stimulus) (n : Node) : Prop where
  stimulus : t.stimulus? = some (id, s)
  node : t.before.node? id = some n

/-- The cluster at the moment when the node acts: what is delivered has left its link. -/
def onset (t : Turn) : World :=
  match t.action with
  | .deliver ends =>
    match t.before.link? ends with
    | some link =>
      { t.before with links := Keyed.put ends { link with queue := link.queue.drop 1 } t.before.links }
    | none => t.before
  | .submit _ _ _ => { t.before with submitted := t.before.submitted + 1 }
  | _ => t.before

variable {t : Turn} {id : MemberId} {s : Stimulus} {n : Node}

/-- Only the links and the count of submissions are changed before a node acts. -/
theorem onset_eq (t : Turn) :
    ∃ links submitted, t.onset = { t.before with links, submitted } := by
  unfold onset
  split
  · split
    · exact ⟨_, _, rfl⟩
    · exact ⟨_, _, rfl⟩
  · exact ⟨_, _, rfl⟩
  · exact ⟨_, _, rfl⟩

theorem onset_nodes : t.onset.nodes = t.before.nodes := by
  obtain ⟨_, _, h⟩ := t.onset_eq
  rw [h]

theorem onset_clock : t.onset.clock = t.before.clock := by
  obtain ⟨_, _, h⟩ := t.onset_eq
  rw [h]

theorem onset_sent : t.onset.sent = t.before.sent := by
  obtain ⟨_, _, h⟩ := t.onset_eq
  rw [h]

theorem onset_answers : t.onset.answers = t.before.answers := by
  obtain ⟨_, _, h⟩ := t.onset_eq
  rw [h]

theorem after_eq (h : t.stimulus? = some (id, s)) :
    t.after = (t.onset.act id s.react).collect := by
  obtain ⟨w, a⟩ := t
  cases a with
  | campaign id' => cases h; rfl
  | tick id' => cases h; rfl
  | submit id' method command => cases h; rfl
  | connected id' peer => cases h; rfl
  | disconnected id' peer => cases h; rfl
  | stray x => cases h; rfl
  | deliver ends =>
    rw [stimulus?, delivery?] at h
    simp only [World.pending, World.link?] at h
    cases hl : Keyed.get? ends w.links with
    | none => simp [hl] at h
    | some link =>
      obtain ⟨connection, live, queue⟩ := link
      cases queue with
      | nil => simp [hl] at h
      | cons m rest =>
        simp only [hl, Option.map_some, Option.getD_some, List.head?_cons, Option.some.injEq,
          Prod.mk.injEq] at h
        obtain ⟨rfl, rfl⟩ := h
        simp only [after, World.perform, World.deliver, onset, World.link?, hl]
        rfl
  | _ => cases h

namespace Acts

variable (h : t.Acts id s n)
include h

theorem node_onset : t.onset.node? id = some n := by
  rw [World.node?, onset_nodes]
  exact h.node

theorem after_become (hs : t.before.Settled) :
    t.after = t.onset.become id (s.react (n.setClock t.before.clock)) := by
  rw [after_eq h.stimulus, World.act_collect (hs.of_nodes onset_nodes) h.node_onset, onset_clock]

/-- The node that acted. -/
theorem self (hs : t.before.Settled) :
    t.after.node? id = some (s.react (n.setClock t.before.clock)).emptied := by
  rw [h.after_become hs]
  exact World.node?_become_self h.node_onset

theorem other (hs : t.before.Settled) {k : MemberId} (hk : k ≠ id) :
    t.after.node? k = t.before.node? k := by
  rw [h.after_become hs, World.node?_become_of_ne hk, World.node?, onset_nodes]
  rfl

theorem sent (hs : t.before.Settled) :
    t.after.sent = t.before.sent ++ (s.react (n.setClock t.before.clock)).posted id := by
  rw [h.after_become hs, World.become_sent, onset_sent]

theorem answers (hs : t.before.Settled) :
    t.after.answers = t.before.answers ++ (s.react (n.setClock t.before.clock)).answers := by
  rw [h.after_become hs, World.become_answers, onset_answers]

end Acts

/-- What a turn takes off a link. -/
def taken (t : Turn) (ends : Ends) : List Message :=
  match t.action with
  | .deliver e => if e = ends then (t.before.pending ends).take 1 else []
  | _ => []

theorem taken_append_onset (t : Turn) (ends : Ends) :
    t.taken ends ++ t.onset.pending ends = t.before.pending ends := by
  obtain ⟨w, a⟩ := t
  cases a with
  | deliver e =>
    simp only [taken, onset, World.pending, World.link?]
    by_cases h : e = ends
    · subst h
      cases hl : Keyed.get? e w.links with
      | none => simp [hl]
      | some link =>
        simp only [if_true, Option.map_some, Option.getD_some, Keyed.get?_put_self]
        exact List.take_append_drop 1 link.queue
    · rw [if_neg h]
      cases hl : Keyed.get? e w.links with
      | none => rfl
      | some link => simp only [Keyed.get?_put_of_ne (Ne.symm h), List.nil_append]
  | _ => rfl

theorem taken_idle {t : Turn} (h : t.stimulus? = none) (ends : Ends) : t.taken ends = [] := by
  obtain ⟨w, a⟩ := t
  cases a with
  | deliver e =>
    have hp : w.pending e = [] := by simpa [stimulus?, delivery?] using h
    simp only [taken]
    split
    · rename_i he
      subst he
      rw [hp]
      rfl
    · rfl
  | _ => rfl

theorem Acts.pending (h : t.Acts id s n) (hs : t.before.Settled) (ends : Ends) :
    t.after.pending ends = t.onset.pending ends ++
      if ends.source = id ∧ t.onset.isReal ends.target = true ∧
        (t.onset.link? ends).isSome = true then
          (s.react (n.setClock t.before.clock)).postedTo ends.target
      else [] := by
  rw [h.after_become hs, World.pending_become]

end Turn

/-- Nothing has happened to a node but to its connections, the reach of its store and its clock. -/
def Node.Rewired (n m : Node) : Prop :=
  ∃ directory available clock,
    (Keyed.Sorted n.directory.records → Keyed.Sorted directory.records) ∧
      m = { n with directory, store := { n.store with available }, clock }

theorem Node.Rewired.refl (n : Node) : n.Rewired n :=
  ⟨n.directory, n.store.available, n.clock, fun h => h, rfl⟩

theorem Node.Rewired.reconnect (n : Node) {directory : Directory}
    (h : Keyed.Sorted n.directory.records → Keyed.Sorted directory.records) :
    n.Rewired { n with directory } := ⟨directory, n.store.available, n.clock, h, rfl⟩

theorem Directory.sorted_register {d : Directory} (h : Keyed.Sorted d.records) (peer : MemberId) :
    Keyed.Sorted (d.register peer).2.records := h.put peer _

theorem Directory.sorted_remove {d : Directory} (h : Keyed.Sorted d.records) (peer : MemberId)
    (number : Nat) : Keyed.Sorted (d.remove peer number).2.records := by
  rw [remove]
  split
  · exact h.erase peer
  · exact h

theorem Directory.peers_hangUp (d : Directory) (number : Nat) :
    (d.hangUp number).peers = d.peers := by
  simp only [peers, hangUp, Keyed.keys, List.map_map]
  refine List.map_congr_left fun entry _ => ?_
  dsimp only [Function.comp]
  split <;> rfl

theorem Directory.sorted_hangUp {d : Directory} (h : Keyed.Sorted d.records) (number : Nat) :
    Keyed.Sorted (d.hangUp number).records := by
  rw [Keyed.Sorted, ← peers, peers_hangUp]
  exact h

/-- A turn in which no node acts. -/
structure Turn.Idles (t : Turn) : Prop where
  nodes : ∀ {id n}, t.before.node? id = some n → ∃ m, t.after.node? id = some m ∧ n.Rewired m ∧
    ∀ peer ∈ m.directory.peers, peer ∈ n.directory.peers ∨ t.action = .openLink ⟨id, peer⟩
  absent : ∀ {id}, t.before.node? id = none → t.after.node? id = none
  sent : t.after.sent = t.before.sent
  answers : t.after.answers = t.before.answers
  pending : ∀ ends, (t.taken ends ++ t.after.pending ends).Sublist (t.before.pending ends)
  settled : t.after.Settled

namespace Turn

theorem idles_of_nodes {t : Turn} (hs : t.before.Settled) (hn : t.after.nodes = t.before.nodes)
    (hsent : t.after.sent = t.before.sent) (ha : t.after.answers = t.before.answers)
    (hp : ∀ ends, (t.taken ends ++ t.after.pending ends).Sublist (t.before.pending ends)) :
    t.Idles where
  nodes {id n} h := ⟨n, by rw [World.node?, hn]; exact h, .refl n, fun _ => .inl⟩
  absent {id} h := by rw [World.node?, hn]; exact h
  sent := hsent
  answers := ha
  pending := hp
  settled := hs.of_nodes hn

/-- Links that are changed without a delivery lose nothing but what is under way on them. -/
theorem idles_of_links {t : Turn} (hs : t.before.Settled) (hst : t.stimulus? = none)
    (hn : t.after.nodes = t.before.nodes) (hsent : t.after.sent = t.before.sent)
    (ha : t.after.answers = t.before.answers)
    (hp : ∀ ends, (t.after.pending ends).Sublist (t.before.pending ends)) : t.Idles := by
  refine idles_of_nodes hs hn hsent ha fun ends => ?_
  rw [taken_idle hst]
  exact hp ends

/-- A turn that leaves the world as it is. -/
theorem idles_of_same {t : Turn} (hs : t.before.Settled) (hst : t.stimulus? = none)
    (h : t.after = t.before) : t.Idles :=
  idles_of_links hs hst (by rw [h]) (by rw [h]) (by rw [h]) fun _ => by rw [h]

/-- A turn that changes one node in place and some links. -/
theorem idles_of_put {t : Turn} {id : MemberId} {n m : Node} (hs : t.before.Settled)
    (hst : t.stimulus? = none) (hnode : t.before.node? id = some n) (hr : n.Rewired m)
    (hd : ∀ peer ∈ m.directory.peers,
      peer ∈ n.directory.peers ∨ t.action = .openLink ⟨id, peer⟩)
    (hn : t.after.nodes = Keyed.modify id (fun _ => m) t.before.nodes)
    (hsent : t.after.sent = t.before.sent) (ha : t.after.answers = t.before.answers)
    (hp : ∀ ends, (t.after.pending ends).Sublist (t.before.pending ends)) : t.Idles where
  nodes {k l} h := by
    by_cases hk : k = id
    · subst hk
      rw [hnode] at h
      cases h
      refine ⟨m, ?_, hr, hd⟩
      rw [World.node?] at hnode ⊢
      rw [hn, Keyed.get?_modify_self, hnode]
      rfl
    · refine ⟨l, ?_, .refl l, fun _ => .inl⟩
      rw [World.node?] at h ⊢
      rw [hn, Keyed.get?_modify_of_ne hk, h]
  absent {k} h := by
    have hk : k ≠ id := by
      rintro rfl
      rw [hnode] at h
      cases h
    rw [World.node?] at h ⊢
    rw [hn, Keyed.get?_modify_of_ne hk, h]
  sent := hsent
  answers := ha
  pending ends := by
    rw [taken_idle hst]
    exact hp ends
  settled := by
    have hq : m.outbox = [] ∧ m.answers = [] := by
      have hq := hs.quiet hnode
      obtain ⟨_, _, _, _, rfl⟩ := hr
      exact hq
    exact (hs.modify (f := fun _ => m) id fun _ => hq).of_nodes hn

theorem sublist_pending_put {w v : World} {ends : Ends} {link : Link}
    (hl : v.links = Keyed.put ends link w.links) (hq : link.queue.Sublist (w.pending ends))
    (e : Ends) : (v.pending e).Sublist (w.pending e) := by
  by_cases he : e = ends
  · subst he
    rw [World.pending, World.link?, hl, Keyed.get?_put_self]
    exact hq
  · rw [World.pending, World.link?, hl, Keyed.get?_put_of_ne he]
    exact .refl _

theorem sublist_pending_erase {w v : World} {ends : Ends}
    (hl : v.links = Keyed.erase ends w.links) (e : Ends) : (v.pending e).Sublist (w.pending e) := by
  by_cases he : e = ends
  · subst he
    rw [World.pending, World.link?, hl, Keyed.get?_erase_self]
    exact List.nil_sublist _
  · rw [World.pending, World.link?, hl, Keyed.get?_erase_of_ne he]
    exact .refl _

/-- What happens to a member without a node happens to nobody. -/
theorem idles_of_absent {t : Turn} {id : MemberId} {s : Stimulus} (hs : t.before.Settled)
    (hst : t.stimulus? = some (id, s)) (hn : t.before.node? id = none) : t.Idles := by
  have hno : t.onset.node? id = none := by rw [World.node?, onset_nodes]; exact hn
  have he : t.after = t.onset := by
    rw [after_eq hst, World.act_of_none hno, (hs.of_nodes onset_nodes).collect]
  refine idles_of_nodes hs (by rw [he, onset_nodes]) (by rw [he, onset_sent])
    (by rw [he, onset_answers]) fun ends => ?_
  rw [he, t.taken_append_onset ends]

/-! Each change of the links leaves the world as it is where there is nothing to change. -/

section

variable {w : World}

/-- A link on which nothing is under way. -/
theorem idles_deliver (hs : w.Settled) {ends : Ends} (hp : w.pending ends = []) :
    (Turn.mk w (.deliver ends)).Idles := by
  have hst : (Turn.mk w (.deliver ends)).stimulus? = none := by simp [stimulus?, delivery?, hp]
  cases hl : Keyed.get? ends w.links with
  | none => exact idles_of_same hs hst (by simp only [after, World.perform, World.deliver, hl])
  | some link =>
    have hq : link.queue = [] := by simpa [World.pending, World.link?, hl] using hp
    have ha : (Turn.mk w (.deliver ends)).after =
        { w with links := Keyed.put ends { link with queue := [] } w.links } := by
      simp only [after, World.perform, World.deliver, hl, hq]
      exact World.Settled.collect (hs.of_nodes rfl)
    exact idles_of_links hs hst (by rw [ha]) (by rw [ha]) (by rw [ha])
      (sublist_pending_put (by rw [ha]) (List.nil_sublist _))

theorem idles_lose (hs : w.Settled) (ends : Ends) : (Turn.mk w (.lose ends)).Idles := by
  cases hl : Keyed.get? ends w.links with
  | none => exact idles_of_same hs rfl (by simp only [after, World.perform, World.lose, hl])
  | some link =>
    have ha : (Turn.mk w (.lose ends)).after =
        { w with links := Keyed.put ends { link with queue := [] } w.links } := by
      simp only [after, World.perform, World.lose, hl]
    exact idles_of_links hs rfl (by rw [ha]) (by rw [ha]) (by rw [ha])
      (sublist_pending_put (by rw [ha]) (List.nil_sublist _))

theorem idles_openLink (hs : w.Settled) (ends : Ends) : (Turn.mk w (.openLink ends)).Idles := by
  cases hn : w.node? ends.source with
  | none => exact idles_of_same hs rfl (by simp only [after, World.perform, World.openLink, hn])
  | some n =>
    have ha : (Turn.mk w (.openLink ends)).after = { w with
        nodes := Keyed.put ends.source
          { n with directory := (n.directory.register ends.target).2 } w.nodes
        links := Keyed.put ends ⟨(n.directory.register ends.target).1, true, []⟩ w.links } := by
      simp only [after, World.perform, World.openLink, hn]
    refine idles_of_put hs rfl hn (.reconnect n fun h => Directory.sorted_register h ends.target)
      ?_ ?_ (by rw [ha]) (by rw [ha]) (sublist_pending_put (by rw [ha]) (List.nil_sublist _))
    · intro peer hp
      rcases Keyed.mem_keys_put.mp hp with rfl | hp
      · exact .inr rfl
      · exact .inl hp
    · rw [ha]
      exact Keyed.put_of_get? hs.sorted hn _

theorem idles_closeLink (hs : w.Settled) (ends : Ends) : (Turn.mk w (.closeLink ends)).Idles := by
  cases hn : w.node? ends.source with
  | none => exact idles_of_same hs rfl (by simp only [after, World.perform, World.closeLink, hn])
  | some n =>
    cases hl : Keyed.get? ends w.links with
    | none =>
      exact idles_of_same hs rfl (by simp only [after, World.perform, World.closeLink, hn, hl])
    | some link =>
      have ha : (Turn.mk w (.closeLink ends)).after = { w with
          nodes := Keyed.put ends.source
            { n with directory := (n.directory.remove ends.target link.connection).2 } w.nodes
          links := Keyed.erase ends w.links } := by
        simp only [after, World.perform, World.closeLink, hn, hl]
      refine idles_of_put hs rfl hn
        (.reconnect n fun h => Directory.sorted_remove h ends.target link.connection)
        ?_ ?_ (by rw [ha]) (by rw [ha]) (sublist_pending_erase (by rw [ha]))
      · intro peer hp
        rw [Directory.remove] at hp
        split at hp
        · exact .inl ((List.filter_sublist.map _).subset hp)
        · exact .inl hp
      · rw [ha]
        exact Keyed.put_of_get? hs.sorted hn _

theorem idles_hangUp (hs : w.Settled) (ends : Ends) : (Turn.mk w (.hangUp ends)).Idles := by
  cases hn : w.node? ends.source with
  | none => exact idles_of_same hs rfl (by simp only [after, World.perform, World.hangUp, hn])
  | some n =>
    rcases hl : Keyed.get? ends w.links with _ | ⟨connection, _ | _, queue⟩
    · exact idles_of_same hs rfl (by simp only [after, World.perform, World.hangUp, hn, hl])
    · exact idles_of_same hs rfl (by simp only [after, World.perform, World.hangUp, hn, hl])
    · have ha : (Turn.mk w (.hangUp ends)).after = { w with
          nodes := Keyed.put ends.source
            { n with directory := n.directory.hangUp connection } w.nodes
          links := Keyed.put ends ⟨connection, false, queue⟩ w.links } := by
        simp only [after, World.perform, World.hangUp, hn, hl]
      have hqueue : queue.Sublist (w.pending ends) := by rw [World.pending, World.link?, hl]; rfl
      refine idles_of_put hs rfl hn (.reconnect n fun h => Directory.sorted_hangUp h connection)
        ?_ ?_ (by rw [ha]) (by rw [ha]) (sublist_pending_put (by rw [ha]) hqueue)
      · intro peer hp
        exact .inl (n.directory.peers_hangUp connection ▸ hp)
      · rw [ha]
        exact Keyed.put_of_get? hs.sorted hn _

theorem idles_switchStore (hs : w.Settled) (id : MemberId) (available : Bool) :
    (Turn.mk w (.switchStore id available)).Idles := by
  cases hn : w.node? id with
  | none =>
    refine idles_of_same hs rfl ?_
    rw [after, World.perform, World.switchStore, World.act_of_none hn]
  | some n =>
    refine idles_of_put hs rfl hn ⟨n.directory, available, w.clock, fun h => h, rfl⟩
      (fun _ => .inl) ?_ rfl rfl fun _ => .refl _
    exact Keyed.modify_const hs.sorted hn fun m =>
      { m.setClock w.clock with store := { m.store with available } }

end

/-- In every turn one node acts or none does. -/
theorem acts_or_idles {t : Turn} (hs : t.before.Settled) :
    (∃ id s n, t.Acts id s n) ∨ t.Idles := by
  cases hst : t.stimulus? with
  | some p =>
    obtain ⟨id, s⟩ := p
    cases hn : t.before.node? id with
    | some n => exact .inl ⟨id, s, n, hst, hn⟩
    | none => exact .inr (idles_of_absent hs hst hn)
  | none =>
    right
    obtain ⟨w, a⟩ := t
    cases a with
    | campaign id => cases hst
    | tick id => cases hst
    | submit id method command => cases hst
    | connected id peer => cases hst
    | disconnected id peer => cases hst
    | stray x => cases hst
    | setClock clock => exact idles_of_links hs rfl rfl rfl rfl fun _ => .refl _
    | deliver ends => exact idles_deliver hs (by simpa [stimulus?, delivery?] using hst)
    | openLink ends => exact idles_openLink hs ends
    | closeLink ends => exact idles_closeLink hs ends
    | hangUp ends => exact idles_hangUp hs ends
    | lose ends => exact idles_lose hs ends
    | switchStore id available => exact idles_switchStore hs id available

/-- What a turn does to one node. -/
inductive NodeStep (t : Turn) (id : MemberId) (n : Node) : Node → Prop
  | acted {s : Stimulus} (h : t.Acts id s n) :
      NodeStep t id n (s.react (n.setClock t.before.clock)).emptied
  | rewired {m : Node} (hr : n.Rewired m)
      (hp : ∀ peer ∈ m.directory.peers,
        peer ∈ n.directory.peers ∨ t.action = .openLink ⟨id, peer⟩)
      (hno : ∀ s, ¬ t.Acts id s n) : NodeStep t id n m

theorem nodeStep {t : Turn} (hs : t.before.Settled) {id : MemberId} {m : Node}
    (hm : t.after.node? id = some m) :
    ∃ n, t.before.node? id = some n ∧ t.NodeStep id n m := by
  by_cases hact : ∃ s n, t.Acts id s n
  · obtain ⟨s, n, h⟩ := hact
    rw [h.self hs] at hm
    cases hm
    exact ⟨n, h.node, .acted h⟩
  · have hno {n : Node} (s : Stimulus) : ¬ t.Acts id s n := fun h => hact ⟨s, n, h⟩
    rcases t.acts_or_idles hs with ⟨k, s, n, h⟩ | h
    · have hk : id ≠ k := by
        rintro rfl
        exact hno s h
      rw [h.other hs hk] at hm
      exact ⟨m, hm, .rewired (.refl m) (fun _ => .inl) hno⟩
    · cases hb : t.before.node? id with
      | none =>
        rw [h.absent hb] at hm
        cases hm
      | some n =>
        obtain ⟨m', hm', hr, hp⟩ := h.nodes hb
        rw [hm'] at hm
        cases hm
        exact ⟨n, rfl, .rewired hr hp hno⟩

theorem settled_after {t : Turn} (hs : t.before.Settled) : t.after.Settled := by
  rcases t.acts_or_idles hs with ⟨id, s, n, h⟩ | h
  · rw [h.after_become hs]
    exact World.Settled.become (hs.of_nodes onset_nodes)
  · exact h.settled

end Turn

/-! ## Runs -/

theorem World.Fresh.settled {size : Nat} {w : World} (h : w.Fresh size) : w.Settled where
  sorted := by
    rw [Keyed.Sorted, h.members]
    exact List.pairwise_lt_range'
  quiet {id n} hn := by
    obtain ⟨topology, timing, clock, dice, store, rfl, _⟩ := h.started hn
    unfold Node.start Node.seek
    obtain ⟨pick, dice⟩ := (Node.new topology timing clock dice store).dice.roll
    exact ⟨rfl, rfl⟩

namespace Run

variable {allowed : World → Action → Prop} {size : Nat} {turns : List Turn} {w : World}

theorem settled (r : Run allowed size turns w) : w.Settled := by
  induction r with
  | start h => exact h.settled
  | @turn _ w a _ _ ih => exact Turn.settled_after (t := ⟨w, a⟩) ih

theorem next {t : Turn} (r : Run allowed size turns t.before) (h : allowed t.before t.action) :
    Run allowed size (turns ++ [t]) t.after := r.turn h

/-- The last turn of a run, and the run before it. -/
theorem last {t : Turn} (r : Run allowed size (turns ++ [t]) w) :
    Run allowed size turns t.before ∧ allowed t.before t.action ∧ w = t.after := by
  generalize hts : turns ++ [t] = ts at r
  cases r with
  | start h => simp at hts
  | turn r h =>
    obtain ⟨rfl, hl⟩ := List.append_inj' hts rfl
    cases hl
    exact ⟨r, h, rfl⟩

/-- A property of all runs: it holds at the start, and every turn keeps it. -/
theorem invariant {P : List Turn → World → Prop} (hstart : ∀ {w}, w.Fresh size → P [] w)
    (hturn : ∀ {turns : List Turn} {t : Turn}, Run allowed size turns t.before →
      allowed t.before t.action → P turns t.before → P (turns ++ [t]) t.after)
    (r : Run allowed size turns w) : P turns w := by
  induction r with
  | start h => exact hstart h
  | @turn _ w a r h ih => exact hturn (t := ⟨w, a⟩) r h ih

end Run

/-! ## Scenarios -/

/-- The nodes of a cluster of a size, all with the same store. -/
def World.boot (size : Nat) (timing : Timing) (clock : Clock) (store : Store) : World :=
  { World.empty clock with
    nodes := (List.range' 1 size).filterMap fun id => (Topology.of id size).toOption.map fun t =>
      (id, (Node.new t timing clock (.loaded id) store).start) }

theorem World.boot_fresh (size : Nat) (timing : Timing) (clock : Clock) (store : Store) :
    (World.boot size timing clock store).Fresh size where
  members := by
    have h : ∀ id ∈ List.range' 1 size, ∃ t, (Topology.of id size).toOption = some t := by
      intro id hid
      have hid : 1 ≤ id ∧ id ≤ size := by rw [List.mem_range'_1] at hid; omega
      refine ⟨⟨id, size, hid.1, hid.2⟩, ?_⟩
      rw [Topology.of, if_neg (by omega), dif_pos hid]
      rfl
    simp only [boot, Keyed.keys, List.map_filterMap]
    conv_rhs => rw [← List.filterMap_some (l := List.range' 1 size)]
    refine List.filterMap_congr fun id hid => ?_
    obtain ⟨t, ht⟩ := h id hid
    rw [ht]
    rfl
  started {id n} hn := by
    obtain ⟨id', _, h⟩ := List.mem_filterMap.mp (Keyed.mem_of_get? hn)
    obtain ⟨t, ht, h⟩ := Option.map_eq_some_iff.mp h
    cases h
    refine ⟨t, timing, clock, .loaded id, store, rfl, ?_⟩
    unfold Topology.of at ht
    split at ht
    · cases ht
    · split at ht
      · cases ht
        exact ⟨rfl, rfl⟩
      · cases ht
  links := rfl
  sent := rfl
  answers := rfl

/-- The cluster after some actions. -/
def World.play (w : World) (actions : List Action) : World :=
  actions.foldl (fun w a => w.perform a) w

/-- The turns in which a cluster takes some actions. -/
def World.turns (w : World) : List Action → List Turn
  | [] => []
  | a :: rest => ⟨w, a⟩ :: (w.perform a).turns rest

theorem Run.play {allowed : World → Action → Prop} {size : Nat} {turns : List Turn} {w : World}
    (r : Run allowed size turns w) (actions : List Action)
    (h : ∀ w, ∀ a ∈ actions, allowed w a) :
    Run allowed size (turns ++ w.turns actions) (w.play actions) := by
  induction actions generalizing turns w with
  | nil => rw [World.turns, List.append_nil]; exact r
  | cons a rest ih =>
    have := ih (r.turn (h w a (by simp))) fun w b hb => h w b (by simp [hb])
    rwa [List.append_assoc] at this

/-- Each action is allowed when its turn comes. -/
def World.Permits (allowed : World → Action → Prop) (w : World) : List Action → Prop
  | [] => True
  | a :: rest => allowed w a ∧ (w.perform a).Permits allowed rest

instance World.decidablePermits (allowed : World → Action → Prop) [∀ w a, Decidable (allowed w a)] :
    ∀ (w : World) (actions : List Action), Decidable (w.Permits allowed actions)
  | _, [] => .isTrue trivial
  | w, a :: rest =>
    have := World.decidablePermits allowed (w.perform a) rest
    inferInstanceAs (Decidable (allowed w a ∧ (w.perform a).Permits allowed rest))

theorem Run.playPermitted {allowed : World → Action → Prop} {size : Nat} {turns : List Turn}
    {w : World} (r : Run allowed size turns w) (actions : List Action)
    (h : w.Permits allowed actions) :
    Run allowed size (turns ++ w.turns actions) (w.play actions) := by
  induction actions generalizing turns w with
  | nil => rw [World.turns, List.append_nil]; exact r
  | cons a rest ih =>
    have := ih (r.turn h.1) h.2
    rwa [List.append_assoc] at this

/-- Two nodes without any entries. -/
def pair : World := .boot 2 .standard ⟨0, ⟨2024, 1, 1, 0, 0⟩⟩ .empty

/-- The first of two nodes stands for election, and the other one gets its request. -/
def poll : List Action :=
  [.openLink ⟨1, 2⟩, .openLink ⟨2, 1⟩, .campaign 1, .deliver ⟨1, 2⟩]

end Accord
