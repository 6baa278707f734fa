import Accord.Proofs.Cluster.Run

/-! # What was sent in a run

Who sends what, and why: a reply to the message at hand, or one of the messages that go with a deed.
Nodes keep their identity and are never linked with themselves. What is delivered was sent, and
where messages arrive in order, what was delivered on a link and what still waits there is a part of
what was sent on it. -/
namespace Accord

/-! ## Identities -/

/-- A node of a cluster: it knows who it is and is not connected with itself. -/
structure Node.Proper (size : Nat) (id : MemberId) (n : Node) : Prop where
  self : n.topology.self = id
  size : n.topology.size = size
  standing : n.standing.self = id
  apart : id ∉ n.directory.peers
  sorted : Keyed.Sorted n.directory.records

theorem Node.Proper.of_same {size : Nat} {id : MemberId} {n m : Node} (h : n.Proper size id)
    (hs : Node.Same n m) : m.Proper size id where
  self := by rw [hs.topology]; exact h.self
  size := by rw [hs.topology]; exact h.size
  standing := by rw [hs.self]; exact h.standing
  apart := by rw [hs.directory]; exact h.apart
  sorted := by rw [hs.directory]; exact h.sorted

theorem Stimulus.intake_same (s : Stimulus) (n : Node) : Node.Same n (s.intake n) := by
  cases s with
  | client op =>
    simp only [intake]
    split <;> exact ⟨rfl, rfl, rfl, rfl, rfl⟩
  | message sender m =>
    simp only [intake]
    split
    · exact (Node.absorbed _ _ _).same.1
    · exact .refl n
  | _ => exact .refl n

theorem Stimulus.react_same (s : Stimulus) (n : Node) : Node.Same n (s.react n) :=
  (s.intake_same n).trans (s.deeds_react n).same

theorem Action.InOrder.anyOrder {w : World} {a : Action} (h : a.InOrder w) : a.AnyOrder w := by
  cases a <;> first | exact h | exact h.elim

namespace Run

variable {size : Nat} {turns : List Turn} {w : World}

theorem mono {P Q : World → Action → Prop} (h : ∀ {w a}, P w a → Q w a) (r : Run P size turns w) :
    Run Q size turns w := by
  induction r with
  | start hw => exact .start hw
  | turn _ ha ih => exact .turn ih (h ha)

theorem anyOrder (r : Run Action.InOrder size turns w) : Run Action.AnyOrder size turns w :=
  r.mono fun h => h.anyOrder

theorem proper (r : Run Action.AnyOrder size turns w) {id : MemberId} {n : Node}
    (h : w.node? id = some n) : n.Proper size id := by
  refine r.invariant (P := fun _ w => ∀ {id n}, w.node? id = some n → n.Proper size id) ?_ ?_ h
  · intro w hw id n hn
    obtain ⟨topology, timing, clock, dice, store, rfl, rfl, rfl⟩ := hw.started hn
    unfold Node.start Node.seek
    obtain ⟨pick, dice⟩ := (Node.new topology timing clock dice store).dice.roll
    exact ⟨rfl, rfl, rfl, by simp [Node.new, Directory.empty, Directory.peers, Keyed.keys], .nil⟩
  · intro turns t r ha ih id m hm
    obtain ⟨n, hn, hstep⟩ := t.nodeStep r.settled hm
    have hp := ih hn
    cases hstep with
    | @acted s h =>
      have hc : (n.setClock t.before.clock).Proper size id := ⟨hp.1, hp.2, hp.3, hp.4, hp.5⟩
      obtain ⟨h1, h2, h3, h4, h5⟩ := hc.of_same (s.react_same _)
      exact ⟨h1, h2, h3, h4, h5⟩
    | rewired hr hpeers =>
      obtain ⟨directory, available, clock, hsorted, rfl⟩ := hr
      refine ⟨hp.self, hp.size, hp.standing, fun hmem => ?_, hsorted hp.sorted⟩
      rcases hpeers id hmem with hmem | hopen
      · exact hp.apart hmem
      · rw [hopen] at ha
        exact ha rfl

end Run

/-! ## Who sends what -/

/-- Whether what is sent to a peer leaves for it. -/
def Directory.reaches (peer : MemberId) (d : Directory) : Bool :=
  (Keyed.get? peer d.records).any (·.live)

theorem Directory.filter_broadcast {d : Directory} (hs : Keyed.Sorted d.records) (peer : MemberId)
    (msg : Message) :
    ((d.broadcast msg).filter (·.peer = peer)).map (·.message) =
      if d.reaches peer then [msg] else [] := by
  obtain ⟨issued, records⟩ := d
  induction records with
  | nil => rfl
  | cons entry rest ih =>
    obtain ⟨k, c⟩ := entry
    have hk : k ∉ Keyed.keys rest := (List.nodup_cons.mp hs.nodup).1
    have hr := ih hs.tail
    by_cases hp : peer = k
    · subst hp
      have hno : (Directory.mk issued rest).reaches peer = false := by
        rw [reaches, Keyed.get?_eq_none_of_not_mem hk]
        rfl
      have hc : (Directory.mk issued ((peer, c) :: rest)).reaches peer = c.live := by
        rw [reaches, Keyed.get?, if_pos rfl]
        rfl
      rw [hno, if_neg Bool.false_ne_true, broadcast] at hr
      rw [hc, broadcast, List.filterMap_cons, delivery?]
      cases c.live with
      | false => exact hr
      | true =>
        simp only [if_true]
        rw [List.filter_cons_of_pos (by simp), List.map_cons, hr]
    · have hc : (Directory.mk issued ((k, c) :: rest)).reaches peer =
          (Directory.mk issued rest).reaches peer := by
        rw [reaches, Keyed.get?, if_neg hp]
        rfl
      rw [hc, ← hr, broadcast, broadcast, List.filterMap_cons, delivery?]
      cases c.live <;> simp [Ne.symm hp]

theorem Directory.filter_dispatch (d : Directory) (peer target : MemberId) (msg : Message) :
    ((d.dispatch target msg).toList.filter (·.peer = peer)).map (·.message) =
      if peer = target ∧ d.reaches peer = true then [msg] else [] := by
  cases hc : Keyed.get? target d.records with
  | none =>
    have hr : ¬ (peer = target ∧ d.reaches peer = true) := by
      rintro ⟨rfl, hr⟩
      simp [reaches, hc] at hr
    rw [if_neg hr, dispatch, hc]
    rfl
  | some c =>
    rw [dispatch, hc, Option.bind_some, delivery?]
    by_cases hp : peer = target
    · subst hp
      have hr : d.reaches peer = c.live := by simp [reaches, hc]
      cases hl : c.live <;> simp [hr, hl]
    · cases hl : c.live <;> simp [hp, Ne.symm hp]

namespace Node

theorem postedTo_append {n m : Node} {ds : List Delivery} (h : m.outbox = n.outbox ++ ds)
    (peer : MemberId) :
    m.postedTo peer = n.postedTo peer ++ (ds.filter (·.peer = peer)).map (·.message) := by
  rw [postedTo, postedTo, h, List.filter_append, List.map_append]

theorem postedTo_broadcast {n m : Node} {msg : Message} (hs : Keyed.Sorted n.directory.records)
    (h : m.outbox = n.outbox ++ n.directory.broadcast msg) (peer : MemberId) :
    m.postedTo peer = n.postedTo peer ++ if n.directory.reaches peer then [msg] else [] := by
  rw [postedTo_append h, Directory.filter_broadcast hs]

theorem postedTo_dispatch {n m : Node} {target : MemberId} {msg : Message}
    (h : m.outbox = n.outbox ++ (n.directory.dispatch target msg).toList) (peer : MemberId) :
    m.postedTo peer = n.postedTo peer ++
      if peer = target ∧ n.directory.reaches peer = true then [msg] else [] := by
  rw [postedTo_append h, Directory.filter_dispatch]

/-- A deed sends at most one message to a peer. -/
theorem Deed.posts {o : Occasion} {n m : Node} (h : Deed o n m)
    (hs : Keyed.Sorted n.directory.records) (peer : MemberId) :
    m.postedTo peer = n.postedTo peer ∨
      ∃ msg, Says o n m msg ∧ m.postedTo peer = n.postedTo peer ++ [msg] := by
  rcases h.outbox with he | ⟨msg, hsay, he | ⟨target, he⟩⟩
  · rw [postedTo, he]
    exact .inl rfl
  · rw [postedTo_broadcast hs he]
    split
    · exact .inr ⟨msg, hsay, rfl⟩
    · exact .inl (List.append_nil _)
  · rw [postedTo_dispatch he]
    split
    · exact .inr ⟨msg, hsay, rfl⟩
    · exact .inl (List.append_nil _)

variable {o : Occasion}

/-- A node that does something in the course of its deeds. -/
structure Doing (o : Occasion) (n a b m : Node) : Prop where
  first : Deeds o n a
  deed : Deed o a b
  rest : Deeds o b m

theorem Deeds.sends {n m : Node} (h : Deeds o n m) {d : Delivery}
    (hd : d ∈ m.outbox) :
    d ∈ n.outbox ∨ d.peer ∈ n.directory.peers ∧
      ∃ a b, Doing o n a b m ∧ Says o a b d.message := by
  induction h with
  | refl => exact .inl hd
  | @tail a b ha hab ih =>
    rcases hab.sends hd with hd | ⟨hp, hs⟩
    · refine (ih hd).imp_right ?_
      rintro ⟨hp, x, y, hxy, hs⟩
      exact ⟨hp, x, y, ⟨hxy.first, hxy.deed, hxy.rest.tail hab⟩, hs⟩
    · rw [(Deeds.same ha).directory] at hp
      exact .inr ⟨hp, a, b, ⟨ha, hab, .refl⟩, hs⟩

end Node

/-- Why a node sends a message. -/
inductive Stimulus.Causes (s : Stimulus) (n : Node) (d : Delivery) : Prop
  | reply {sender : MemberId} {m m' : Message} (hs : s = .message sender m)
      (hm : Message.ofText m.text = .ok m') (hr : Node.Replies sender n m' d)
  | deed {a b : Node} (hd : Node.Doing (s.occasion n) (s.intake n) a b (s.react n))
      (hs : Node.Says (s.occasion n) a b d.message)

theorem Stimulus.sends {s : Stimulus} {n : Node} {d : Delivery} (hd : d ∈ (s.react n).outbox) :
    d ∈ n.outbox ∨ d.peer ∈ n.directory.peers ∧ s.Causes n d := by
  rcases (s.deeds_react n).sends hd with hd | ⟨hp, a, b, hab, hs⟩
  · cases s with
    | client op =>
      simp only [intake] at hd
      split at hd <;> exact .inl hd
    | message sender m =>
      simp only [intake] at hd
      split at hd
      · rename_i m' hm
        refine ((Node.absorbed _ _ _).sends hd).imp_right ?_
        rintro ⟨hp, hr⟩
        exact ⟨hp, .reply rfl hm hr⟩
      · exact .inl hd
    | _ => exact .inl hd
  · rw [(s.intake_same n).directory] at hp
    exact .inr ⟨hp, .deed hab hs⟩

/-- A node replies with at most one message. -/
theorem Node.Absorbed.posts {sender : MemberId} {m : Message} {n n' : Node}
    (h : Absorbed sender n m n') (peer : MemberId) :
    n'.postedTo peer = n.postedTo peer ∨
      ∃ d, Replies sender n m d ∧ d.peer = peer ∧ n'.postedTo peer = n.postedTo peer ++ [d.message] := by
  have hs {target : MemberId} {msg : Message}
      (hr : Replies sender n m ⟨0, target, msg⟩)
      (ho : n'.outbox = n.outbox ++ (n.directory.dispatch target msg).toList) :
      n'.postedTo peer = n.postedTo peer ∨ ∃ d, Replies sender n m d ∧ d.peer = peer ∧
        n'.postedTo peer = n.postedTo peer ++ [d.message] := by
    rw [postedTo_dispatch ho]
    split
    · rename_i hp
      exact .inr ⟨_, hr, hp.1.symm, rfl⟩
    · exact .inl (List.append_nil _)
  cases h with
  | vote hl => exact hs (.vote hl rfl rfl) rfl
  | handOut hl he => exact hs (.batch hl he rfl rfl) rfl
  | attend => exact hs (.roundAnswer rfl rfl) rfl
  | _ => exact .inl rfl

theorem Stimulus.posts (s : Stimulus) (n : Node) (peer : MemberId) :
    (s.intake n).postedTo peer = n.postedTo peer ∨
      ∃ sender m m' d, s = .message sender m ∧ Message.ofText m.text = .ok m' ∧
        Node.Replies sender n m' d ∧ d.peer = peer ∧
          (s.intake n).postedTo peer = n.postedTo peer ++ [d.message] := by
  cases s with
  | client op =>
    simp only [intake]
    split <;> exact .inl rfl
  | message sender m =>
    simp only [intake]
    split
    · rename_i m' hm
      refine ((Node.absorbed sender m' n).posts peer).imp_right ?_
      rintro ⟨d, hr, hp, hd⟩
      exact ⟨sender, m, m', d, rfl, hm, hr, hp, hd⟩
    · exact .inl rfl
  | _ => exact .inl rfl

/-- What is sent in a turn. -/
def Turn.sentNow (t : Turn) : List Transmission := t.after.sent.drop t.before.sent.length

theorem Turn.Acts.sentNow {t : Turn} {id : MemberId} {s : Stimulus} {n : Node} (h : t.Acts id s n)
    (hs : t.before.Settled) : t.sentNow = (s.react (n.setClock t.before.clock)).posted id := by
  rw [Turn.sentNow, h.sent hs, List.drop_left]

theorem Turn.sent_append (t : Turn) (hs : t.before.Settled) :
    t.after.sent = t.before.sent ++ t.sentNow := by
  rcases t.acts_or_idles hs with ⟨id, s, n, h⟩ | h
  · rw [h.sentNow hs, h.sent hs]
  · rw [Turn.sentNow, h.sent, List.drop_length, List.append_nil]

/-- Before its deeds a node has at most replied. -/
theorem Turn.Acts.posts {t : Turn} {id : MemberId} {s : Stimulus} {n : Node} (h : t.Acts id s n)
    (hs : t.before.Settled) (peer : MemberId) :
    (s.intake (n.setClock t.before.clock)).postedTo peer = [] ∨
      ∃ sender m m' d, s = .message sender m ∧ Message.ofText m.text = .ok m' ∧
        Node.Replies sender (n.setClock t.before.clock) m' d ∧ d.peer = peer ∧
          (s.intake (n.setClock t.before.clock)).postedTo peer = [d.message] := by
  have hq : (n.setClock t.before.clock).postedTo peer = [] := by
    rw [Node.postedTo, show (n.setClock t.before.clock).outbox = [] from (hs.quiet h.node).1]
    rfl
  have hp := s.posts (n.setClock t.before.clock) peer
  rwa [hq] at hp

/-- What is sent in a turn is sent by the node that acts, to a connected peer. -/
theorem Turn.sends {t : Turn} (hs : t.before.Settled) {x : Transmission} (hx : x ∈ t.sentNow) :
    ∃ s n, t.Acts x.ends.source s n ∧ x.ends.target ∈ n.directory.peers ∧
      ∃ d : Delivery, d.peer = x.ends.target ∧ d.message = x.message ∧
        s.Causes (n.setClock t.before.clock) d := by
  rcases t.acts_or_idles hs with ⟨id, s, n, h⟩ | h
  · rw [h.sentNow hs] at hx
    obtain ⟨rfl, d, hd, hpeer, hmessage⟩ := Node.mem_posted.mp hx
    have hq : (n.setClock t.before.clock).outbox = [] := (hs.quiet h.node).1
    rcases Stimulus.sends hd with hd | ⟨hp, hc⟩
    · rw [hq] at hd
      cases hd
    · exact ⟨s, n, h, hpeer ▸ hp, d, hpeer, hmessage, hc⟩
  · rw [Turn.sentNow, h.sent, List.drop_length] at hx
    cases hx

/-! ## What is delivered -/

/-- All that was sent on a link, the oldest first. -/
def World.sentOn (ends : Ends) (w : World) : List Message :=
  (w.sent.filter (·.ends = ends)).map (·.message)

theorem World.mem_sentOn {ends : Ends} {m : Message} {w : World} :
    m ∈ w.sentOn ends ↔ ⟨ends, m⟩ ∈ w.sent := by
  simp only [sentOn, List.mem_map, List.mem_filter, decide_eq_true_eq]
  constructor
  · rintro ⟨⟨e, m'⟩, ⟨hm, rfl⟩, rfl⟩
    exact hm
  · intro h
    exact ⟨_, ⟨h, rfl⟩, rfl⟩

/-- All that was delivered in order on a link. -/
def takenOn (ends : Ends) (turns : List Turn) : List Message :=
  turns.flatMap fun t => t.taken ends

theorem takenOn_concat (ends : Ends) (turns : List Turn) (t : Turn) :
    takenOn ends (turns ++ [t]) = takenOn ends turns ++ t.taken ends := by
  rw [takenOn, List.flatMap_append, List.flatMap_singleton]
  rfl

theorem Turn.Acts.sentOn {t : Turn} {id : MemberId} {s : Stimulus} {n : Node} (h : t.Acts id s n)
    (hs : t.before.Settled) (ends : Ends) :
    t.after.sentOn ends = t.before.sentOn ends ++
      if ends.source = id then (s.react (n.setClock t.before.clock)).postedTo ends.target
      else [] := by
  rw [World.sentOn, World.sentOn, h.sent hs, List.filter_append, List.map_append, Node.posted_on]

theorem Turn.sentOn_cases {t : Turn} (hs : t.before.Settled) (ends : Ends) :
    t.after.sentOn ends = t.before.sentOn ends ∨ ∃ s n, t.Acts ends.source s n ∧
      t.after.sentOn ends = t.before.sentOn ends ++
        (s.react (n.setClock t.before.clock)).postedTo ends.target := by
  rcases t.acts_or_idles hs with ⟨id, s, n, h⟩ | h
  · rw [h.sentOn hs]
    split
    · rename_i he
      exact .inr ⟨s, n, he ▸ h, rfl⟩
    · exact .inl (List.append_nil _)
  · rw [World.sentOn, h.sent]
    exact .inl rfl

/-- Messages are delivered in order or lost. -/
theorem Turn.fifo {t : Turn} (hs : t.before.Settled) (ends : Ends) {done : List Message}
    (h : (done ++ t.before.pending ends).Sublist (t.before.sentOn ends)) :
    (done ++ t.taken ends ++ t.after.pending ends).Sublist (t.after.sentOn ends) := by
  rcases t.acts_or_idles hs with ⟨id, s, n, hact⟩ | hidle
  · rw [hact.pending hs, hact.sentOn hs, ← List.append_assoc, List.append_assoc done,
      t.taken_append_onset]
    refine h.append ?_
    split
    · rename_i hc
      rw [if_pos hc.1]
    · exact List.nil_sublist _
  · rw [World.sentOn, hidle.sent, ← World.sentOn, List.append_assoc]
    exact ((hidle.pending ends).append_left done).trans h

namespace Run

variable {allowed : World → Action → Prop} {size : Nat} {turns : List Turn} {w : World}

/-- What was delivered on a link and what waits there is a part of what was sent on it. -/
theorem fifo (r : Run allowed size turns w) (ends : Ends) :
    (takenOn ends turns ++ w.pending ends).Sublist (w.sentOn ends) := by
  refine r.invariant (P := fun turns w => (takenOn ends turns ++ w.pending ends).Sublist
    (w.sentOn ends)) ?_ ?_
  · intro w hw
    simp [takenOn, World.pending, World.link?, hw.links, Keyed.get?]
  · intro turns t r _ ih
    have h := Turn.fifo r.settled ends ih
    rwa [takenOn_concat]

theorem sent_of_pending (r : Run allowed size turns w) {ends : Ends} {m : Message}
    (h : m ∈ w.pending ends) : ⟨ends, m⟩ ∈ w.sent :=
  World.mem_sentOn.mp ((r.fifo ends).subset (List.mem_append_right _ h))

/-- What is delivered was sent before. -/
theorem sent_of_delivery {t : Turn} (r : Run Action.AnyOrder size turns t.before)
    (ha : t.action.AnyOrder t.before) {x : Transmission} (h : t.delivery? = some x) :
    x ∈ t.before.sent := by
  obtain ⟨w, a⟩ := t
  cases a with
  | deliver ends =>
    obtain ⟨m, hm, rfl⟩ := Option.map_eq_some_iff.mp h
    exact r.sent_of_pending (List.mem_of_head? hm)
  | stray y =>
    cases h
    exact ha
  | _ => cases h

/-- Nothing is sent from a node to itself. -/
theorem sent_apart (r : Run Action.AnyOrder size turns w) {x : Transmission} (h : x ∈ w.sent) :
    x.ends.source ≠ x.ends.target := by
  refine r.invariant (P := fun _ w => ∀ x ∈ w.sent, x.ends.source ≠ x.ends.target) ?_ ?_ x h
  · intro w hw x hx
    rw [hw.sent] at hx
    cases hx
  · intro turns t r _ ih x hx
    rw [t.sent_append r.settled] at hx
    rcases List.mem_append.mp hx with hx | hx
    · exact ih x hx
    · obtain ⟨s, n, hact, hpeer, _⟩ := Turn.sends r.settled hx
      intro he
      rw [← he] at hpeer
      exact (r.proper hact.node).apart hpeer

end Run

/-- A message that a node acts on was delivered to it. -/
theorem Turn.Acts.delivery {t : Turn} {id sender : MemberId} {m : Message} {n : Node}
    (h : t.Acts id (.message sender m) n) : t.delivery? = some ⟨⟨sender, id⟩, m⟩ := by
  have hs := h.stimulus
  obtain ⟨w, a⟩ := t
  cases a with
  | deliver ends =>
    obtain ⟨x, hx, he⟩ := Option.map_eq_some_iff.mp hs
    rw [hx]
    obtain ⟨⟨source, target⟩, message⟩ := x
    cases he
    rfl
  | stray x =>
    obtain ⟨⟨source, target⟩, message⟩ := x
    cases hs
    rfl
  | _ => cases hs

/-- All that was sent is read as it was written. -/
def World.Legible (w : World) : Prop :=
  ∀ x ∈ w.sent, Message.ofText x.message.text = .ok x.message

theorem World.Legible.before {t : Turn} (hs : t.before.Settled) (h : t.after.Legible) :
    t.before.Legible := by
  intro x hx
  refine h x ?_
  rw [t.sent_append hs]
  exact List.mem_append_left _ hx

/-- A message that a node acts on was sent to it, and it is read as it was written. -/
theorem Turn.Acts.read {size : Nat} {turns : List Turn} {t : Turn} {id sender : MemberId}
    {m : Message} {n : Node} (h : t.Acts id (.message sender m) n)
    (r : Run Action.AnyOrder size turns t.before) (ha : t.action.AnyOrder t.before)
    (hl : t.before.Legible) :
    ⟨⟨sender, id⟩, m⟩ ∈ t.before.sent ∧ Message.ofText m.text = .ok m := by
  have hsent := r.sent_of_delivery ha h.delivery
  have hread := hl _ hsent
  exact ⟨hsent, hread⟩

/-- What is delivered to a node is what it acts on. -/
theorem Turn.Acts.of_delivery {t : Turn} {id sender : MemberId} {s : Stimulus} {m : Message}
    {n : Node} (h : t.Acts id s n) (hd : t.delivery? = some ⟨⟨sender, id⟩, m⟩) :
    s = .message sender m := by
  have hs := h.stimulus
  obtain ⟨w, a⟩ := t
  cases a with
  | deliver ends =>
    rw [stimulus?, hd] at hs
    cases hs
    rfl
  | stray x =>
    cases hd
    cases hs
    rfl
  | _ => cases hd

theorem Turn.delivery_of_taken {t : Turn} {ends : Ends} {m : Message} (h : m ∈ t.taken ends) :
    t.delivery? = some ⟨ends, m⟩ := by
  obtain ⟨w, a⟩ := t
  cases a with
  | deliver e =>
    simp only [taken] at h
    split at h
    · rename_i he
      subst he
      cases hp : w.pending e with
      | nil => rw [hp] at h; cases h
      | cons x rest =>
        rw [hp] at h
        obtain rfl := List.mem_singleton.mp h
        simp [delivery?, hp]
    · cases h
  | _ => cases h

theorem Turn.taken_of_delivery {t : Turn} {ends : Ends} {m : Message}
    (ha : t.action.InOrder t.before) (h : t.delivery? = some ⟨ends, m⟩) : t.taken ends = [m] := by
  obtain ⟨w, a⟩ := t
  cases a with
  | deliver e =>
    obtain ⟨x, hx, he⟩ := Option.map_eq_some_iff.mp h
    cases he
    simp only [taken, if_true]
    cases hp : w.pending ends with
    | nil => rw [hp] at hx; cases hx
    | cons y rest =>
      rw [hp] at hx
      cases hx
      rfl
  | stray x => cases ha
  | _ => cases h

/-- A node acts on what is taken off a link to it. -/
theorem Turn.acts_of_taken {t : Turn} {id sender : MemberId} {m : Message} {n : Node}
    (hn : t.before.node? id = some n) (h : m ∈ t.taken ⟨sender, id⟩) :
    t.Acts id (.message sender m) n := by
  have hd := Turn.delivery_of_taken h
  refine ⟨?_, hn⟩
  obtain ⟨w, a⟩ := t
  cases a with
  | deliver ends => rw [stimulus?, hd]; rfl
  | _ => cases h

/-- Nothing is taken off the links to a node that does not act. -/
theorem Turn.taken_of_not_acts {t : Turn} {id : MemberId} {n : Node}
    (hn : t.before.node? id = some n) (hno : ∀ s, ¬ t.Acts id s n) (sender : MemberId) :
    t.taken ⟨sender, id⟩ = [] := by
  refine List.eq_nil_iff_forall_not_mem.mpr ?_
  intro m hm
  exact hno _ (Turn.acts_of_taken hn hm)

end Accord
