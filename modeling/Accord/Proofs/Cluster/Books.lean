import Accord.Proofs.Cluster.Ledger

/-! # The books of a run

In a run with one leader, all of whose clients write to it, the operations that were submitted are
at any time those that the leader has answered, in their order, followed by those that it still owes
an answer; and the settled entries of its log are those of the operations that succeeded. -/
namespace Accord

/-- Clients only write, and they ask the leader. -/
def Action.Writes (leader : MemberId) (w : World) : Action → Prop
  | .submit id method _ => id = leader ∧ method = .post
  | a => a.Steady w

theorem Action.Writes.steady {leader : MemberId} {w : World} {a : Action} (h : a.Writes leader w) :
    a.Steady w := by
  cases a <;> first | exact h | trivial

/-- The cluster that a run began with. -/
def origin (turns : List Turn) (w : World) : World := (turns.head?.map (·.before)).getD w

theorem origin_concat (turns : List Turn) (t : Turn) (w : World) :
    origin (turns ++ [t]) w = origin turns t.before := by
  cases turns <;> rfl

/-- All logs are empty and all stores in reach. -/
def World.Blank (w : World) : Prop :=
  ∀ id n, w.node? id = some n →
    n.store.log = [] ∧ n.store.available = true ∧ n.store.rivals = .none

theorem World.boot_blank (size : Nat) (timing : Timing) (clock : Clock) :
    (World.boot size timing clock .empty).Blank := by
  intro id n hn
  obtain ⟨id', _, h⟩ := List.mem_filterMap.mp (Keyed.mem_of_get? hn)
  obtain ⟨t, _, h⟩ := Option.map_eq_some_iff.mp h
  obtain rfl := (Prod.mk.inj h).2
  unfold Node.start Node.seek
  obtain ⟨pick, dice⟩ := (Node.new t timing clock (.loaded id') .empty).dice.roll
  exact ⟨rfl, rfl, rfl⟩

/-- All stores can be written, and each log is the beginning of the leader's or all of it, but for
the times of the entries. -/
structure World.Prepared (leader : MemberId) (w : World) : Prop where
  ready : ∀ id n, w.node? id = some n → n.store.Ready
  behind : ∀ id n L, w.node? id = some n → w.node? leader = some L →
    n.store.log.map Entry.key <+: L.store.log.map Entry.key

theorem World.Blank.prepared {w : World} (h : w.Blank) (leader : MemberId) : w.Prepared leader where
  ready id n hn := by
    obtain ⟨hlog, havailable, halone⟩ := h id n hn
    exact ⟨havailable, halone, hlog ▸ Log.numbered_nil⟩
  behind id n L hn _ := by
    rw [(h id n hn).1]
    exact List.nil_prefix

/-- A node that has just started has nothing to do. -/
theorem World.Fresh.idle {size : Nat} {w : World} (h : w.Fresh size) {id : MemberId} {n : Node}
    (hn : w.node? id = some n) :
    n.round = none ∧ n.queue = [] ∧ n.answers = [] ∧ n.provisional = none := by
  obtain ⟨topology, timing, clock, dice, store, rfl, _⟩ := h.started hn
  unfold Node.start Node.seek
  obtain ⟨pick, dice⟩ := (Node.new topology timing clock dice store).dice.roll
  exact ⟨rfl, rfl, rfl, rfl⟩

theorem Run.origin_fresh {allowed : World → Action → Prop} {size : Nat} {turns : List Turn}
    {w : World} (r : Run allowed size turns w) : (origin turns w).Fresh size := by
  refine r.invariant (P := fun turns w => (origin turns w).Fresh size) (fun h => h) ?_
  intro turns t _ _ ih
  rw [origin_concat]
  exact ih

/-- The operation that a client submits in a turn. -/
def Turn.submission? (t : Turn) : Option Operation :=
  match t.action with
  | .submit _ method command => some ⟨t.before.submitted, method, command⟩
  | _ => none

/-- The operations that clients have submitted, in their order. -/
def submissions (turns : List Turn) : List Operation := turns.filterMap Turn.submission?

theorem submissions_concat (turns : List Turn) (t : Turn) :
    submissions (turns ++ [t]) = submissions turns ++ t.submission?.toList := by
  rw [submissions, List.filterMap_append]
  cases h : t.submission? <;> simp [submissions, h]

/-! ## What the leader takes in -/

namespace Stimulus

/-- The operation that a node is asked. -/
def asked : Stimulus → List Operation
  | .client op => [op]
  | _ => []

variable {s : Stimulus} {n : Node}

/-- A leader that is not told to write takes in operations and votes. -/
theorem Harmless.writing (h : s.Harmless) (hop : ∀ op ∈ s.asked, op.method = .post)
    (hw : n.Writing) : (s.intake n).Writing ∧ (s.intake n).ledger = n.ledger := by
  cases s with
  | client op =>
    simp only [intake]
    split
    · refine ⟨⟨hw.ready, ?_, hw.round⟩, rfl⟩
      intro op' hop'
      rcases List.mem_append.mp hop' with hq | hq
      · exact hw.queue op' hq
      · exact hop op' hq
    · exact ⟨⟨hw.ready, hw.queue, hw.round⟩, rfl⟩
  | message sender m =>
    simp only [intake]
    split
    · rename_i m' hm
      have hk : m'.kind.isWriting = false := Message.kind_of_ofText hm ▸ h sender m rfl
      have habsorbed := Node.absorbed sender m' n
      generalize n.absorb sender m' = n' at habsorbed
      cases habsorbed with
      | count hr =>
        refine ⟨⟨hw.ready, hw.queue, ?_⟩, by rw [Node.ledger, Node.ledger, hr]⟩
        intro r' hr'
        cases hr'
        have hround := hw.round _ hr
        exact hround
      | insert => cases hk
      | attend => cases hk
      | apply => cases hk
      | delete => cases hk
      | _ => exact ⟨⟨hw.ready, hw.queue, hw.round⟩, rfl⟩
    · exact ⟨hw, rfl⟩
  | _ => exact ⟨hw, rfl⟩

theorem intake_led (hl : n.Led) : (s.intake n).Led := by
  cases s with
  | client op =>
    simp only [intake]
    split
    · rename_i hlead
      exact fun hno => absurd hlead (Bool.eq_false_iff.mp hno)
    · exact hl.of_eq rfl rfl
  | message sender m =>
    simp only [intake]
    split
    · exact (Node.absorbed _ _ _).led hl
    · exact hl
  | _ => exact hl

theorem Harmless.booked (h : s.Harmless) (hop : ∀ op ∈ s.asked, op.method = .post)
    (hw : n.Writing) (hl : n.Led) : ∃ posts, Node.Booked s.asked posts n (s.react n) := by
  obtain ⟨hwriting, hledger⟩ := h.writing hop hw
  have hstore := (h.keeps n).1
  have hintake : Node.Booked s.asked [] n (s.intake n) := by
    cases s with
    | client op =>
      by_cases hlead : n.leads = true
      · refine .idle ?_ ?_ (by rw [hledger]) (by rw [hstore])
        · simp only [intake, hlead, if_true, asked, Node.outstanding, Node.setQueue,
            List.append_assoc]
        · simp only [intake, hlead, if_true, Node.setQueue]
      · have hnone := hl (Bool.eq_false_iff.mpr hlead)
        have hidle := Node.outstanding_eq_nil.mp hnone
        have hin : (Stimulus.client op).intake n =
            n.answer op (.error (.notLeading n.standing.leader)) := if_neg hlead
        rw [hin]
        exact .failed (by rw [hnone]; rfl) hidle.1 hidle.2 rfl rfl rfl
    | message sender m =>
      refine .idle ?_ ?_ (by rw [hledger]) (by rw [hstore])
      · simp only [intake, asked, List.append_nil]
        split
        · exact (Node.absorbed _ _ _).serves.outstanding.symm
        · rfl
      · simp only [intake]
        split
        · have habsorbed := Node.absorbed sender ‹Message› n
          generalize n.absorb sender _ = n' at habsorbed
          cases habsorbed <;> rfl
        · rfl
    | _ => exact .idle (List.append_nil _).symm rfl rfl rfl
  obtain ⟨posts, hbooked⟩ := (s.deeds_react n).booked hwriting
  have htrans := hintake.trans hbooked
  rw [List.append_nil, List.nil_append] at htrans
  exact ⟨posts, htrans⟩

end Stimulus

theorem Turn.Acts.submission {t : Turn} {id : MemberId} {s : Stimulus} {n : Node}
    (h : t.Acts id s n) : t.submission?.toList = s.asked := by
  have hs := h.stimulus
  obtain ⟨w, a⟩ := t
  cases a with
  | deliver ends =>
    obtain ⟨x, _, he⟩ := Option.map_eq_some_iff.mp hs
    cases he
    rfl
  | _ => cases hs <;> rfl

/-! ## Turns -/

section

variable {size : Nat} {turns : List Turn} {w : World} {leader : MemberId} {t : Turn}

theorem Run.ofWrites (r : Run (Action.Writes leader) size turns w) :
    Run Action.Steady size turns w :=
  r.mono fun h => h.steady

theorem Turn.submission_post (ha : t.action.Writes leader t.before) {op : Operation}
    (h : op ∈ t.submission?.toList) : op.method = .post := by
  obtain ⟨w, a⟩ := t
  cases a with
  | submit id method command =>
    obtain rfl := List.mem_singleton.mp h
    exact ha.2
  | _ => cases h

theorem Turn.Acts.asked_post {id : MemberId} {s : Stimulus} {n : Node} (h : t.Acts id s n)
    (ha : t.action.Writes leader t.before) : ∀ op ∈ s.asked, op.method = .post := by
  rw [← h.submission]
  exact fun op => Turn.submission_post ha

/-- Nobody but the leader is asked anything. -/
theorem Turn.Acts.asked_nil {id : MemberId} {s : Stimulus} {n : Node} (h : t.Acts id s n)
    (ha : t.action.Writes leader t.before) (hne : id ≠ leader) : s.asked = [] := by
  have hs := h.stimulus
  obtain ⟨w, a⟩ := t
  cases a with
  | submit id' method command =>
    cases hs
    exact absurd ha.1 hne
  | deliver ends =>
    obtain ⟨x, _, he⟩ := Option.map_eq_some_iff.mp hs
    cases he
    rfl
  | _ => cases hs <;> rfl

/-- A turn in which nobody acts brings no operation to the leader. -/
theorem Turn.submission_none {L : Node} (hL : t.before.node? leader = some L)
    (ha : t.action.Writes leader t.before) (hno : ∀ id s n, ¬ t.Acts id s n) :
    t.submission? = none := by
  obtain ⟨w, a⟩ := t
  cases a with
  | submit id method command =>
    obtain ⟨rfl, _⟩ := ha
    exact (hno _ _ L ⟨rfl, hL⟩).elim
  | _ => rfl

/-- One turn of the leader. -/
theorem Turn.Acts.booked {s : Stimulus} {L : Node} (h : t.Acts leader s L)
    (r : Run (Action.Writes leader) size turns t.before) (ha : t.action.Writes leader t.before)
    (hs : Sole leader turns) (hw : L.Writing) (hl : L.Led) :
    (s.react (L.setClock t.before.clock)).Writing ∧ (s.react (L.setClock t.before.clock)).Led ∧
      ∃ posts, Node.Booked s.asked posts (L.setClock t.before.clock)
        (s.react (L.setClock t.before.clock)) := by
  have hharmless := h.harmless_leader r.ofWrites.inOrder ha.steady.inOrder hs
  have hpost := h.asked_post ha
  have hclock : (L.setClock t.before.clock).Writing := ⟨hw.ready, hw.queue, hw.round⟩
  refine ⟨?_, ?_, hharmless.booked hpost hclock hl⟩
  · exact (s.deeds_react _).writing (hharmless.writing hpost hclock).1
  · refine Node.Deeds.led (s.deeds_react _) ?_ (Stimulus.intake_led hl)
    exact h.occasion_ne r.ofWrites.inOrder ha.steady.inOrder

/-- The other nodes tell clients nothing. -/
theorem Turn.Acts.answers_other {id : MemberId} {s : Stimulus} {n : Node} (h : t.Acts id s n)
    (r : Run (Action.Writes leader) size turns t.before) (ha : t.action.Writes leader t.before)
    (hs : Sole leader (turns ++ [t])) (hne : id ≠ leader) :
    t.after.answers = t.before.answers := by
  have hobeys := h.obeys r.ofWrites.inOrder ha.steady.inOrder hs hne
    (r.ofWrites.inOrder.meek hs.left hne h.node)
  have hq : n.answers = [] := (r.settled.quiet h.node).2
  have hintake : (s.intake (n.setClock t.before.clock)).answers = n.answers := by
    have hasked := h.asked_nil ha hne
    cases s with
    | client op => cases hasked
    | message sender m =>
      simp only [Stimulus.intake]
      split
      · have habsorbed := Node.absorbed sender ‹Message› (n.setClock t.before.clock)
        generalize (n.setClock t.before.clock).absorb sender _ = n' at habsorbed
        cases habsorbed <;> rfl
      · rfl
    | _ => rfl
  rw [h.answers r.settled, hobeys.answers, hintake, hq, List.append_nil]

/-- What the leader has done for its clients since the run began. -/
structure Books (leader : MemberId) (turns : List Turn) (w : World) (L : Node) : Prop where
  writing : L.Writing
  led : L.Led
  booked : ∃ L₀ posts, (origin turns w).node? leader = some L₀ ∧
    Node.Booked (submissions turns) posts L₀ { L with answers := w.answers }

/-- The books stay as they are where the leader does nothing. -/
theorem Books.of_eq {L M : Node} (h : Books leader turns t.before L)
    (hstore : M.store = L.store) (hround : M.round = L.round) (hqueue : M.queue = L.queue)
    (hstanding : M.standing = L.standing) (hanswers : t.after.answers = t.before.answers)
    (hsub : t.submission? = none) : Books leader (turns ++ [t]) t.after M := by
  obtain ⟨L₀, posts, horigin, hbooked⟩ := h.booked
  have hout : M.outstanding = L.outstanding := by
    rw [Node.outstanding, Node.outstanding, hround, hqueue]
  refine ⟨⟨hstore ▸ h.writing.ready, hqueue ▸ h.writing.queue, ?_⟩, h.led.of_eq hstanding hout,
    L₀, posts, by rw [origin_concat]; exact horigin, ?_⟩
  · rw [hstore, hround]
    exact h.writing.round
  · rw [submissions_concat, hsub, hanswers, Option.toList_none, List.append_nil]
    have hidle : Node.Booked [] [] { L with answers := t.before.answers }
        { M with answers := t.before.answers } := by
      refine .idle ?_ rfl ?_ (by rw [hstore])
      · rw [List.append_nil]
        exact hout
      · exact congrArg Ledger.settled (Node.ledger_congr hstore hround)
    have htrans := hbooked.trans hidle
    rwa [List.append_nil, List.append_nil] at htrans

theorem Run.books (r : Run (Action.Writes leader) size turns w)
    (hb : (origin turns w).Prepared leader) (hs : Sole leader turns) {L : Node}
    (hL : w.node? leader = some L) : Books leader turns w L := by
  refine r.invariant (P := fun turns w => (origin turns w).Prepared leader → Sole leader turns →
    ∀ L, w.node? leader = some L → Books leader turns w L) ?_ ?_ hb hs L hL
  · intro w hw hb _ L hL
    obtain ⟨hround, hqueue, hanswers, _⟩ := hw.idle hL
    refine ⟨⟨hb.ready leader L hL, ?_, ?_⟩, ?_, L, [], hL, ?_⟩
    · rw [hqueue]
      exact fun op hop => (List.not_mem_nil hop).elim
    · rw [hround]
      rintro r ⟨⟩
    · exact fun _ => Node.outstanding_eq_nil.mpr ⟨hround, hqueue⟩
    · rw [hw.answers, ← hanswers]
      exact .idle (List.append_nil _).symm rfl rfl rfl
  · intro turns t r ha ih hb hs M hM
    obtain ⟨L, hL, hstep⟩ := t.nodeStep r.settled hM
    rw [origin_concat] at hb
    have hbooks := ih hb hs.left L hL
    by_cases hact : ∃ id s n, t.Acts id s n
    · obtain ⟨id, s, n, hact⟩ := hact
      by_cases hid : id = leader
      · subst hid
        obtain rfl := Option.some.inj (hact.node.symm.trans hL)
        rw [hact.self r.settled] at hM
        obtain rfl := Option.some.inj hM
        obtain ⟨hw, hl, posts', hbooked'⟩ := hact.booked r ha hs.left hbooks.writing hbooks.led
        obtain ⟨L₀, posts, horigin, hbooked⟩ := hbooks.booked
        refine ⟨⟨hw.ready, hw.queue, hw.round⟩, hl, L₀, posts ++ posts',
          by rw [origin_concat]; exact horigin, ?_⟩
        rw [submissions_concat, hact.submission, hact.answers r.settled]
        refine hbooked.trans ?_
        obtain ⟨done, replies, hout, hsub, hanswers, hops, hok⟩ := hbooked'.answers
        rw [show (n.setClock t.before.clock).answers = [] from (r.settled.quiet hact.node).2,
          List.nil_append] at hanswers
        rw [hanswers]
        exact ⟨⟨done, replies, hout, hsub, rfl, hops, hok⟩, hbooked'.settled, hbooked'.tables,
          hbooked'.text⟩
      · rw [hact.other r.settled (Ne.symm hid)] at hM
        obtain rfl := Option.some.inj (hM.symm.trans hL)
        have hnone : t.submission? = none := by
          have hasked := hact.submission.trans (hact.asked_nil ha hid)
          exact Option.toList_eq_nil_iff.mp hasked
        exact hbooks.of_eq rfl rfl rfl rfl (hact.answers_other r ha hs hid) hnone
    · have hno : ∀ id s n, ¬ t.Acts id s n := fun id s n h => hact ⟨id, s, n, h⟩
      obtain ⟨L', directory, hL', rfl⟩ :=
        ((t.acts_or_rests r.settled ha.steady).resolve_left hact).node hM
      obtain rfl := Option.some.inj (hL'.symm.trans hL)
      exact hbooks.of_eq rfl rfl rfl rfl
        ((t.acts_or_idles r.settled).resolve_left hact).answers (Turn.submission_none hL ha hno)

/-! ## Numbers of operations -/

theorem Turn.submitted_onset (t : Turn) : t.before.submitted ≤ t.onset.submitted ∧
    ∀ op ∈ t.submission?.toList, op.number = t.before.submitted ∧
      t.before.submitted < t.onset.submitted := by
  obtain ⟨w, a⟩ := t
  cases a with
  | submit id method command =>
    refine ⟨Nat.le_succ _, ?_⟩
    intro op hop
    obtain rfl := List.mem_singleton.mp hop
    exact ⟨rfl, Nat.lt_succ_self _⟩
  | deliver ends =>
    refine ⟨?_, List.forall_mem_nil _⟩
    simp only [onset]
    split <;> exact le_rfl
  | _ => exact ⟨le_rfl, List.forall_mem_nil _⟩

theorem Turn.Acts.submitted {id : MemberId} {s : Stimulus} {n : Node} (h : t.Acts id s n)
    (hs : t.before.Settled) : t.after.submitted = t.onset.submitted := by
  rw [h.after_become hs, World.become_submitted]

/-- The numbers of operations grow. -/
theorem Run.ascending (r : Run (Action.Writes leader) size turns w) {L : Node}
    (hL : w.node? leader = some L) :
    (submissions turns).Pairwise (fun a b => a.number < b.number) ∧
      ∀ op ∈ submissions turns, op.number < w.submitted := by
  refine r.invariant (P := fun turns w => ∀ L, w.node? leader = some L →
    (submissions turns).Pairwise (fun a b => a.number < b.number) ∧
      ∀ op ∈ submissions turns, op.number < w.submitted) ?_ ?_ L hL
  · intro w _ L _
    exact ⟨.nil, List.forall_mem_nil _⟩
  · intro turns t r ha ih M hM
    obtain ⟨L, hL, _⟩ := t.nodeStep r.settled hM
    obtain ⟨hpairs, hbound⟩ := ih L hL
    rw [submissions_concat]
    by_cases hact : ∃ id s n, t.Acts id s n
    · obtain ⟨id, s, n, hact⟩ := hact
      obtain ⟨hle, hnew⟩ := t.submitted_onset
      rw [hact.submitted r.settled]
      refine ⟨List.pairwise_append.mpr ⟨hpairs, ?_, ?_⟩, ?_⟩
      · cases t.submission? <;> simp
      · intro a ha b hb
        rw [(hnew b hb).1]
        exact hbound a ha
      · intro op hop
        rcases List.mem_append.mp hop with hop | hop
        · exact (hbound op hop).trans_le hle
        · rw [(hnew op hop).1]
          exact (hnew op hop).2
    · have hnone := Turn.submission_none hL ha fun id s n h => hact ⟨id, s, n, h⟩
      have hle := ((t.acts_or_rests r.settled ha.steady).resolve_left hact).submitted_le
      rw [hnone, Option.toList_none, List.append_nil]
      exact ⟨hpairs, fun op hop => (hbound op hop).trans_le hle⟩

end

end Accord
