import Accord.Proofs.Cluster.History

/-! # Links and their records

Where links are opened and closed as a whole, a turn in which no node acts does nothing but to one
link, and the directory of every node knows exactly the links that it has. -/
namespace Accord

/-- Messages arrive in order or are lost when their link is closed or replaced. The stores stay in
reach. -/
def Action.Steady (w : World) : Action → Prop
  | .hangUp _ => False
  | .lose _ => False
  | .switchStore _ _ => False
  | a => a.InOrder w

theorem Action.Steady.inOrder {w : World} {a : Action} (h : a.Steady w) : a.InOrder w := by
  cases a <;> first | exact h | trivial

theorem Run.inOrder {size : Nat} {turns : List Turn} {w : World}
    (r : Run Action.Steady size turns w) : Run Action.InOrder size turns w :=
  r.mono fun h => h.inOrder

/-- A turn in which no node acts: nothing happens but to one link. -/
inductive Turn.Rests (t : Turn) : Prop
  | still (hn : t.after.nodes = t.before.nodes) (hsub : t.before.submitted ≤ t.after.submitted)
      (hl : ∀ ends, (t.before.node? ends.target).isSome → t.after.link? ends = t.before.link? ends)
  | opened {ends : Ends} {n : Node} (ha : t.action = .openLink ends)
      (hn : t.before.node? ends.source = some n)
      (hw : t.after = { t.before with
        nodes := Keyed.put ends.source
          { n with directory := (n.directory.register ends.target).2 } t.before.nodes
        links := Keyed.put ends ⟨(n.directory.register ends.target).1, true, []⟩ t.before.links })
  | closed {ends : Ends} {n : Node} {link : Link} (ha : t.action = .closeLink ends)
      (hn : t.before.node? ends.source = some n) (hl : t.before.link? ends = some link)
      (hw : t.after = { t.before with
        nodes := Keyed.put ends.source
          { n with directory := (n.directory.remove ends.target link.connection).2 } t.before.nodes
        links := Keyed.erase ends t.before.links })

theorem Turn.acts_or_rests {t : Turn} (hs : t.before.Settled) (ha : t.action.Steady t.before) :
    (∃ id s n, t.Acts id s n) ∨ t.Rests := by
  obtain ⟨w, a⟩ := t
  have hsame (h : w.perform a = w) : (Turn.mk w a).Rests :=
    .still (by rw [after, h]) (by rw [after, h]) fun ends _ => by rw [after, h]
  cases hst : (Turn.mk w a).stimulus? with
  | some p =>
    obtain ⟨id, s⟩ := p
    cases hn : w.node? id with
    | some n => exact .inl ⟨id, s, n, hst, hn⟩
    | none =>
      right
      have hno : (Turn.mk w a).onset.node? id = none := by rw [World.node?, onset_nodes]; exact hn
      have he : (Turn.mk w a).after = (Turn.mk w a).onset := by
        rw [after_eq hst, World.act_of_none hno, (hs.of_nodes onset_nodes).collect]
      have hsub : w.submitted ≤ (Turn.mk w a).onset.submitted := by
        unfold onset
        split
        · split <;> exact le_rfl
        · exact Nat.le_succ _
        · exact le_rfl
      refine .still (by rw [he, onset_nodes]) (he ▸ hsub) fun ends hreal => ?_
      rw [he]
      cases a with
      | deliver e =>
        -- what is delivered goes to a member without a node
        have hne : ends ≠ e := by
          rintro rfl
          obtain ⟨x, hx, he⟩ := Option.map_eq_some_iff.mp hst
          obtain ⟨m, _, rfl⟩ := Option.map_eq_some_iff.mp hx
          cases he
          rw [hn] at hreal
          cases hreal
        simp only [onset]
        split
        · rw [World.link?, Keyed.get?_put_of_ne hne]
          rfl
        · rfl
      | _ => rfl
  | none =>
    right
    cases a with
    | setClock clock => exact .still rfl le_rfl fun _ _ => rfl
    | deliver ends =>
      have hp : w.pending ends = [] := by simpa [stimulus?, delivery?] using hst
      cases hl : Keyed.get? ends w.links with
      | none => exact hsame (by simp only [World.perform, World.deliver, hl])
      | some link =>
        obtain ⟨connection, live, queue⟩ := link
        obtain rfl : queue = [] := by simpa [World.pending, World.link?, hl] using hp
        have hw : w.perform (.deliver ends) =
            { w with links := Keyed.put ends ⟨connection, live, []⟩ w.links } := by
          simp only [World.perform, World.deliver, hl]
          exact World.Settled.collect (hs.of_nodes rfl)
        refine .still (by rw [after, hw]) (by rw [after, hw]) fun e _ => ?_
        rw [after, hw, World.link?]
        by_cases he : e = ends
        · rw [he, Keyed.get?_put_self]
          exact hl.symm
        · rw [Keyed.get?_put_of_ne he]
          rfl
    | openLink ends =>
      cases hn : w.node? ends.source with
      | none => exact hsame (by simp only [World.perform, World.openLink, hn])
      | some n => exact .opened rfl hn (by simp only [after, World.perform, World.openLink, hn])
    | closeLink ends =>
      cases hn : w.node? ends.source with
      | none => exact hsame (by simp only [World.perform, World.closeLink, hn])
      | some n =>
        cases hl : Keyed.get? ends w.links with
        | none => exact hsame (by simp only [World.perform, World.closeLink, hn, hl])
        | some link =>
          exact .closed rfl hn hl (by simp only [after, World.perform, World.closeLink, hn, hl])
    | hangUp ends => exact ha.elim
    | lose ends => exact ha.elim
    | switchStore id available => exact ha.elim
    | _ => cases hst

namespace Turn.Rests

variable {t : Turn} (h : t.Rests)
include h

/-- Nothing happens to a node but to its connections. -/
theorem node {id : MemberId} {m : Node} (hm : t.after.node? id = some m) :
    ∃ n directory, t.before.node? id = some n ∧ m = { n with directory } := by
  have hput {source : MemberId} {n : Node} {directory : Directory}
      (hn : t.before.node? source = some n)
      (hnodes : t.after.nodes = Keyed.put source { n with directory } t.before.nodes) :
      ∃ n directory, t.before.node? id = some n ∧ m = { n with directory } := by
    rw [World.node?, hnodes] at hm
    by_cases hid : id = source
    · rw [hid, Keyed.get?_put_self] at hm
      exact ⟨n, directory, hid ▸ hn, (Option.some.inj hm).symm⟩
    · rw [Keyed.get?_put_of_ne hid] at hm
      exact ⟨m, m.directory, hm, rfl⟩
  cases h with
  | still hn =>
    rw [World.node?, hn] at hm
    exact ⟨m, m.directory, hm, rfl⟩
  | opened _ hn hw => exact hput hn (by rw [hw])
  | closed _ hn _ hw => exact hput hn (by rw [hw])

/-- What waits on a link goes on waiting or is lost with the link. -/
theorem pending {ends : Ends} (hreal : (t.before.node? ends.target).isSome) :
    t.after.pending ends = t.before.pending ends ∨
      t.after.pending ends = [] ∧ (t.action = .openLink ends ∨ t.action = .closeLink ends) := by
  cases h with
  | still _ _ hl =>
    left
    rw [World.pending, hl ends hreal]
    rfl
  | @opened e _ ha _ hw =>
    rw [World.pending, World.link?, hw]
    by_cases he : ends = e
    · subst he
      rw [Keyed.get?_put_self]
      exact .inr ⟨rfl, .inl ha⟩
    · rw [Keyed.get?_put_of_ne he]
      exact .inl rfl
  | @closed e _ _ ha _ _ hw =>
    rw [World.pending, World.link?, hw]
    by_cases he : ends = e
    · subst he
      rw [Keyed.get?_erase_self]
      exact .inr ⟨rfl, .inr ha⟩
    · rw [Keyed.get?_erase_of_ne he]
      exact .inl rfl

theorem submitted_le : t.before.submitted ≤ t.after.submitted := by
  cases h with
  | still _ hsub => exact hsub
  | opened _ _ hw => rw [hw]
  | closed _ _ _ hw => rw [hw]

end Turn.Rests

/-- The directory of a node knows the connection of a link. -/
def World.Wired (ends : Ends) (w : World) : Prop :=
  ∀ n, w.node? ends.source = some n → (w.node? ends.target).isSome →
    Keyed.get? ends.target n.directory.records =
      ((w.link? ends).map (·.connection)).map fun number => (⟨number, true⟩ : Connection)

theorem World.Wired.reaches {ends : Ends} {w : World} (h : w.Wired ends) {n : Node}
    (hn : w.node? ends.source = some n) (hreal : (w.node? ends.target).isSome) :
    n.directory.reaches ends.target = (w.link? ends).isSome := by
  rw [Directory.reaches, h n hn hreal]
  cases w.link? ends <;> rfl

theorem Turn.onset_connection (t : Turn) (ends : Ends) :
    (t.onset.link? ends).map (·.connection) = (t.before.link? ends).map (·.connection) := by
  unfold Turn.onset
  split
  · rename_i e _
    split
    · rename_i link hl
      by_cases he : ends = e
      · rw [World.link?, he, Keyed.get?_put_self, hl]
        rfl
      · rw [World.link?, Keyed.get?_put_of_ne he]
        rfl
    · rfl
  · rfl
  · rfl

theorem Turn.Acts.connection {t : Turn} {id : MemberId} {s : Stimulus} {n : Node}
    (h : t.Acts id s n) (hs : t.before.Settled) (ends : Ends) :
    (t.after.link? ends).map (·.connection) = (t.before.link? ends).map (·.connection) := by
  rw [h.after_become hs, World.link?_become, Option.map_map, ← t.onset_connection ends]
  rfl

/-- All that a node sends to a linked node waits on the link. -/
theorem Turn.Acts.pending_linked {t : Turn} {id : MemberId} {s : Stimulus} {n : Node}
    (h : t.Acts id s n) (hs : t.before.Settled) {v : MemberId} (hv : (t.before.node? v).isSome)
    (hl : (t.before.link? ⟨id, v⟩).isSome) : t.after.pending ⟨id, v⟩ =
      t.onset.pending ⟨id, v⟩ ++ (s.react (n.setClock t.before.clock)).postedTo v := by
  have hreal : t.onset.isReal v = true := by
    rw [World.isReal, Turn.onset_nodes]
    exact hv
  have hlink : (t.onset.link? ⟨id, v⟩).isSome = true := by
    have hsame := congrArg Option.isSome (t.onset_connection ⟨id, v⟩)
    rwa [Option.isSome_map, Option.isSome_map, hl] at hsame
  rw [h.pending hs, if_pos ⟨rfl, hreal, hlink⟩]

theorem Run.wired {size : Nat} {turns : List Turn} {w : World} (r : Run Action.Steady size turns w)
    (ends : Ends) : w.Wired ends := by
  refine r.invariant (P := fun _ w => w.Wired ends) ?_ ?_
  · intro w hw n hn _
    obtain ⟨topology, timing, clock, dice, store, rfl, _⟩ := hw.started hn
    unfold Node.start Node.seek
    obtain ⟨pick, dice⟩ := (Node.new topology timing clock dice store).dice.roll
    rw [World.link?, hw.links]
    rfl
  · intro turns t r ha ih m hm hreal
    obtain ⟨target, htarget⟩ := Option.isSome_iff_exists.mp hreal
    obtain ⟨V, hV, _⟩ := t.nodeStep r.settled htarget
    have hreal' : (t.before.node? ends.target).isSome := by rw [hV]; rfl
    rcases Turn.acts_or_rests r.settled ha with ⟨id, s, n, h⟩ | h
    · have hdirectory : ∃ n, t.before.node? ends.source = some n ∧ m.directory = n.directory := by
        by_cases hid : ends.source = id
        · rw [hid, h.self r.settled] at hm
          cases hm
          exact ⟨n, hid ▸ h.node, (s.react_same _).directory⟩
        · rw [h.other r.settled hid] at hm
          exact ⟨m, hm, rfl⟩
      obtain ⟨n, hn, hd⟩ := hdirectory
      rw [hd, h.connection r.settled, ih n hn hreal']
    · cases h with
      | still hnodes _ hlinks =>
        rw [World.node?, hnodes] at hm
        rw [hlinks ends hreal', ih m hm hreal']
      | @opened e n _ hn hw =>
        rw [World.node?, hw] at hm
        rw [World.link?, hw]
        by_cases hsource : ends.source = e.source
        · rw [hsource, Keyed.get?_put_self] at hm
          cases hm
          by_cases htarget : ends.target = e.target
          · obtain rfl : ends = e := by cases ends; cases e; simp_all
            rw [Keyed.get?_put_self, Directory.register, Keyed.get?_put_self]
            rfl
          · rw [Keyed.get?_put_of_ne fun he => htarget (by rw [he]), Directory.register,
              Keyed.get?_put_of_ne htarget]
            exact ih n (hsource ▸ hn) hreal'
        · rw [Keyed.get?_put_of_ne hsource] at hm
          rw [Keyed.get?_put_of_ne fun he => hsource (by rw [he])]
          exact ih m hm hreal'
      | @closed e n link _ hn hl hw =>
        rw [World.node?, hw] at hm
        rw [World.link?, hw]
        by_cases hsource : ends.source = e.source
        · rw [hsource, Keyed.get?_put_self] at hm
          cases hm
          have hrecord := ih n (hsource ▸ hn) hreal'
          by_cases htarget : ends.target = e.target
          · obtain rfl : ends = e := by cases ends; cases e; simp_all
            have hholds : n.directory.holds ends.target link.connection = true := by
              rw [Directory.holds, hrecord, hl]
              exact beq_self_eq_true _
            rw [Keyed.get?_erase_self, Directory.remove, if_pos hholds, Keyed.get?_erase_self]
            rfl
          · rw [Keyed.get?_erase_of_ne fun he => htarget (by rw [he]), ← World.link?, ← hrecord,
              Directory.remove]
            split
            · exact Keyed.get?_erase_of_ne htarget _
            · rfl
        · rw [Keyed.get?_put_of_ne hsource] at hm
          rw [Keyed.get?_erase_of_ne fun he => hsource (by rw [he])]
          exact ih m hm hreal'

end Accord
