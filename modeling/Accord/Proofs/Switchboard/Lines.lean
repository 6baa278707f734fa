import Accord.Directory
import Accord.Proofs.Keyed

/-! # Lines of a switchboard

Each registration opens a line: its number, its peer and what has been done since. From that alone
it can be said whether the line is recorded, whether its receiving end is there and which messages
it took. -/
namespace Accord
namespace Switchboard

/-- What may be done with a switchboard. -/
inductive Act where
  | register (peer : MemberId)
  | remove (peer : MemberId) (number : Nat)
  | dispatch (peer : MemberId) (message : Message)
  | broadcast (message : Message)
  | clear
  | hangUp (number : Nat)

namespace Act

def run (s : Switchboard) : Act → Switchboard
  | .register peer => (s.register peer).2
  | .remove peer number => (s.remove peer number).2
  | .dispatch peer message => (s.dispatch peer message).2
  | .broadcast message => (s.broadcast message).2
  | .clear => s.clear
  | .hangUp number => (s.hangUp number).2

/-- The deliveries that an act makes. -/
def deliveries (s : Switchboard) : Act → List Delivery
  | .dispatch peer message => (s.directory.dispatch peer message).toList
  | .broadcast message => s.directory.broadcast message
  | _ => []

/-- What an act sends to a peer. -/
def messageTo? (peer : MemberId) : Act → Option Message
  | .dispatch p message => if p = peer then some message else none
  | .broadcast message => some message
  | _ => none

/-- Whether an act ends the record of a connection to a peer: a newer connection to that peer, the
removal of this very connection, or the end of all records. -/
def releases (peer : MemberId) (number : Nat) : Act → Bool
  | .register p => p == peer
  | .remove p n => p == peer && n == number
  | .clear => true
  | _ => false

def hangsUp (number : Nat) : Act → Bool
  | .hangUp n => n == number
  | _ => false

/-- What an act leaves of the record of a peer. -/
def keep? (peer : MemberId) (act : Act) (c : Connection) : Option Connection :=
  if act.releases peer c.number then none else some ⟨c.number, c.live && !act.hangsUp c.number⟩

theorem bind_keep? {peer : MemberId} {act : Act} {record : Option Connection}
    (h : ∀ c, record = some c → act.releases peer c.number = false ∧
      (act.hangsUp c.number = true → c.live = false)) :
    record.bind (act.keep? peer) = record := by
  cases record with
  | none => rfl
  | some c =>
    obtain ⟨hkept, hlive⟩ := h c rfl
    obtain ⟨number, live⟩ := c
    cases hend : act.hangsUp number <;> simp_all [keep?]

end Act

/-- The switchboard after some acts. -/
def after (acts : List Act) : Switchboard :=
  acts.foldl Act.run empty

/-- The deliveries that are made from a switchboard on. -/
def deliveries (s : Switchboard) : List Act → List Delivery
  | [] => []
  | act :: acts => act.deliveries s ++ deliveries (act.run s) acts

/-! ## Lines -/

theorem takeWhile_concat {α : Type} (p : α → Bool) (xs : List α) (x : α) :
    (xs ++ [x]).takeWhile p = xs.takeWhile p ++ if xs.all p && p x then [x] else [] := by
  induction xs with
  | nil => cases h : p x <;> simp [h]
  | cons y ys ih => cases h : p y <;> simp [h, ih]

/-- A registration. -/
structure Line where
  number : Nat
  peer : MemberId
  /-- What was done behind the registration. -/
  since : List Act

/-- The lines that acts open behind so many older ones. -/
def lines (issued : Nat) : List Act → List Line
  | [] => []
  | .register peer :: acts => ⟨issued + 1, peer, acts⟩ :: lines (issued + 1) acts
  | _ :: acts => lines issued acts

namespace Line

/-- No newer connection to the peer, no removal and no clearing since. -/
def isRecorded (l : Line) : Bool :=
  !l.since.any (Act.releases l.peer l.number)

def isLive (l : Line) : Bool :=
  !l.since.any (Act.hangsUp l.number)

/-- Messages to the peer are taken. -/
def isOpen (l : Line) : Bool :=
  l.isRecorded && l.isLive

/-- The messages to the peer up to the act that ended the record or the receiving end. -/
def taken (l : Line) : List Message :=
  (l.since.takeWhile fun act => !(act.releases l.peer l.number || act.hangsUp l.number)).filterMap
    (Act.messageTo? l.peer)

/-- A receiving end that goes away takes its messages along. -/
def outbox (l : Line) : Outbox :=
  if l.isLive then ⟨true, l.taken⟩ else ⟨false, []⟩

def connection (l : Line) : Connection :=
  ⟨l.number, l.isLive⟩

/-- The line after one more act. -/
def extend (act : Act) (l : Line) : Line :=
  { l with since := l.since ++ [act] }

variable (act : Act) (l : Line)

theorem isRecorded_extend :
    (l.extend act).isRecorded = (l.isRecorded && !act.releases l.peer l.number) := by
  simp [isRecorded, extend]

theorem isLive_extend : (l.extend act).isLive = (l.isLive && !act.hangsUp l.number) := by
  simp [isLive, extend]

theorem isOpen_eq : l.isOpen =
    l.since.all fun act => !(act.releases l.peer l.number || act.hangsUp l.number) := by
  rw [isOpen, isRecorded, isLive]
  induction l.since with
  | nil => rfl
  | cons act acts ih =>
    rw [List.any_cons, List.any_cons, List.all_cons, ← ih]
    simp only [Bool.not_or]
    ac_rfl

theorem taken_extend : (l.extend act).taken =
    l.taken ++ if l.isOpen then (act.messageTo? l.peer).toList else [] := by
  have hends : (act.releases l.peer l.number || act.hangsUp l.number) = true →
      act.messageTo? l.peer = none := by
    cases act <;> simp [Act.releases, Act.hangsUp, Act.messageTo?]
  rw [taken, extend, takeWhile_concat, List.filterMap_append, ← isOpen_eq, taken]
  congr 1
  by_cases hopen : l.isOpen = true
  · rw [hopen, Bool.true_and, if_pos rfl]
    cases h : act.releases l.peer l.number || act.hangsUp l.number with
    | true =>
      rw [hends h]
      rfl
    | false => cases hm : act.messageTo? l.peer <;> simp [hm]
  · simp [hopen]

theorem keep?_connection (c : Connection) :
    (l.isRecorded = true ∧ act.keep? l.peer l.connection = some c) ↔
      (l.extend act).isRecorded = true ∧ (l.extend act).connection = c := by
  have hconnection : (l.extend act).connection =
      ⟨l.number, l.isLive && !act.hangsUp l.number⟩ := by
    rw [connection, isLive_extend]
    rfl
  rw [isRecorded_extend, hconnection, Act.keep?, connection]
  cases act.releases l.peer l.number <;> simp

theorem live_outbox : l.outbox.live = l.isLive := by
  rw [outbox]
  cases l.isLive <;> rfl

theorem outbox_extend_of_hangsUp (h : act.hangsUp l.number = true) :
    (l.extend act).outbox = ⟨false, []⟩ := by
  simp [outbox, isLive_extend, h]

/-- As long as nobody hangs up, an outbox takes what is sent while the line is open. -/
theorem outbox_extend (h : act.hangsUp l.number = false) :
    (l.extend act).outbox = { l.outbox with
      messages := l.outbox.messages ++
        if l.isOpen then (act.messageTo? l.peer).toList else [] } := by
  rw [outbox, outbox, isLive_extend, h, Bool.not_false, Bool.and_true]
  cases hlive : l.isLive with
  | true => rw [if_pos rfl, if_pos rfl, taken_extend]
  | false => simp [isOpen, hlive]

end Line

theorem lines_concat (issued : Nat) (acts : List Act) (act : Act) :
    lines issued (acts ++ [act]) = (lines issued acts).map (Line.extend act) ++
      lines (issued + (lines issued acts).length) [act] := by
  induction acts generalizing issued with
  | nil => rfl
  | cons first acts ih =>
    cases first with
    | register peer =>
      rw [List.cons_append, lines, ih, lines, List.map_cons, List.cons_append, List.length_cons]
      congr 3
      omega
    | _ => exact ih issued

/-- Lines are numbered in the order of their registrations. -/
theorem number_lines (issued : Nat) (acts : List Act) :
    (lines issued acts).map (·.number) =
      List.range' (issued + 1) (lines issued acts).length := by
  induction acts generalizing issued with
  | nil => rfl
  | cons act acts ih =>
    cases act with
    | register peer =>
      rw [lines, List.map_cons, ih, List.length_cons, List.range'_succ]
    | _ => exact ih issued

theorem after_concat (acts : List Act) (act : Act) :
    after (acts ++ [act]) = act.run (after acts) := by
  rw [after, List.foldl_append]
  rfl

theorem deliveries_concat (s : Switchboard) (acts : List Act) (act : Act) :
    deliveries s (acts ++ [act]) = deliveries s acts ++ act.deliveries (acts.foldl Act.run s) := by
  induction acts generalizing s with
  | nil => exact List.append_nil _
  | cons first acts ih => rw [List.cons_append, deliveries, ih, deliveries, List.append_assoc]; rfl

/-! ## Deposits -/

theorem directory_foldl_deposit (s : Switchboard) (ds : List Delivery) :
    (ds.foldl deposit s).directory = s.directory := by
  induction ds generalizing s with
  | nil => rfl
  | cons d ds ih => exact ih (s.deposit d)

/-- Each outbox gets its deliveries, in their order. -/
theorem get?_foldl_deposit (s : Switchboard) (ds : List Delivery) (number : Nat) :
    Keyed.get? number (ds.foldl deposit s).outboxes =
      (Keyed.get? number s.outboxes).map fun box => { box with
        messages := box.messages ++ (ds.filter (·.connection == number)).map (·.message) } := by
  induction ds generalizing s with
  | nil => simp
  | cons d ds ih =>
    rw [List.foldl_cons, ih, deposit]
    by_cases hd : d.connection = number
    · subst hd
      rw [Keyed.get?_modify_self, Option.map_map, List.filter_cons_of_pos (by simp)]
      simp [Function.comp_def]
    · rw [Keyed.get?_modify_of_ne (Ne.symm hd), List.filter_cons_of_neg (by simpa using hd)]

/-- What is sent is deposited. -/
theorem run_dispatch (s : Switchboard) (peer : MemberId) (message : Message) :
    (Act.dispatch peer message).run s =
      ((Act.dispatch peer message).deliveries s).foldl deposit s := by
  simp only [Act.run, Act.deliveries, dispatch]
  cases s.directory.dispatch peer message <;> rfl

theorem dispatch_fst (s : Switchboard) (peer : MemberId) (message : Message) :
    (s.dispatch peer message).1 = (s.directory.dispatch peer message).isSome := by
  rw [dispatch]
  cases s.directory.dispatch peer message <;> rfl

theorem length_dispatch (s : Switchboard) (peer : MemberId) (message : Message) :
    ((Act.dispatch peer message).deliveries s).length = (s.dispatch peer message).1.toNat := by
  rw [dispatch_fst, Act.deliveries]
  cases s.directory.dispatch peer message <;> rfl

theorem run_broadcast (s : Switchboard) (message : Message) :
    (Act.broadcast message).run s = ((Act.broadcast message).deliveries s).foldl deposit s := rfl

theorem delivery?_eq_some {message : Message} {peer : MemberId} {c : Connection} {d : Delivery} :
    Directory.delivery? message (peer, c) = some d ↔
      c.live = true ∧ ⟨c.number, peer, message⟩ = d := by
  simp [Directory.delivery?]

theorem eq_toList {α : Type} {xs : List α} (hxs : xs.Nodup) {x : Option α}
    (h : ∀ y, y ∈ xs ↔ x = some y) : xs = x.toList := by
  have hnodup : x.toList.Nodup := by cases x <;> simp
  have hperm : xs.Perm x.toList := by
    rw [List.perm_ext_iff_of_nodup hxs hnodup]
    simpa using h
  cases x with
  | none => exact List.perm_nil.mp hperm
  | some y => exact List.perm_singleton.mp hperm

/-! ## Removals and hang-ups -/

theorem remove_of_holds {s : Switchboard} {peer : MemberId} {number : Nat}
    (h : s.directory.holds peer number = true) : s.remove peer number =
      (true, { s with
        directory := { s.directory with records := Keyed.erase peer s.directory.records } }) := by
  simp [remove, Directory.remove, h]

theorem remove_of_not_holds {s : Switchboard} {peer : MemberId} {number : Nat}
    (h : ¬ s.directory.holds peer number = true) : s.remove peer number = (false, s) := by
  simp [remove, Directory.remove, h]

/-- Only a receiving end that is there goes away. -/
theorem hangUp_cases (s : Switchboard) (number : Nat) :
    (∃ box, Keyed.get? number s.outboxes = some box ∧ box.live = true ∧ s.hangUp number =
      (true, ⟨s.directory.hangUp number, Keyed.put number ⟨false, []⟩ s.outboxes⟩)) ∨
    (∀ box, Keyed.get? number s.outboxes = some box → box.live = false) ∧
      s.hangUp number = (false, s) := by
  rw [hangUp]
  cases hbox : Keyed.get? number s.outboxes with
  | none =>
    refine .inr ⟨?_, rfl⟩
    intro box h
    cases h
  | some box =>
    obtain ⟨live, messages⟩ := box
    cases live with
    | true => exact .inl ⟨_, rfl, rfl, rfl⟩
    | false =>
      refine .inr ⟨?_, rfl⟩
      intro box h
      rw [← Option.some.inj h]

theorem get?_hangUp (records : List (MemberId × Connection)) (issued number : Nat)
    (peer : MemberId) : Keyed.get? peer (Directory.hangUp number ⟨issued, records⟩).records =
      (Keyed.get? peer records).bind ((Act.hangUp number).keep? peer) := by
  rw [Directory.hangUp]
  induction records with
  | nil => rfl
  | cons entry records ih =>
    obtain ⟨p, c⟩ := entry
    by_cases hp : peer = p
    · by_cases hn : c.number = number
      · simp [Keyed.get?, Act.keep?, Act.releases, Act.hangsUp, hp, hn]
      · have hother : (number == c.number) = false := beq_eq_false_iff_ne.mpr (Ne.symm hn)
        simp [Keyed.get?, Act.keep?, Act.releases, Act.hangsUp, hp, hn, hother]
    · by_cases hn : c.number = number <;> simpa [Keyed.get?, hp, hn] using ih

theorem keys_hangUp (d : Directory) (number : Nat) :
    Keyed.keys (d.hangUp number).records = Keyed.keys d.records := by
  rw [Directory.hangUp, Keyed.keys, List.map_map]
  refine List.map_congr_left fun entry _ => ?_
  dsimp only [Function.comp]
  split <;> rfl

end Switchboard
end Accord
