import Accord.Proofs.Cluster.Announcement
import Accord.Proofs.Message.Portable
import Accord.Proofs.Node.Timers
import Mathlib.Data.Prod.Lex

/-! # Two leaders

When two nodes lead and each gets a heartbeat of the other, each decides by itself whether to give
way: it compares what the heartbeat tells with what it reads in its own log. Both compare the same
two claims, the reach of a log and the id of its node, so one of them stays and the other one
follows it, whichever hears first. A leader that cannot read its log claims less than any that can.
The one that gives way fails its operations, and what that does to its log changes nothing. -/
namespace Accord

namespace Node

variable {n m : Node}

/-! ## Claims -/

/-- What a leader claims its place with: how far its log reaches, and then its id. -/
def claim (n : Node) : Int ×ₗ Nat := toLex (n.announcedLog, n.id)

theorem lastId_of_available (h : n.store.available = true) :
    n.lastId = .ok n.store.log.lastId := if_pos h

theorem lastId_of_not_available (h : n.store.available = false) :
    n.lastId = .error .unavailable := by
  rw [lastId, Store.lastId, Store.whenAvailable, h]
  rfl

theorem announcedLog_nonneg (h : n.store.available = true) : 0 ≤ n.announcedLog := by
  rw [announcedLog, lastId_of_available h]
  simp only
  omega

theorem announcedLog_of_not_available (h : n.store.available = false) : n.announcedLog = -1 := by
  rw [announcedLog, lastId_of_not_available h]

/-- Heartbeats tell numbers of 64 bits with a sign. -/
theorem announcedLog_range (n : Node) :
    -(Text.signedLimit : Int) ≤ n.announcedLog ∧ n.announcedLog < Text.signedLimit := by
  have hlimit : heartbeatLimit + 1 = Text.signedLimit := rfl
  cases h : n.store.available with
  | false =>
    rw [announcedLog_of_not_available h]
    omega
  | true =>
    have hnonneg := announcedLog_nonneg h
    rw [announcedLog, lastId_of_available h] at hnonneg ⊢
    simp only at hnonneg ⊢
    omega

/-- A leader gives way to a larger claim, as long as one of the two can read its log. -/
theorem givesWay_iff (h : n.store.available = true ∨ m.store.available = true) :
    n.givesWay m.id m.announcedLog = true ↔ n.claim < m.claim := by
  rw [claim, claim, Prod.Lex.toLex_lt_toLex]
  cases hn : n.store.available with
  | true =>
    rw [givesWay, lastId_of_available hn]
    simp
  | false =>
    -- It gives way to any leader, and the other one reads its log, so it claims more.
    have hm := announcedLog_nonneg (h.resolve_left (by rw [hn]; exact Bool.false_ne_true))
    rw [givesWay, lastId_of_not_available hn, announcedLog_of_not_available hn]
    simp only [true_iff]
    exact .inl (by omega)

/-! ## Giving way -/

/-- A node that follows another one and has no operations any more. -/
structure Defers (leader : MemberId) (n : Node) : Prop where
  role : n.role = .follower
  leader : n.standing.leader = some leader
  round : n.round = none
  queue : n.queue = []

theorem turnTo_leader (leader : MemberId) (n : Node) :
    (n.turnTo leader).standing.leader = some leader := by
  simp only [turnTo]
  split
  · rfl
  · rfl

theorem turnTo_idle (leader : MemberId) (hl : n.leads = true) :
    (n.turnTo leader).round = none ∧ (n.turnTo leader).queue = [] := by
  simp only [turnTo, if_pos hl]
  exact failAll_idle _ n

theorem defers_turnTo {leader : MemberId} (hl : n.leads = true)
    (hne : leader ≠ n.standing.self) : (n.turnTo leader).Defers leader where
  role := by
    have hsame := (deeds_turnTo (o := .news leader) rfl n).same
    exact Standing.role_of_other (turnTo_leader leader n) (by rw [hsame.self]; exact hne)
  leader := turnTo_leader leader n
  round := (turnTo_idle leader hl).1
  queue := (turnTo_idle leader hl).2

theorem Defers.catchUp {leader : MemberId} (h : n.Defers leader) (logId : Int) :
    (n.catchUp leader logId).Defers leader where
  role := by rw [Node.role, catchUp_standing]; exact h.role
  leader := by rw [catchUp_standing]; exact h.leader
  round := (spares_catchUp leader logId n).1.trans h.round
  queue := (spares_catchUp leader logId n).2.trans h.queue

theorem Defers.emptied {leader : MemberId} (h : n.Defers leader) : n.emptied.Defers leader :=
  ⟨h.role, h.leader, h.round, h.queue⟩

/-! ## Heartbeats -/

theorem ofText_text_heartbeat (h : n.id < Text.wordLimit) :
    Message.ofText n.heartbeat.text = .ok n.heartbeat := by
  obtain ⟨hlow, hhigh⟩ := n.announcedLog_range
  refine Message.ofText_text ?_ ?_ ?_
  · simp only [heartbeat, Message.isPortable, Bool.and_eq_true, decide_eq_true_eq]
    exact ⟨⟨h, hlow⟩, hhigh⟩
  · intro x hx
    cases hx
  · simp [heartbeat, Message.encoded, Message.payloadWith, Json.natural, Json.integer, Json.height,
      Json.fieldsHeight, Json.nestingLimit]

/-- A leader whose standing is its own. -/
structure Reigns (n : Node) : Prop where
  self : n.standing.self = n.id
  leads : n.role = .leader

theorem Reigns.leader (h : n.Reigns) : n.standing.leader = some n.id := by
  rw [role_iff.mp h.leads, h.self]

/-- A leader that hears of another one compares their claims. -/
theorem Reigns.onFrame (h : n.Reigns) (hne : m.id ≠ n.id) (hm : m.id < Text.wordLimit)
    (sender : MemberId) : n.onFrame sender m.heartbeat.text =
      if n.givesWay m.id m.announcedLog then
        (n.turnTo m.id).catchUp m.id m.announcedLog
      else n := by
  rw [Node.onFrame, ofText_text_heartbeat hm]
  simp only [heartbeat, onMessage, onHeartbeat, h.leader]
  rw [if_neg (Ne.symm hne), if_pos trivial]

theorem Reigns.stays (h : n.Reigns) (hne : m.id ≠ n.id) (hm : m.id < Text.wordLimit)
    (hr : n.store.available = true ∨ m.store.available = true) (hlt : m.claim < n.claim)
    (sender : MemberId) : n.onFrame sender m.heartbeat.text = n := by
  rw [h.onFrame hne hm, if_neg]
  rw [givesWay_iff hr]
  exact hlt.asymm

theorem Reigns.yields (h : n.Reigns) (hne : m.id ≠ n.id) (hm : m.id < Text.wordLimit)
    (hr : n.store.available = true ∨ m.store.available = true) (hlt : n.claim < m.claim)
    (sender : MemberId) : (n.onFrame sender m.heartbeat.text).Defers m.id := by
  rw [h.onFrame hne hm, if_pos ((givesWay_iff hr).mpr hlt)]
  refine (defers_turnTo (leads_iff.mpr (role_iff.mp h.leads)) ?_).catchUp _
  rw [h.self]
  exact hne

/-- A node at another time, with the same log in the same reach. -/
structure SameLog (n m : Node) : Prop where
  id : m.id = n.id
  log : m.store.log = n.store.log
  available : m.store.available = n.store.available

theorem SameLog.announcedLog (h : SameLog n m) : m.announcedLog = n.announcedLog := by
  rw [Node.announcedLog, Node.announcedLog, lastId, lastId, Store.lastId, Store.lastId,
    Store.whenAvailable, Store.whenAvailable, h.available, h.log]

theorem SameLog.heartbeat (h : SameLog n m) : m.heartbeat = n.heartbeat := by
  rw [Node.heartbeat, Node.heartbeat, h.announcedLog, h.id]

theorem SameLog.claim (h : SameLog n m) : m.claim = n.claim := by
  rw [Node.claim, Node.claim, h.announcedLog, h.id]

theorem sameLog_setClock (clock : Clock) (n : Node) : SameLog n (n.setClock clock) :=
  ⟨rfl, rfl, rfl⟩

end Node

/-! ## Clusters -/

namespace World

variable {w : World}

/-- A node gets a message, and no other node does anything. -/
theorem node?_stray (hs : w.Settled) {n : Node} (t : Transmission)
    (hn : w.node? t.ends.target = some n) :
    (w.perform (.stray t)).node? t.ends.target =
      some ((n.setClock w.clock).onFrame t.ends.source t.message.text).emptied ∧
    (∀ k, k ≠ t.ends.target → (w.perform (.stray t)).node? k = w.node? k) ∧
    (w.perform (.stray t)).Settled := by
  have hacts : (Turn.mk w (.stray t)).Acts t.ends.target (.message t.ends.source t.message) n :=
    ⟨rfl, hn⟩
  refine ⟨hacts.self hs, ?_, Turn.settled_after (t := ⟨w, .stray t⟩) hs⟩
  intro k hk
  exact hacts.other hs hk

/-- Two nodes each get a message, one after the other. -/
theorem node?_play_exchange (hs : w.Settled) {i j : MemberId} (hij : i ≠ j) {n m : Node}
    (hn : w.node? i = some n) (hm : w.node? j = some m) (x y : Message) {actions : List Action}
    (ha : actions = [.stray ⟨⟨j, i⟩, x⟩, .stray ⟨⟨i, j⟩, y⟩] ∨
      actions = [.stray ⟨⟨i, j⟩, y⟩, .stray ⟨⟨j, i⟩, x⟩]) :
    ∃ clock clock', (w.play actions).node? i = some ((n.setClock clock).onFrame j x.text).emptied ∧
      (w.play actions).node? j = some ((m.setClock clock').onFrame i y.text).emptied := by
  rcases ha with rfl | rfl
  · obtain ⟨hi, hother, hs'⟩ := node?_stray hs ⟨⟨j, i⟩, x⟩ hn
    obtain ⟨hj, hother', _⟩ := node?_stray hs' ⟨⟨i, j⟩, y⟩ ((hother j hij.symm).trans hm)
    exact ⟨_, _, (hother' i hij).trans hi, hj⟩
  · obtain ⟨hj, hother, hs'⟩ := node?_stray hs ⟨⟨i, j⟩, y⟩ hm
    obtain ⟨hi, hother', _⟩ := node?_stray hs' ⟨⟨j, i⟩, x⟩ ((hother i hij).trans hn)
    exact ⟨_, _, hi, (hother' j hij.symm).trans hj⟩

/-- A node of the cluster leads. -/
structure LedBy (w : World) (n : Node) : Prop where
  node : w.node? n.id = some n
  word : n.id < Text.wordLimit
  reigns : n.Reigns

/-- The two orders in which two leaders handle each other's heartbeats. -/
def exchanges (a b a₀ b₀ : Node) : List (List Action) :=
  let toA : Action := .stray ⟨⟨b.id, a.id⟩, b₀.heartbeat⟩
  let toB : Action := .stray ⟨⟨a.id, b.id⟩, a₀.heartbeat⟩
  [[toA, toB], [toB, toA]]

/-- The leader with the larger claim stays, and the other one follows it. -/
theorem play_of_lt (hs : w.Settled) {a b a₀ b₀ : Node} (ha : w.LedBy a) (hb : w.LedBy b)
    (ha₀ : a.SameLog a₀) (hb₀ : b.SameLog b₀)
    (hr : a.store.available = true ∨ b.store.available = true) (hlt : b.claim < a.claim)
    {actions : List Action} (hactions : actions ∈ exchanges a b a₀ b₀) :
    ∃ a' b', (w.play actions).node? a.id = some a' ∧ (w.play actions).node? b.id = some b' ∧
      a'.role = .leader ∧ b'.Defers a.id := by
  have hne : a.id ≠ b.id := by
    intro heq
    -- There is one node under an id, and it has one claim.
    have hab : some a = some b := by rw [← ha.node, heq, hb.node]
    cases hab
    exact lt_irrefl _ hlt
  obtain ⟨clock, clock', hi, hj⟩ := node?_play_exchange hs hne ha.node hb.node b₀.heartbeat
    a₀.heartbeat (by simpa [exchanges] using hactions)
  rw [hb₀.heartbeat] at hi
  rw [ha₀.heartbeat] at hj
  have hstays : (a.setClock clock).onFrame b.id b.heartbeat.text = a.setClock clock := by
    have hreigns : (a.setClock clock).Reigns := ⟨ha.reigns.self, ha.reigns.leads⟩
    refine hreigns.stays hne.symm hb.word hr ?_ b.id
    rw [(a.sameLog_setClock clock).claim]
    exact hlt
  have hyields : ((b.setClock clock').onFrame a.id a.heartbeat.text).Defers a.id := by
    have hreigns : (b.setClock clock').Reigns := ⟨hb.reigns.self, hb.reigns.leads⟩
    refine hreigns.yields hne ha.word hr.symm ?_ a.id
    rw [(b.sameLog_setClock clock').claim]
    exact hlt
  rw [hstays] at hi
  exact ⟨_, _, hi, hj, ha.reigns.leads, hyields.emptied⟩

/-- Two nodes lead. Each has sent the other a heartbeat, and since then neither its log nor the
reach of it has changed; one of the two at least can read its log. Once both heartbeats have been
handled, in whichever order, one of the two leads and the other one follows it and has no operations
any more. The one that leads is the one whose log reaches further, as heartbeats tell it, or the one
with the larger id if both reach as far. -/
theorem rival_leaders_settle (hs : w.Settled) {a b a₀ b₀ : Node} (ha : w.LedBy a) (hb : w.LedBy b)
    (hne : a.id ≠ b.id) (ha₀ : a.SameLog a₀) (hb₀ : b.SameLog b₀)
    (hr : a.store.available = true ∨ b.store.available = true) {actions : List Action}
    (hactions : actions ∈ exchanges a b a₀ b₀) :
    ∃ a' b', (w.play actions).node? a.id = some a' ∧ (w.play actions).node? b.id = some b' ∧
      (b.claim < a.claim ∧ a'.role = .leader ∧ b'.Defers a.id ∨
        a.claim < b.claim ∧ b'.role = .leader ∧ a'.Defers b.id) := by
  have hclaims : a.claim ≠ b.claim := by
    intro heq
    exact hne (congrArg (fun c => (ofLex c).2) heq)
  rcases lt_or_gt_of_ne hclaims with hlt | hlt
  · have hswapped : actions ∈ exchanges b a b₀ a₀ := by
      simp only [exchanges, List.mem_cons, List.not_mem_nil, or_false] at hactions ⊢
      exact hactions.symm
    obtain ⟨b', a', hj, hi, hleads, hdefers⟩ := play_of_lt hs hb ha hb₀ ha₀ hr.symm hlt hswapped
    exact ⟨a', b', hi, hj, .inr ⟨hlt, hleads, hdefers⟩⟩
  · obtain ⟨a', b', hi, hj, hleads, hdefers⟩ := play_of_lt hs ha hb ha₀ hb₀ hr hlt hactions
    exact ⟨a', b', hi, hj, .inl ⟨hlt, hleads, hdefers⟩⟩

theorem Settled.play (hs : w.Settled) (actions : List Action) : (w.play actions).Settled := by
  induction actions generalizing w with
  | nil => exact hs
  | cons action rest ih => exact ih (Turn.settled_after (t := ⟨w, action⟩) hs)

/-- Two leaders that both have a write in flight; one of them has a read behind it. -/
def contest : World :=
  pair.play (duel ++ [.submit 1 .post ⟨"CREATE TABLE t (v INT)", none⟩,
    .submit 1 .get ⟨"SELECT v FROM t", none⟩, .submit 2 .post ⟨"CREATE TABLE u (v INT)", none⟩])

/-- A leader whose log has one entry, for a round that is in flight. -/
def isContender (id : MemberId) (n : Node) : Bool :=
  n.id = id ∧ n.standing.self = id ∧ n.role = .leader ∧ n.announcedLog = 1 ∧
    n.store.available = true ∧ n.round.isSome = true

theorem contest_contenders :
    (contest.node? 1).any (fun n => isContender 1 n && n.queue.length == 1) = true ∧
    (contest.node? 2).any (isContender 2) = true := by
  decide +kernel

/-- Both logs reach as far, so the first leader gives way and drops its operations. -/
theorem contest_settles : ∃ a b a' b', contest.LedBy a ∧ contest.LedBy b ∧
    a.round.isSome = true ∧ a.queue.length = 1 ∧ b.round.isSome = true ∧
    (contest.play [.stray ⟨⟨2, 1⟩, b.heartbeat⟩, .stray ⟨⟨1, 2⟩, a.heartbeat⟩]).node? 1 = some a' ∧
    (contest.play [.stray ⟨⟨2, 1⟩, b.heartbeat⟩, .stray ⟨⟨1, 2⟩, a.heartbeat⟩]).node? 2 = some b' ∧
    b'.role = .leader ∧ a'.Defers 2 := by
  obtain ⟨a, ha, hqueue⟩ := (Option.any_eq_true _ _).mp contest_contenders.1
  obtain ⟨b, hb, hcontender'⟩ := (Option.any_eq_true _ _).mp contest_contenders.2
  simp only [Bool.and_eq_true, beq_iff_eq] at hqueue
  obtain ⟨hcontender, hqueue⟩ := hqueue
  simp only [isContender, decide_eq_true_eq] at hcontender hcontender'
  obtain ⟨hid, hself, hrole, hlog, havailable, hround⟩ := hcontender
  obtain ⟨hid', hself', hrole', hlog', _, hround'⟩ := hcontender'
  have hleads : contest.LedBy a :=
    ⟨by rw [hid]; exact ha, by rw [hid]; decide, by rw [hself, hid], hrole⟩
  have hleads' : contest.LedBy b :=
    ⟨by rw [hid']; exact hb, by rw [hid']; decide, by rw [hself', hid'], hrole'⟩
  have hlt : a.claim < b.claim := by
    rw [Node.claim, Node.claim, hlog, hlog', hid, hid']
    decide
  have hsettled : contest.Settled := (World.boot_fresh ..).settled.play _
  obtain ⟨a', b', hi, hj, hend⟩ := rival_leaders_settle hsettled hleads hleads'
    (by rw [hid, hid']; decide) ⟨rfl, rfl, rfl⟩ ⟨rfl, rfl, rfl⟩ (.inl havailable)
    (List.mem_cons_self ..)
  rw [hid, hid'] at hi hj hend
  rcases hend with ⟨hgt, _⟩ | ⟨_, hleader, hdefers⟩
  · exact absurd hlt hgt.asymm
  · exact ⟨a, b, a', b', hleads, hleads', hround, hqueue, hround', hi, hj, hleader, hdefers⟩

end World
end Accord
