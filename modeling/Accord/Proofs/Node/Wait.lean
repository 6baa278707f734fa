import Accord.Proofs.Node.Timers

/-! # Waiting for missing entries

A follower that lacks entries asks its leader for them and waits. Each handler does one of a few
things to the wait: it leaves it alone, ends it, or asks and begins a new one. -/
namespace Accord

/-! ## Requests that are sent -/

/-- The peer that is asked for entries. -/
def Delivery.asked? (d : Delivery) : Option MemberId :=
  match d.message with
  | .entriesRequest _ _ => some d.peer
  | _ => none

/-- The peers that are asked for entries, in the order of sending. -/
def asked (ds : List Delivery) : List MemberId :=
  ds.filterMap Delivery.asked?

theorem asked_append (ds es : List Delivery) : asked (ds ++ es) = asked ds ++ asked es :=
  List.filterMap_append

theorem asked_eq_nil {ds : List Delivery} (h : ∀ d ∈ ds, d.message.kind ≠ .entriesRequest) :
    asked ds = [] := by
  refine List.filterMap_eq_nil_iff.mpr ?_
  intro d hd
  have hk := h d hd
  rw [Delivery.asked?]
  split
  · rename_i hm
    rw [hm] at hk
    exact absurd rfl hk
  · rfl

theorem asked_broadcast (directory : Directory) {message : Message}
    (h : message.kind ≠ .entriesRequest) : asked (directory.broadcast message) = [] := by
  refine asked_eq_nil ?_
  intro d hd
  rw [(Node.mem_peers_of_broadcast hd).2]
  exact h

theorem asked_dispatch (directory : Directory) (peer : MemberId) {message : Message}
    (h : message.kind ≠ .entriesRequest) :
    asked (directory.dispatch peer message).toList = [] := by
  refine asked_eq_nil ?_
  intro d hd
  rw [(Node.mem_peers_of_dispatch hd).2.2]
  exact h

/-- A request that is taken asks the peer it is sent to. -/
theorem asked_dispatch_request {directory : Directory} {peer follower : MemberId} {logId : Nat}
    (h : (directory.dispatch peer (.entriesRequest follower logId)).isSome = true) :
    asked (directory.dispatch peer (.entriesRequest follower logId)).toList = [peer] := by
  obtain ⟨d, hd⟩ := Option.isSome_iff_exists.mp h
  have hmem : d ∈ (directory.dispatch peer (.entriesRequest follower logId)).toList := by
    rw [hd]
    exact List.mem_singleton_self d
  obtain ⟨hpeer, -, hmessage⟩ := Node.mem_peers_of_dispatch hmem
  rw [hd]
  simp [asked, Delivery.asked?, hmessage, hpeer]

namespace Node

variable {n m : Node}

/-! ## Handlers that ask nobody -/

/-- A node that asks nobody for entries. It keeps its leader and waits as before, or it waits for
nothing because it knows no other leader. -/
inductive Abides (n m : Node) : Prop
  | waits (hsame : Same n m) (hasked : asked m.outbox = asked n.outbox)
      (hsince : m.requestedAt = n.requestedAt) (hleader : m.standing.leader = n.standing.leader)
  | quits (hsame : Same n m) (hasked : asked m.outbox = asked n.outbox)
      (hsince : m.requestedAt = none)
      (hleader : ∀ leader, m.standing.leader = some leader → leader = m.standing.self)

theorem Abides.refl (n : Node) : Abides n n := .waits (.refl n) rfl rfl rfl

theorem Abides.same (h : Abides n m) : Same n m := by
  cases h with
  | waits hsame => exact hsame
  | quits hsame => exact hsame

theorem Abides.asked (h : Abides n m) : asked m.outbox = asked n.outbox := by
  cases h with
  | waits _ hasked => exact hasked
  | quits _ hasked => exact hasked

theorem Abides.trans {l : Node} (h : Abides n m) (h' : Abides m l) : Abides n l := by
  have hsame := h.same.trans h'.same
  have hasked := h'.asked.trans h.asked
  cases h' with
  | quits _ _ hsince hleader => exact .quits hsame hasked hsince hleader
  | waits hs _ hsince hleader =>
    cases h with
    | waits _ _ hsince' hleader' =>
      exact .waits hsame hasked (hsince.trans hsince') (hleader.trans hleader')
    | quits _ _ hsince' hleader' =>
      refine .quits hsame hasked (hsince.trans hsince') ?_
      rw [hleader, hs.self]
      exact hleader'

/-- Sending something else to all peers. -/
theorem Abides.of_broadcast {message : Message} (hk : message.kind ≠ .entriesRequest)
    (hsame : Same n m) (ho : m.outbox = n.outbox ++ n.directory.broadcast message)
    (hsince : m.requestedAt = n.requestedAt) (hleader : m.standing.leader = n.standing.leader) :
    Abides n m := by
  refine .waits hsame ?_ hsince hleader
  rw [ho, asked_append, asked_broadcast _ hk, List.append_nil]

/-- Sending something else to one peer. -/
theorem Abides.of_dispatch {peer : MemberId} {message : Message}
    (hk : message.kind ≠ .entriesRequest) (hsame : Same n m)
    (ho : m.outbox = n.outbox ++ (n.directory.dispatch peer message).toList)
    (hsince : m.requestedAt = n.requestedAt) (hleader : m.standing.leader = n.standing.leader) :
    Abides n m := by
  refine .waits hsame ?_ hsince hleader
  rw [ho, asked_append, asked_dispatch _ _ hk, List.append_nil]

theorem Opened.abides {op : Operation} (h : Opened op n m) : Abides n m := by
  have hsame := h.same
  cases h with
  | cutOff => exact .waits hsame rfl rfl rfl
  | unwritten => exact .waits hsame rfl rfl rfl
  | read => exact .of_broadcast (by simp [roundRequest, Message.kind]) hsame rfl rfl rfl
  | write => exact .of_broadcast (by simp [roundRequest, Message.kind]) hsame rfl rfl rfl

theorem Carried.abides {r : Round} (h : Carried r n m) : Abides n m := by
  have hsame := h.same
  cases h with
  | read => exact .waits hsame rfl rfl rfl
  | void => exact .waits hsame rfl rfl rfl
  | write => exact .of_broadcast (by simp [Message.kind]) hsame rfl rfl rfl
  | unwritten => exact .of_broadcast (by simp [Message.kind]) hsame rfl rfl rfl

theorem Dropped.abides {r : Round} {e : ReplyError} (h : Dropped r e n m) : Abides n m := by
  have hsame := h.same
  cases h with
  | read => exact .waits hsame rfl rfl rfl
  | write => exact .of_broadcast (by simp [Message.kind]) hsame rfl rfl rfl

theorem dealing_abides : Dealing Abides where
  refl := Abides.refl
  trans := Abides.trans
  opened := Opened.abides
  carried := Carried.abides
  dropped := Dropped.abides
  setQueue _ _ := .waits ⟨rfl, rfl, rfl, rfl, rfl⟩ rfl rfl rfl
  answer _ _ _ := .waits ⟨rfl, rfl, rfl, rfl, rfl⟩ rfl rfl rfl

/-- Dice and timers do not matter. -/
theorem abides_search (n : Node) : Abides n n.search := by
  unfold search
  obtain ⟨pick, dice⟩ := n.dice.roll
  exact .waits ⟨rfl, rfl, rfl, rfl, rfl⟩ rfl rfl rfl

theorem abides_loseLeader (n : Node) : Abides n n.loseLeader := by
  unfold loseLeader seek
  obtain ⟨pick, dice⟩ := n.dice.roll
  refine .quits ⟨rfl, rfl, rfl, rfl, rfl⟩ rfl rfl ?_
  intro leader hleader
  cases hleader

theorem abides_promote (n : Node) : Abides n n.promote := by
  refine .quits ⟨rfl, rfl, rfl, rfl, rfl⟩ ?_ rfl ?_
  · show asked (n.outbox ++ n.directory.broadcast (.announcement n.id)) = asked n.outbox
    rw [asked_append, asked_broadcast _ (by simp [Message.kind]), List.append_nil]
  · intro leader hleader
    exact (Option.some.inj hleader).symm

theorem abides_stand (n : Node) : Abides n n.stand := by
  have hasked : Abides n n.askForVotes := by
    unfold askForVotes
    split
    · split
      · exact abides_promote n
      · exact .refl n
    · split
      · exact .refl n
      · exact .of_broadcast (by simp [Message.kind]) ⟨rfl, rfl, rfl, rfl, rfl⟩ rfl rfl rfl
  simp only [stand]
  split
  · exact hasked.trans (abides_search _)
  · exact hasked

theorem abides_decideElection (n : Node) : Abides n n.decideElection := by
  simp only [decideElection]
  split
  · exact .refl n
  · have hresolved : Abides n { n with ballot := { n.ballot with resolved := true } } :=
      .waits ⟨rfl, rfl, rfl, rfl, rfl⟩ rfl rfl rfl
    split
    · exact hresolved.trans (abides_promote _)
    · exact hresolved

theorem abides_onConnected (peer : MemberId) (n : Node) : Abides n (n.onConnected peer) := by
  unfold onConnected
  split
  · exact .of_dispatch (by simp [heartbeat, Message.kind]) ⟨rfl, rfl, rfl, rfl, rfl⟩ rfl rfl rfl
  · exact .refl n

theorem abides_onDisconnected (peer : MemberId) (n : Node) :
    Abides n (n.onDisconnected peer) := by
  have hrest (m : Node) : Abides m m.decideElection.decideRound.proceed :=
    ((abides_decideElection m).trans (dealing_abides.decideRound _)).trans
      (dealing_abides.proceed _)
  simp only [onDisconnected]
  split
  · exact (abides_loseLeader n).trans (hrest _)
  · exact hrest n

/-- Only a batch ends the wait while it is taken in. -/
theorem Absorbed.abides {sender : MemberId} {msg : Message} (h : Absorbed sender n msg m)
    (hk : msg.kind ≠ .batch) : Abides n m := by
  have hsame := h.same.1
  cases h with
  | insert => exact absurd rfl hk
  | vote => exact .of_dispatch (by simp [Message.kind]) hsame rfl rfl rfl
  | handOut => exact .of_dispatch (by simp [Message.kind]) hsame rfl rfl rfl
  | attend => exact .of_dispatch (by simp [Message.kind]) hsame rfl rfl rfl
  | _ => exact .waits hsame rfl rfl rfl

/-- Messages that bring no entries and name no leader. -/
theorem abides_onMessage (sender : MemberId) {msg : Message} (n : Node) (hb : msg.kind ≠ .batch)
    (ha : msg.kind ≠ .announcement) (hh : msg.kind ≠ .heartbeat) :
    Abides n (n.onMessage sender msg) := by
  have habsorb := (absorbed sender msg n).abides hb
  cases msg with
  | announcement leader => exact absurd rfl ha
  | heartbeat leader logId => exact absurd rfl hh
  | vote voter accept round =>
    simp only [onMessage, onVote]
    split
    · have hrecorded : Abides n { n with ballot := n.ballot.record voter accept } :=
        .waits ⟨rfl, rfl, rfl, rfl, rfl⟩ rfl rfl rfl
      exact hrecorded.trans (abides_decideElection _)
    · exact .refl n
  | roundAnswer digest round =>
    simp only [onMessage, onRoundAnswer]
    split
    · exact .refl n
    · rename_i r _
      split
      · exact .refl n
      · have hcounted : Abides n
            { n with round := some { r with tally := r.tally.record sender digest } } :=
          .waits ⟨rfl, rfl, rfl, rfl, rfl⟩ rfl rfl rfl
        exact hcounted.trans
          ((dealing_abides.decideRound _).trans (dealing_abides.proceed _))
  | _ => exact habsorb

/-! ## Time -/

theorem abides_standing (n : Node) (standing : Standing) (hself : standing.self = n.standing.self)
    (hleader : standing.leader = n.standing.leader) : Abides n { n with standing } :=
  .waits ⟨rfl, rfl, rfl, rfl, hself⟩ rfl rfl hleader

theorem abides_tickHeartbeat (now : Moment) (n : Node) : Abides n (n.tickHeartbeat now) := by
  simp only [tickHeartbeat]
  split
  · have hidle := abides_standing n { n.standing with heartbeat := .idle } rfl rfl
    split
    · refine hidle.trans ?_
      exact .of_broadcast (by simp [heartbeat, Message.kind]) ⟨rfl, rfl, rfl, rfl, rfl⟩ rfl rfl rfl
    · exact hidle
  · exact .refl n

theorem abides_tickElection (now : Moment) (n : Node) : Abides n (n.tickElection now) := by
  simp only [tickElection]
  split
  · have hidle := abides_standing n { n.standing with election := .idle } rfl rfl
    split
    · exact hidle.trans (abides_stand _)
    · exact hidle
  · exact .refl n

theorem abides_tickVote (now : Moment) (n : Node) : Abides n (n.tickVote now) := by
  simp only [tickVote]
  split
  · have hidle := abides_standing n { n.standing with vote := .idle } rfl rfl
    split
    · exact hidle
    · exact hidle.trans (abides_loseLeader _)
    · exact hidle.trans (abides_stand _)
  · exact .refl n

theorem abides_tickRound (now : Moment) (n : Node) : Abides n (n.tickRound now) := by
  unfold tickRound
  split
  · exact dealing_abides.timeOutRound n
  · exact .refl n

/-! ## Asking -/

/-- A node that asks its leader for entries and waits for them from now on. If it waited before, it
has waited long enough. -/
structure Asks (peer : MemberId) (n m : Node) : Prop where
  same : Same n m
  asked : asked m.outbox = asked n.outbox ++ [peer]
  since : m.requestedAt = some n.clock.now
  leader : m.standing.leader = some peer
  due : ∀ since, n.requestedAt = some since → since + n.timing.vote.nanos ≤ n.clock.now

theorem due_of_not_awaitsEntries (h : n.awaitsEntries = false) (since : Moment)
    (hsince : n.requestedAt = some since) : since + n.timing.vote.nanos ≤ n.clock.now := by
  rw [awaitsEntries, hsince] at h
  simpa using h

theorem catchUp_cases {leader : MemberId} (hl : n.standing.leader = some leader) (logId : Int) :
    Abides n (n.catchUp leader logId) ∨ Asks leader n (n.catchUp leader logId) := by
  unfold catchUp
  split
  · exact .inl (.refl n)
  · rename_i own _
    simp only
    split
    · exact .inl (.refl n)
    · rename_i hwait
      split
      · rename_i htaken
        have hdue : n.awaitsEntries = false := by
          simp only [Bool.or_eq_true, not_or, Bool.not_eq_true] at hwait
          exact hwait.2
        refine .inr ⟨⟨rfl, rfl, rfl, rfl, rfl⟩, ?_, rfl, hl, due_of_not_awaitsEntries hdue⟩
        show asked (n.outbox ++ (n.directory.dispatch leader (.entriesRequest n.id own)).toList) =
          asked n.outbox ++ [leader]
        rw [asked_append, asked_dispatch_request htaken]
      · exact .inl (.refl n)

/-- Whoever waits for entries follows another node. -/
def Waiting (n : Node) : Prop :=
  ∀ since, n.requestedAt = some since →
    ∃ leader, n.standing.leader = some leader ∧ leader ≠ n.standing.self

theorem Waiting.idle (h : n.Waiting)
    (hl : ∀ leader, n.standing.leader = some leader → leader = n.standing.self) :
    n.requestedAt = none := by
  cases hsince : n.requestedAt with
  | none => rfl
  | some since =>
    obtain ⟨leader, hleader, hne⟩ := h since hsince
    exact absurd (hl leader hleader) hne

end Node

/-! ## Steps -/

/-- What a node is given to do. -/
inductive Move where
  | event (e : Event)
  | tick

/-- An event that ends the wait for entries whatever the node is: entries, or news of a leader. -/
def Event.EndsWait (self : MemberId) : Event → Prop
  | .frame _ text => (∃ leader entries, Message.ofText text = .ok (.batch leader entries)) ∨
      ∃ leader, Message.ofText text = .ok (.announcement leader) ∧ leader ≠ self
  | _ => False

namespace Move

def run (n : Node) : Move → Node
  | .event e => n.handle e
  | .tick => n.tick

def Echoes (self : MemberId) : Move → Prop
  | .event e => e.Echoes self
  | .tick => False

def EndsWait (self : MemberId) : Move → Prop
  | .event e => e.EndsWait self
  | .tick => False

end Move

namespace Node

variable {n m : Node}

/-- What a step does to the wait for entries. -/
inductive Bears (move : Move) (n m : Node) : Prop
  | abides (h : Abides n m)
  /-- The node no longer waits, because it has waited long enough or for the sake of the event. -/
  | rests (hsame : Same n m) (hasked : asked m.outbox = asked n.outbox)
      (hsince : m.requestedAt = none)
      (hwhy : ∀ since, n.requestedAt = some since →
        since + n.timing.vote.nanos ≤ n.clock.now ∨ move.EndsWait n.id)
  | asks {peer : MemberId} (hne : peer ≠ n.standing.self) (h : Asks peer n m)

/-- Whoever turns to a leader waits for nothing. -/
theorem turnTo_rests (leader : MemberId) (n : Node) :
    Same n (n.turnTo leader) ∧ asked (n.turnTo leader).outbox = asked n.outbox ∧
      (n.turnTo leader).requestedAt = none ∧ (n.turnTo leader).standing.leader = some leader := by
  have hfrom : Abides n (if n.leads then n.failAll (.notLeading (some leader)) else n) := by
    split
    · exact dealing_abides.failAll _ n
    · exact .refl n
  have hsame := hfrom.same
  exact ⟨⟨hsame.1, hsame.2, hsame.3, hsame.4, hsame.5⟩, hfrom.asked, rfl, rfl⟩

/-- A node that begins to follow a leader, and has waited for nothing, may ask it at once. -/
theorem bears_catchUp {move : Move} {leader : MemberId} {l : Node} (hne : leader ≠ n.standing.self)
    (hsame : Same n l) (hasked : asked l.outbox = asked n.outbox) (hidle : n.requestedAt = none)
    (hsince : l.requestedAt = none) (hl : l.standing.leader = some leader) (logId : Int) :
    Bears move n (l.catchUp leader logId) := by
  rcases catchUp_cases hl logId with h | h
  · refine .rests (hsame.trans h.same) (h.asked.trans hasked) ?_ ?_
    · cases h with
      | waits _ _ hkept => exact hkept.trans hsince
      | quits _ _ hnone => exact hnone
    · intro since hbefore
      rw [hidle] at hbefore
      cases hbefore
  · refine .asks hne ⟨hsame.trans h.same, ?_, ?_, h.leader, ?_⟩
    · rw [h.asked, hasked]
    · rw [h.since, hsame.clock]
    · intro since hbefore
      rw [hidle] at hbefore
      cases hbefore

theorem bears_onHeartbeat {move : Move} {leader : MemberId} (hw : n.Waiting)
    (hself : n.standing.self = n.id) (hne : leader ≠ n.standing.self) (logId : Int) :
    Bears move n (n.onHeartbeat leader logId) := by
  unfold onHeartbeat
  split
  · rename_i hnone
    have hidle : n.requestedAt = none := by
      refine hw.idle ?_
      intro current hcurrent
      rw [hnone] at hcurrent
      cases hcurrent
    exact bears_catchUp
      (l := { n with standing := n.standing.follow leader n.timing n.clock.now }) hne
      ⟨rfl, rfl, rfl, rfl, rfl⟩ rfl hidle hidle rfl logId
  · rename_i current hcurrent
    split
    · rename_i heq
      subst heq
      have hrefresh := abides_standing n (n.standing.refresh n.timing n.clock.now) rfl rfl
      have hl : { n with standing := n.standing.refresh n.timing n.clock.now }.standing.leader =
          some current := hcurrent
      rcases catchUp_cases hl logId with h | h
      · exact .abides (hrefresh.trans h)
      · exact .asks hne ⟨hrefresh.same.trans h.same, h.asked, h.since, h.leader, h.due⟩
    · split
      · rename_i hleads
        have hidle : n.requestedAt = none := by
          refine hw.idle ?_
          intro other hother
          rw [hcurrent] at hother
          rw [← Option.some.inj hother, hleads, hself]
        split
        · obtain ⟨hsame, hasked, hsince, hl⟩ := turnTo_rests leader n
          exact bears_catchUp hne hsame hasked hidle hsince hl logId
        · exact .abides (.refl n)
      · exact .abides (.refl n)

theorem bears_onMessage {e : Event} {msg : Message} (hw : n.Waiting)
    (hself : n.standing.self = n.id) (sender : MemberId)
    (hbatch : ∀ leader entries, msg = .batch leader entries → e.EndsWait n.id)
    (hnews : ∀ leader, msg = .announcement leader → leader ≠ n.id → e.EndsWait n.id)
    (hecho : ∀ logId, msg ≠ .heartbeat n.id logId) :
    Bears (.event e) n (n.onMessage sender msg) := by
  cases msg with
  | batch leader entries =>
    refine .rests ⟨rfl, rfl, rfl, rfl, rfl⟩ rfl rfl ?_
    intro since _
    exact .inr (hbatch leader entries rfl)
  | announcement leader =>
    simp only [onMessage, onAnnouncement]
    split
    · exact .abides (.refl n)
    · rename_i hne
      obtain ⟨hsame, hasked, hsince, -⟩ := turnTo_rests leader n
      refine .rests hsame hasked hsince ?_
      intro since _
      exact .inr (hnews leader rfl hne)
  | heartbeat leader logId =>
    refine bears_onHeartbeat hw hself ?_ logId
    intro heq
    exact hecho logId (by rw [heq, hself])
  | _ => exact .abides (abides_onMessage sender n (by simp [Message.kind]) (by simp [Message.kind])
      (by simp [Message.kind]))

theorem bears_handle {e : Event} (hw : n.Waiting) (hself : n.standing.self = n.id)
    (he : ¬ e.Echoes n.id) : Bears (.event e) n (n.handle e) := by
  cases e with
  | frame sender text =>
    simp only [handle, onFrame]
    split
    · rename_i msg hread
      refine bears_onMessage hw hself sender ?_ ?_ ?_
      · intro leader entries heq
        exact .inl ⟨leader, entries, by rw [hread, heq]⟩
      · intro leader heq hne
        exact .inr ⟨leader, by rw [hread, heq], hne⟩
      · intro logId heq
        exact he ⟨logId, by rw [hread, heq]⟩
    · exact .abides (.refl n)
  | connected peer => exact .abides (abides_onConnected peer n)
  | disconnected peer => exact .abides (abides_onDisconnected peer n)
  | client op => exact .abides (dealing_abides.submit op n)
  | campaign => exact .abides (abides_stand n)

/-- The last stage ends a wait that has lasted long enough. -/
theorem bears_tickCatchUp (h : Abides n m) : Bears .tick n (m.tickCatchUp n.clock.now) := by
  have hsame := h.same
  unfold tickCatchUp
  split
  · rename_i hpast
    refine .rests ⟨hsame.1, hsame.2, hsame.3, hsame.4, hsame.5⟩ h.asked rfl ?_
    intro since hsince
    left
    cases h with
    | waits _ _ hkept =>
      simp only [catchUpDeadline, hkept, hsince, hsame.timing] at hpast
      simpa using hpast
    | quits _ _ hnone => simp [catchUpDeadline, hnone] at hpast
  · exact .abides h

theorem bears_tick (n : Node) : Bears .tick n n.tick :=
  bears_tickCatchUp ((((abides_tickHeartbeat _ n).trans (abides_tickElection _ _)).trans
    (abides_tickVote _ _)).trans (abides_tickRound _ _))

theorem bears_run {move : Move} (hw : n.Waiting) (hself : n.standing.self = n.id)
    (he : ¬ move.Echoes n.id) : Bears move n (move.run n) := by
  cases move with
  | event e => exact bears_handle hw hself he
  | tick => exact bears_tick n

end Node
end Accord
