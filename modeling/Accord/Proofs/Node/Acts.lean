import Accord.Proofs.Node.Write

/-! # What a node does to its store

A node uses its store by a few operations, one after another. `Node.acts` lists them for every event
together with why the node does them, and `Custody.Step` says once what each of them means for the
entries that the node keeps for a vote: the one it appended as a peer and the one of its own round.
Every handler is shown to be made of such steps, so the store after an event is the store before it
after the acts of the event. -/
namespace Accord

/-- One use of a store, and why. -/
inductive Act where
  /-- A command is appended that another node has put to the vote. -/
  | vote (command : Command) (time : Instant)
  /-- A command is appended that the node itself puts to the vote. -/
  | propose (command : Command) (time : Instant)
  /-- An entry of another log is appended. -/
  | adopt (e : Entry)
  /-- The entry of an id is replayed. -/
  | replay (id : Nat)
  /-- The entry of an id is taken out if it is the last one. -/
  | remove (id : Nat)
  /-- The query of a read is executed. -/
  | query (command : Command)
  /-- The store comes into reach or gets out of it. -/
  | reach (available : Bool)

def Act.run (s : Store) : Act → Store
  | .vote command time => (s.append command time).2
  | .propose command time => (s.append command time).2
  | .adopt e => (s.adopt e).2
  | .replay id => (s.apply id).2
  | .remove id => (s.truncate id).2
  | .query command => (s.execute command.query command.bound).2
  | .reach available => { s with available }

/-- The store after some acts. -/
def Store.afterAll (s : Store) (acts : List Act) : Store := acts.foldl Act.run s

theorem Store.afterAll_append (s : Store) (acts more : List Act) :
    s.afterAll (acts ++ more) = (s.afterAll acts).afterAll more := List.foldl_append

namespace Store

variable {s : Store}

/-- An act leaves the log as it is, appends the next entry, or takes out the last one. -/
theorem Own.run (h : s.Own) (a : Act) : (a.run s).Own ∧
    ∀ e ∈ s.log, a ≠ .remove e.id → e ∈ (a.run s).log := by
  have happend (e : Entry) (he : e.id = s.log.length + 1) :
      Own { s with log := s.log ++ [e] } ∧ ∀ x ∈ s.log, x ∈ s.log ++ [e] :=
    ⟨⟨h.alone, Log.numbered_concat.mpr ⟨h.numbered, he⟩⟩, fun x hx => List.mem_append_left _ hx⟩
  have hcommand (command : Command) (time : Instant) : (s.append command time).2.Own ∧
      ∀ e ∈ s.log, e ∈ (s.append command time).2.log := by
    rcases h.append command time with he | he
    · rw [he]
      exact happend _ rfl
    · rw [he]
      exact ⟨h, fun e he => he⟩
  cases a with
  | vote command time => exact ⟨(hcommand _ _).1, fun e he _ => (hcommand _ _).2 e he⟩
  | propose command time => exact ⟨(hcommand _ _).1, fun e he _ => (hcommand _ _).2 e he⟩
  | adopt e =>
    rcases h.adopt e with ⟨he, ha⟩ | ⟨failure, ha⟩
    · rw [Act.run, ha]
      exact ⟨(happend e he).1, fun x hx _ => (happend e he).2 x hx⟩
    · rw [Act.run, ha]
      exact ⟨h, fun e he _ => he⟩
  | replay id =>
    rw [Act.run, apply_tables]
    exact ⟨⟨h.alone, h.numbered⟩, fun e he _ => he⟩
  | remove id =>
    rw [Act.run]
    rcases truncate_log id s with ht | ht
    · rw [ht]
      exact ⟨h, fun e he _ => he⟩
    · rw [ht]
      refine ⟨⟨h.alone, h.numbered.truncate id⟩, ?_⟩
      intro e he hne
      exact Log.mem_truncate he fun hid => hne (by rw [hid])
  | query command =>
    rw [Act.run, execute_tables]
    exact ⟨⟨h.alone, h.numbered⟩, fun e he _ => he⟩
  | reach available => exact ⟨⟨h.alone, h.numbered⟩, fun e he _ => he⟩

theorem Own.afterAll (h : s.Own) (acts : List Act) : (s.afterAll acts).Own := by
  induction acts generalizing s with
  | nil => exact h
  | cons a rest ih => exact ih (h.run a).1

/-- An entry stays in the log until it is taken out. -/
theorem Own.mem_afterAll (h : s.Own) {acts : List Act} {e : Entry} (he : e ∈ s.log)
    (ha : .remove e.id ∉ acts) : e ∈ (s.afterAll acts).log := by
  induction acts generalizing s with
  | nil => exact he
  | cons a rest ih =>
    rw [List.mem_cons, not_or] at ha
    exact ih (h.run a).1 ((h.run a).2 e he (Ne.symm ha.1)) ha.2

theorem Own.available_run (h : s.Own) {a : Act} (ha : ∀ available, a ≠ .reach available) :
    (a.run s).available = s.available := by
  have hcommand (command : Command) (time : Instant) :
      (s.append command time).2.available = s.available := by
    rcases h.append command time with he | he
    · rw [he]
    · rw [he]
  cases a with
  | vote command time => exact hcommand command time
  | propose command time => exact hcommand command time
  | adopt e =>
    rcases h.adopt e with ⟨_, he⟩ | ⟨_, he⟩
    · rw [Act.run, he]
    · rw [Act.run, he]
  | replay id => rw [Act.run, apply_tables]
  | remove id =>
    rcases truncate_log id s with ht | ht
    · rw [Act.run, ht]
    · rw [Act.run, ht]
  | query command => rw [Act.run, execute_tables]
  | reach available => exact absurd rfl (ha available)

theorem Ready.afterAll (h : s.Ready) {acts : List Act}
    (ha : ∀ available, .reach available ∉ acts) : (s.afterAll acts).Ready := by
  induction acts generalizing s with
  | nil => exact h
  | cons a rest ih =>
    have hown : s.Own := ⟨h.alone, h.numbered⟩
    have hrun := (hown.run a).1
    have hreach : ∀ available, a ≠ .reach available := by
      rintro available rfl
      exact ha available (by simp)
    refine ih (hrun.ready ((hown.available_run hreach).trans h.available)) ?_
    intro available hmem
    exact ha available (by simp [hmem])

end Store

/-! ## Acts of events -/

namespace Node

def enactActs (logId : Nat) (n : Node) : List Act :=
  match (n.store.apply logId).1 with
  | .ok _ => [.replay logId]
  | .error _ => [.replay logId, .remove logId]

/-- The acts by which the round in flight ends. -/
def endActs (failure : Option ReplyError) (n : Node) : List Act :=
  match n.round.bind fun r => r.logId.map fun logId => (r, logId) with
  | none => []
  | some (r, logId) =>
    match failure, r.op.method with
    | some _, _ => [.remove logId]
    | none, .post => n.enactActs logId
    | none, .get => []

def decideActs (n : Node) : List Act :=
  match n.round.bind (decision · n) with
  | some true => n.endActs none
  | some false => n.endActs (some .outvoted)
  | none => []

def openActs (op : Operation) (n : Node) : List Act :=
  if n.isCutOff then []
  else
    match op.method with
    | .get => [.query op.command]
    | .post => [.propose op.command n.clock.today]

def drainActs : List Operation → Node → List Act
  | [], _ => []
  | op :: rest, n =>
    if n.round.isNone && n.leads then
      n.openActs op ++ ((n.openRound op).decideActs ++ drainActs rest (n.openRound op).decideRound)
    else []

/-- The acts of a node that decides its round and goes on with its queue. -/
def proceedActs (n : Node) : List Act :=
  n.decideActs ++ drainActs n.decideRound.queue n.decideRound

/-- The acts of a node that gives up its operations for another leader. -/
def turnActs (leader : MemberId) (n : Node) : List Act :=
  if n.leads then n.endActs (some (.notLeading (some leader))) else []

def insertActs : List Entry → Store → List Act
  | [], _ => []
  | e :: rest, s =>
    match (s.adopt e).1 with
    | .error _ => [.adopt e]
    | .ok _ => [.adopt e, .replay e.id] ++ insertActs rest (s.afterAll [.adopt e, .replay e.id])

def batchActs (entries : List Entry) (s : Store) : List Act :=
  match s.lastId with
  | .error _ => []
  | .ok own => insertActs ((entries.mergeSort fun a b => a.id ≤ b.id).filter fun e => own < e.id) s

def messageActs (sender : MemberId) (m : Message) (n : Node) : List Act :=
  match m with
  | .announcement leader => if leader = n.id then [] else n.turnActs leader
  | .heartbeat leader logId =>
    match n.standing.leader with
    | none => []
    | some current =>
      if current = leader then []
      else if current = n.id && n.givesWay leader logId then n.turnActs leader else []
  | .batch _ entries => batchActs entries n.store
  | .roundRequest .get command _ => [.query command]
  | .roundRequest .post command _ => [.vote command n.clock.today]
  | .roundAnswer digest round =>
    match n.round with
    | none => []
    | some r =>
      if round.any (· != r.number) || r.tally.hasAnswered sender then []
      else proceedActs { n with round := some { r with tally := r.tally.record sender digest } }
  | .applyEntry logId => [.replay logId]
  | .deleteEntry logId => if n.provisional = some logId then [.remove logId] else []
  | _ => []

/-- The acts of a node that handles an event. -/
def acts (event : Event) (n : Node) : List Act :=
  match event with
  | .frame sender text =>
    match Message.ofText text with
    | .ok m => n.messageActs sender m
    | .error _ => []
  | .connected _ => []
  | .disconnected peer =>
    (if n.standing.leader = some peer then n.loseLeader else n).decideElection.proceedActs
  | .client op =>
    if n.leads then drainActs (n.queue ++ [op]) { n with queue := n.queue ++ [op] } else []
  | .campaign => []

/-- The acts of a node whose round may be due. -/
def dueActs (now : Moment) (n : Node) : List Act :=
  if (n.round.map (·.deadline)).any (· ≤ now) then
    n.endActs (some .timeout) ++
      drainActs (n.endRound (some .timeout)).queue (n.endRound (some .timeout))
  else []

/-- The acts of a node that does what is due at a moment. -/
def tickActs (now : Moment) (n : Node) : List Act :=
  (((n.tickHeartbeat now).tickElection now).tickVote now).dueActs now

end Node

/-! ## Steps -/

/-- A store and the entries that a node keeps there for a vote: the one that it appended for another
node, and the one of its own round. -/
structure Custody where
  store : Store
  provisional : Option Nat
  proposed : Option Nat

namespace Custody

/-- What becomes of the entries that are kept for a vote by some acts. -/
inductive Step (c : Custody) : List Act → Custody → Prop
  | forget : Step c [] { c with provisional := none }
  | leave : Step c [] { c with proposed := none }
  | query (command : Command) :
      Step c [.query command] { c with store := c.store.afterAll [.query command] }
  | propose (command : Command) (time : Instant) (h : c.proposed = none) :
      Step c [.propose command time] { c with
        store := c.store.afterAll [.propose command time]
        proposed := (c.store.append command time).1.toOption }
  | vote (command : Command) (time : Instant) :
      Step c [.vote command time] { c with
        store := c.store.afterAll [.vote command time]
        provisional := (c.store.append command time).1.toOption.or c.provisional }
  | decline {e : Entry} {failure : StoreError} (h : (c.store.adopt e).1 = .error failure) :
      Step c [.adopt e] { c with store := c.store.afterAll [.adopt e] }
  | accept {e : Entry} {id : Nat} (h : (c.store.adopt e).1 = .ok id) :
      Step c [.adopt e, .replay e.id] { c with store := c.store.afterAll [.adopt e, .replay e.id] }
  | apply (id : Nat) :
      Step c [.replay id] { c with
        store := c.store.afterAll [.replay id]
        provisional := if c.provisional = some id then none else c.provisional }
  | enact {id : Nat} (h : c.proposed = some id) :
      Step c [.replay id] { c with store := c.store.afterAll [.replay id] }
  | retract {id : Nat} (h : c.proposed = some id) :
      Step c [.remove id] { c with store := c.store.afterAll [.remove id], proposed := none }
  | delete {id : Nat} (h : c.provisional = some id) :
      Step c [.remove id] { c with store := c.store.afterAll [.remove id], provisional := none }

/-- Any number of steps. -/
inductive Steps : Custody → List Act → Custody → Prop
  | refl (c : Custody) : Steps c [] c
  | step {c d e : Custody} {acts more : List Act} (h : Step c acts d) (hs : Steps d more e) :
      Steps c (acts ++ more) e

variable {c d e : Custody} {acts more : List Act}

theorem Step.single (h : Step c acts d) : Steps c acts d := by
  have hs := Steps.step h (.refl d)
  rwa [List.append_nil] at hs

theorem Steps.trans (h : Steps c acts d) (h' : Steps d more e) : Steps c (acts ++ more) e := by
  induction h with
  | refl => exact h'
  | step hd _ ih =>
    rw [List.append_assoc]
    exact .step hd (ih h')

theorem Step.store (h : Step c acts d) : d.store = c.store.afterAll acts := by
  cases h <;> rfl

theorem Steps.store (h : Steps c acts d) : d.store = c.store.afterAll acts := by
  induction h with
  | refl => rfl
  | step hd _ ih => rw [ih, hd.store, Store.afterAll_append]

theorem Steps.not_reach (h : Steps c acts d) (available : Bool) : .reach available ∉ acts := by
  induction h with
  | refl => simp
  | step hd _ ih =>
    rw [List.mem_append, not_or]
    refine ⟨?_, ih⟩
    cases hd <;> simp

/-- A store in reach stays so. -/
theorem Steps.ready (h : Steps c acts d) (hr : c.store.Ready) : d.store.Ready := by
  rw [h.store]
  exact hr.afterAll h.not_reach

end Custody

/-! ## Handlers are made of steps -/

namespace Node

open Custody (Step Steps)

def custody (n : Node) : Custody := ⟨n.store, n.provisional, n.round.bind (·.logId)⟩

theorem steps_endRound (failure : Option ReplyError) (n : Node) :
    Steps n.custody (n.endActs failure) (n.endRound failure).custody := by
  cases hr : n.round with
  | none =>
    rw [endRound_of_none hr, endActs, hr]
    exact .refl _
  | some r =>
    have hc : n.custody = ⟨n.store, n.provisional, r.logId⟩ := by rw [custody, hr]; rfl
    have hproposed {logId : Nat} (hl : r.logId = some logId) : n.custody.proposed = some logId := by
      rw [hc]
      exact hl
    have hnone (hl : r.logId = none) : n.custody = ⟨n.store, n.provisional, none⟩ := by rw [hc, hl]
    cases failure with
    | some e =>
      have hd := dropped hr e
      generalize n.endRound (some e) = m at hd
      cases hd with
      | read hl =>
        simp only [endActs, hr, hl, hnone hl, Option.bind_some, Option.map_none]
        exact .refl _
      | write hl =>
        simp only [endActs, hr, hl, Option.bind_some, Option.map_some]
        exact (Step.retract (hproposed hl)).single
    | none =>
      have hd := carried hr
      generalize n.endRound none = m at hd
      cases hd with
      | read hm =>
        have hacts : n.endActs none = [] := by
          simp only [endActs, hr, Option.bind_some]
          cases r.logId with
          | none => rfl
          | some logId => simp only [Option.map_some, hm]
        rw [hacts]
        exact Step.leave.single
      | void hm hl =>
        simp only [endActs, hr, hl, hnone hl, Option.bind_some, Option.map_none]
        exact .refl _
      | write hm hl ha =>
        simp only [endActs, hr, hl, Option.bind_some, Option.map_some, hm, enactActs, ha]
        exact (Step.enact (hproposed hl)).single.trans Step.leave.single
      | @unwritten logId _ hm hl ha =>
        simp only [endActs, hr, hl, Option.bind_some, Option.map_some, hm, enactActs, ha]
        exact (Step.enact (hproposed hl)).single.trans (Step.retract
          (c := { n.custody with store := n.store.afterAll [.replay logId] }) (hproposed hl)).single

theorem steps_decideRound (n : Node) : Steps n.custody n.decideActs n.decideRound.custody := by
  rw [decideRound, decideActs]
  cases n.round.bind (decision · n) with
  | none => exact .refl _
  | some agreed =>
    cases agreed with
    | true => exact steps_endRound none n
    | false => exact steps_endRound _ n

theorem steps_openRound (op : Operation) {n : Node} (hr : n.round = none) :
    Steps n.custody (n.openActs op) (n.openRound op).custody := by
  have hc : n.custody = ⟨n.store, n.provisional, none⟩ := by rw [custody, hr]; rfl
  have ho := opened op n
  generalize n.openRound op = m at ho
  rw [hc]
  cases ho with
  | cutOff h =>
    rw [openActs, if_pos h, ← hc]
    exact .refl _
  | read h hm =>
    simp only [openActs, h, hm, Bool.false_eq_true, if_false]
    exact (Step.query op.command).single
  | unwritten h hm ha =>
    simp only [openActs, h, hm, Bool.false_eq_true, if_false]
    have hs := (Step.propose (c := ⟨n.store, n.provisional, none⟩) op.command n.clock.today rfl).single
    have hfail : (n.store.append op.command n.clock.today).1 = .error _ := ha
    simp only [hfail, Except.toOption] at hs
    show Steps _ _ ⟨_, _, n.round.bind (·.logId)⟩
    rw [hr]
    exact hs
  | write h hm ha =>
    simp only [openActs, h, hm, Bool.false_eq_true, if_false]
    have hs := (Step.propose (c := ⟨n.store, n.provisional, none⟩) op.command n.clock.today rfl).single
    have hok : (n.store.append op.command n.clock.today).1 = .ok _ := ha
    simp only [hok, Except.toOption] at hs
    exact hs

theorem steps_drainQueue (ops : List Operation) (n : Node) :
    Steps n.custody (drainActs ops n) (drainQueue ops n).custody := by
  induction ops generalizing n with
  | nil => exact .refl _
  | cons op rest ih =>
    rw [drainQueue, drainActs]
    split
    · rename_i h
      simp only [Bool.and_eq_true, Option.isNone_iff_eq_none] at h
      exact (steps_openRound op h.1).trans ((steps_decideRound _).trans (ih _))
    · exact .refl _

theorem steps_proceed (n : Node) : Steps n.custody n.proceedActs n.decideRound.proceed.custody :=
  (steps_decideRound n).trans (steps_drainQueue _ _)

/-! Elections leave the store as it is; a node that is elected forgets its provisional entry. -/

theorem custody_search (n : Node) : n.search.custody = n.custody := by
  unfold search
  obtain ⟨pick, dice⟩ := n.dice.roll
  rfl

theorem custody_loseLeader (n : Node) : n.loseLeader.custody = n.custody := by
  unfold loseLeader seek
  obtain ⟨pick, dice⟩ := n.dice.roll
  rfl

theorem steps_promote (n : Node) : Steps n.custody [] n.promote.custody := Step.forget.single

theorem steps_stand (n : Node) : Steps n.custody [] n.stand.custody := by
  have ha : Steps n.custody [] n.askForVotes.custody := by
    unfold askForVotes
    split
    · split
      · exact steps_promote n
      · exact .refl _
    · split <;> exact .refl _
  simp only [stand]
  split
  · rw [custody_search]
    exact ha
  · exact ha

theorem steps_decideElection (n : Node) : Steps n.custody [] n.decideElection.custody := by
  simp only [decideElection]
  split
  · exact .refl _
  · split
    · exact steps_promote _
    · exact .refl _

theorem foldl_answer_custody (ops : List Operation) (e : ReplyError) (n : Node) :
    (ops.foldl (fun n op => n.answer op (.error e)) n).custody = n.custody := by
  induction ops generalizing n with
  | nil => rfl
  | cons op rest ih => exact ih (n.answer op (.error e))

theorem steps_turnTo (leader : MemberId) (n : Node) :
    Steps n.custody (n.turnActs leader) (n.turnTo leader).custody := by
  show Steps _ _ (if n.leads then n.failAll (.notLeading (some leader)) else n).custody
  rw [turnActs]
  split
  · rw [failAll, foldl_answer_custody]
    exact steps_endRound _ n
  · exact .refl _

theorem custody_catchUp (leader : MemberId) (logId : Int) (n : Node) :
    (n.catchUp leader logId).custody = n.custody := by
  unfold catchUp
  split
  · rfl
  · simp only
    split
    · rfl
    · split <;> rfl

theorem insertEntries_accept {e : Entry} {id : Nat} {s : Store} (h : (s.adopt e).1 = .ok id)
    (rest : List Entry) : (insertEntries (e :: rest) s).2 =
      (insertEntries rest (s.afterAll [.adopt e, .replay e.id])).2 := by
  show _ = (insertEntries rest ((s.adopt e).2.apply e.id).2).2
  rw [insertEntries, show s.adopt e = (.ok id, (s.adopt e).2) from Prod.ext h rfl]
  dsimp only
  cases insertEntries rest ((s.adopt e).2.apply e.id).2 with
  | mk result s => cases result <;> rfl

theorem insertEntries_decline {e : Entry} {failure : StoreError} {s : Store}
    (h : (s.adopt e).1 = .error failure) (rest : List Entry) :
    (insertEntries (e :: rest) s).2 = s.afterAll [.adopt e] := by
  rw [insertEntries, show s.adopt e = (.error failure, (s.adopt e).2) from Prod.ext h rfl]
  rfl

theorem steps_insertEntries (entries : List Entry) (c : Custody) :
    Steps c (insertActs entries c.store)
      { c with store := (insertEntries entries c.store).2 } := by
  induction entries generalizing c with
  | nil => exact .refl c
  | cons e rest ih =>
    rw [insertActs]
    cases ha : (c.store.adopt e).1 with
    | error failure =>
      rw [insertEntries_decline ha]
      exact (Step.decline ha).single
    | ok id =>
      rw [insertEntries_accept ha]
      exact .step (.accept ha) (ih _)

theorem steps_insertMissing (entries : List Entry) (c : Custody) :
    Steps c (batchActs entries c.store)
      { c with store := (insertMissing entries c.store).2 } := by
  rw [batchActs, insertMissing]
  cases c.store.lastId with
  | error failure => exact .refl c
  | ok own => exact steps_insertEntries _ c

theorem steps_roundOutcome (method : Method) (command : Command) (round : Option Nat)
    (sender : MemberId) (n : Node) :
    Steps n.custody (n.messageActs sender (.roundRequest method command round))
      (n.roundOutcome method command).2.custody := by
  cases method with
  | get => exact (Step.query command).single
  | post =>
    have hs := (Step.vote (c := n.custody) command n.clock.today).single
    simp only [roundOutcome, appendCommand, useStore]
    cases ha : (n.store.append command n.clock.today).1 with
    | error failure =>
      rw [show (n.custody.store.append command n.clock.today).1 = .error failure from ha] at hs
      exact hs
    | ok logId =>
      rw [show (n.custody.store.append command n.clock.today).1 = .ok logId from ha] at hs
      exact hs

theorem steps_onHeartbeat (sender leader : MemberId) (logId : Int) (n : Node) :
    Steps n.custody (n.messageActs sender (.heartbeat leader logId))
      (n.onHeartbeat leader logId).custody := by
  simp only [messageActs, onHeartbeat]
  cases n.standing.leader with
  | none =>
    rw [custody_catchUp]
    exact .refl _
  | some current =>
    dsimp only
    split
    · rw [custody_catchUp]
      exact .refl _
    · by_cases hc : current = n.id
      · rw [if_pos hc, decide_eq_true hc, Bool.true_and]
        split
        · rw [custody_catchUp]
          exact steps_turnTo leader n
        · exact .refl _
      · rw [if_neg hc, decide_eq_false hc, Bool.false_and, if_neg Bool.false_ne_true]
        exact .refl _

theorem steps_onMessage (sender : MemberId) (m : Message) (n : Node) :
    Steps n.custody (n.messageActs sender m) (n.onMessage sender m).custody := by
  cases m with
  | hello node => exact .refl _
  | voteRequest candidate logId round =>
    simp only [onMessage, onVoteRequest]
    split <;> exact .refl _
  | vote voter accept round =>
    simp only [onMessage, onVote]
    split
    · exact steps_decideElection { n with ballot := n.ballot.record voter accept }
    · exact .refl _
  | announcement leader =>
    simp only [messageActs, onMessage, onAnnouncement]
    split
    · exact .refl _
    · exact steps_turnTo leader n
  | heartbeat leader logId => exact steps_onHeartbeat sender leader logId n
  | entriesRequest follower logId =>
    simp only [onMessage, onEntriesRequest]
    split
    · split <;> exact .refl _
    · exact .refl _
  | batch leader entries => exact steps_insertMissing entries n.custody
  | roundRequest method command round => exact steps_roundOutcome method command round sender n
  | roundAnswer digest round =>
    simp only [messageActs, onMessage, onRoundAnswer]
    cases hr : n.round with
    | none => exact .refl _
    | some r =>
      dsimp only
      split
      · exact .refl _
      · have hs := steps_proceed
          { n with round := some { r with tally := r.tally.record sender digest } }
        have hc : n.custody = custody
            { n with round := some { r with tally := r.tally.record sender digest } } := by
          rw [custody, hr]
          rfl
        rwa [← hc] at hs
  | applyEntry logId => exact (Step.apply logId).single
  | deleteEntry logId =>
    simp only [messageActs, onMessage, onDeleteEntry]
    split
    · rename_i hp
      exact (Step.delete (c := n.custody) hp).single
    · exact .refl _

/-- What handling an event does to the store and to the entries kept for a vote. -/
theorem steps_handle (event : Event) (n : Node) :
    Steps n.custody (n.acts event) (n.handle event).custody := by
  cases event with
  | frame sender text =>
    simp only [acts, handle, onFrame]
    cases Message.ofText text with
    | ok m => exact steps_onMessage sender m n
    | error e => exact .refl _
  | connected peer =>
    simp only [acts, handle, onConnected]
    split <;> exact .refl _
  | disconnected peer =>
    have hl : (if n.standing.leader = some peer then n.loseLeader else n).custody = n.custody := by
      split
      · exact custody_loseLeader n
      · rfl
    have hs := steps_decideElection (if n.standing.leader = some peer then n.loseLeader else n)
    rw [hl] at hs
    exact hs.trans (steps_proceed _)
  | client op =>
    simp only [acts, handle, submit]
    split
    · exact steps_drainQueue (n.queue ++ [op]) { n with queue := n.queue ++ [op] }
    · exact .refl _
  | campaign => exact steps_stand n

theorem custody_tickHeartbeat (now : Moment) (n : Node) :
    (n.tickHeartbeat now).custody = n.custody := by
  simp only [tickHeartbeat]
  split
  · split <;> rfl
  · rfl

theorem steps_tickElection (now : Moment) (n : Node) :
    Steps n.custody [] (n.tickElection now).custody := by
  simp only [tickElection]
  split
  · split
    · exact steps_stand { n with standing := { n.standing with election := .idle } }
    · exact .refl _
  · exact .refl _

theorem steps_tickVote (now : Moment) (n : Node) :
    Steps n.custody [] (n.tickVote now).custody := by
  simp only [tickVote]
  split
  · split
    · exact .refl _
    · rw [custody_loseLeader]
      exact .refl _
    · exact steps_stand { n with standing := { n.standing with vote := .idle } }
  · exact .refl _

theorem steps_tickRound (now : Moment) (n : Node) :
    Steps n.custody (n.dueActs now) (n.tickRound now).custody := by
  rw [tickRound, dueActs]
  split
  · exact (steps_endRound _ n).trans (steps_drainQueue _ _)
  · exact .refl _

theorem custody_tickCatchUp (now : Moment) (n : Node) :
    (n.tickCatchUp now).custody = n.custody := by
  unfold tickCatchUp
  split <;> rfl

/-- What a node does to its store when time passes: only its round can be due there. -/
theorem steps_tickAt (now : Moment) (n : Node) :
    Steps n.custody (n.tickActs now) (n.tickAt now).custody := by
  have hfirst := (steps_tickElection now (n.tickHeartbeat now)).trans (steps_tickVote now _)
  rw [custody_tickHeartbeat] at hfirst
  rw [tickAt, custody_tickCatchUp]
  exact hfirst.trans (steps_tickRound now _)

end Node
end Accord
