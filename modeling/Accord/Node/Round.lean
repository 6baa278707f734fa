import Accord.Node.Basic

/-! # Rounds

The leader puts every operation of a client to the vote: the peers do the same locally and answer
with the digest of their outcome. Rounds run one at a time, in the order of submission. A write is
appended everywhere before the vote and applied after it; if the vote fails, it is taken out
again. -/
namespace Accord.Node

/-! ## The end of a round -/

/-- Takes the leader's entry out again and asks the peers to do the same. -/
def retract (logId : Nat) (n : Node) : Node :=
  (n.useStore (Store.truncate logId)).2.broadcast (.deleteEntry logId)

/-- Applies an agreed write and asks the peers to do the same. -/
def enact (logId : Nat) (n : Node) : Reply × Node :=
  match n.useStore (Store.apply logId) with
  | (.ok result, n) => (.ok result, n.broadcast (.applyEntry logId))
  | (.error failure, n) => (.error (.storage failure), n.retract logId)

/-- What the client of a successful round is told. -/
def settleRound (r : Round) (n : Node) : Reply × Node :=
  match r.op.method with
  | .get => (r.result.mapError ReplyError.storage, n)
  | .post =>
    match r.logId with
    | some logId => n.enact logId
    | none => (.error .outvoted, n)

/-- Undoes a round that failed. -/
def undoRound (r : Round) (n : Node) : Node :=
  match r.logId with
  | some logId => n.retract logId
  | none => n

/-- Ends the round in flight: successfully if there is no failure. -/
def endRound (failure : Option ReplyError) (n : Node) : Node :=
  match n.round with
  | none => n
  | some r =>
    let n := { n with round := none }
    match failure with
    | none =>
      let (reply, n) := n.settleRound r
      n.answer r.op reply
    | some e => (n.undoRound r).answer r.op (.error e)

/-- What the votes so far decide about a round. With no peer left, only a cluster of one
succeeds. -/
def decision (r : Round) (n : Node) : Option Bool :=
  let peers := n.directory.count
  if peers = 0 then some (n.topology.size == 1) else r.tally.resolve peers r.ownDigest

/-- Ends the round in flight once it is decided. -/
def decideRound (n : Node) : Node :=
  match n.round.bind (decision · n) with
  | some true => n.endRound none
  | some false => n.endRound (some .outvoted)
  | none => n

/-! ## The beginning of a round -/

/-- Puts an operation to the vote, unless the vote cannot succeed or the leader's own append
fails: then nothing is sent and the client is told at once. -/
def openRound (op : Operation) (n : Node) : Node :=
  if n.directory.count = 0 && 1 < n.topology.size then n.answer op (.error .outvoted)
  else
    let number := n.lastRound + 1
    let n := { n with lastRound := number }
    let request := Message.roundRequest op.method op.command (some number)
    let inFlight (result : Except StoreError Json) (logId : Option Nat) (n : Node) : Node :=
      { n with
        round := some ⟨number, op, result, logId, .initial, n.clock.now + n.timing.voting.nanos⟩ }
    match op.method with
    | .get =>
      let (result, n) := (n.broadcast request).execute op.command
      inFlight result none n
    | .post =>
      match n.appendCommand op.command with
      | (.error failure, n) => n.answer op (.error (.storage failure))
      | (.ok logId, n) => inFlight (.ok (.natural logId)) (some logId) (n.broadcast request)

/-- Begins the operations of a list until one of them waits for votes; the rest is queued. -/
def drainQueue : List Operation → Node → Node
  | [], n => { n with queue := [] }
  | op :: rest, n =>
    if n.round.isNone && n.leads then drainQueue rest (n.openRound op).decideRound
    else { n with queue := op :: rest }

def proceed (n : Node) : Node := n.drainQueue n.queue

/-- A client submits an operation; only the leader takes it. -/
def submit (op : Operation) (n : Node) : Node :=
  if n.leads then { n with queue := n.queue ++ [op] }.proceed
  else n.answer op (.error (.notLeading n.standing.leader))

/-- The round in flight has taken too long. -/
def timeOutRound (n : Node) : Node :=
  (n.endRound (some .timeout)).proceed

/-- Fails the round in flight and every operation behind it. -/
def failAll (e : ReplyError) (n : Node) : Node :=
  let n := n.endRound (some e)
  n.queue.foldl (fun n op => n.answer op (.error e)) { n with queue := [] }

/-! ## The peers' side -/

/-- Does locally what the round is about: the outcome, and the node behind it. -/
def roundOutcome (method : Method) (command : Command) (n : Node) :
    Except StoreError Json × Node :=
  match method with
  | .get => n.execute command
  | .post =>
    match n.appendCommand command with
    | (.ok logId, n) => (.ok (.natural logId), { n with provisional := some logId })
    | (.error failure, n) => (.error failure, n)

def onRoundRequest (peer : MemberId) (method : Method) (command : Command) (round : Option Nat)
    (n : Node) : Node :=
  let (result, n) := n.roundOutcome method command
  n.send peer (.roundAnswer (outcomeDigest result) round)

/-- Counts an answer to the round in flight; answers to other rounds and second answers of a peer
do not count. -/
def onRoundAnswer (peer : MemberId) (digest : String) (round : Option Nat) (n : Node) : Node :=
  match n.round with
  | none => n
  | some r =>
    if round.any (· != r.number) || r.tally.hasAnswered peer then n
    else { n with round := some { r with tally := r.tally.record peer digest } }.decideRound.proceed

def onApplyEntry (logId : Nat) (n : Node) : Node :=
  let provisional := if n.provisional = some logId then none else n.provisional
  ({ n with provisional }.useStore (Store.apply logId)).2

/-- Takes out an entry that was appended for a vote and not applied since. -/
def onDeleteEntry (logId : Nat) (n : Node) : Node :=
  if n.provisional = some logId then
    ({ n with provisional := none }.useStore (Store.truncate logId)).2
  else n

end Accord.Node
