import Accord.Node.Election

/-! # Heartbeats and catching up

A leader tells its peers regularly that it is there and how far its log reaches. A follower whose
log is shorter asks for the entries that it lacks, and asks again only when they have not come for
a while. -/
namespace Accord.Node

/-- The largest log id that a heartbeat can carry. -/
def heartbeatLimit : Nat := Text.signedLimit - 1

/-- How far the log reaches, as heartbeats tell it. -/
def announcedLog (n : Node) : Int :=
  match n.lastId with
  | .ok logId => min logId heartbeatLimit
  | .error _ => -1

def heartbeat (n : Node) : Message := .heartbeat n.id n.announcedLog

/-- Gives all peers a sign and waits for the next period. -/
def giveSign (n : Node) : Node :=
  let n := n.broadcast n.heartbeat
  { n with standing := { n.standing with heartbeat := .arm n.clock.now n.timing.heartbeat } }

/-- Tells a new peer at once who leads. -/
def onConnected (peer : MemberId) (n : Node) : Node :=
  if n.leads then n.send peer n.heartbeat else n

/-- Of two leaders the one with the longer log stays, the higher one if they are equally long. A
leader that cannot read its log gives way. -/
def givesWay (leader : MemberId) (logId : Int) (n : Node) : Bool :=
  match n.lastId with
  | .error _ => true
  | .ok _ => n.announcedLog < logId || (n.announcedLog == logId && n.id < leader)

/-- Whether requested entries may still come. -/
def awaitsEntries (n : Node) : Bool :=
  match n.requestedAt with
  | some since => n.clock.now < since + n.timing.vote.nanos
  | none => false

/-- Asks a leader whose log reaches `logId` for the entries that are missing here. -/
def catchUp (leader : MemberId) (logId : Int) (n : Node) : Node :=
  match n.lastId with
  | .error _ => n
  | .ok own =>
    if logId ≤ own || n.awaitsEntries then n
    else
      let request := Message.entriesRequest n.id own
      if (n.directory.dispatch leader request).isSome then
        { n.send leader request with requestedAt := some n.clock.now }
      else n

def onHeartbeat (leader : MemberId) (logId : Int) (n : Node) : Node :=
  match n.standing.leader with
  | none =>
    catchUp leader logId { n with standing := n.standing.follow leader n.timing n.clock.now }
  | some current =>
    if current = leader then
      catchUp leader logId { n with standing := n.standing.refresh n.timing n.clock.now }
    else if current = n.id then
      if n.givesWay leader logId then (n.turnTo leader).catchUp leader logId else n
    else n

/-- Only a leader hands out entries. -/
def onEntriesRequest (follower : MemberId) (logId : Nat) (n : Node) : Node :=
  if n.leads then
    match n.store.entriesBeyond logId with
    | .error _ => n
    | .ok entries => n.send follower (.batch n.id entries)
  else n

/-- Appends and replays entries in their order and counts them, up to the first one that cannot be
appended. An entry that fails to replay stays. -/
def insertEntries : List Entry → Store → Outcome Nat
  | [], s => (.ok 0, s)
  | e :: rest, s =>
    match s.adopt e with
    | (.error failure, s) => (.error failure, s)
    | (.ok _, s) =>
      match insertEntries rest (s.apply e.id).2 with
      | (.ok count, s) => (.ok (count + 1), s)
      | (.error failure, s) => (.error failure, s)

/-- Takes the entries of a batch that are behind the own log, in the order of their ids. -/
def insertMissing (entries : List Entry) (s : Store) : Outcome Nat :=
  match s.lastId with
  | .error failure => (.error failure, s)
  | .ok own =>
    insertEntries ((entries.mergeSort fun a b => a.id ≤ b.id).filter fun e => own < e.id) s

def onBatch (entries : List Entry) (n : Node) : Node :=
  ({ n with requestedAt := none }.useStore (insertMissing entries)).2

end Accord.Node
