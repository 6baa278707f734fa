import Accord.Message.Codec
import Accord.Node.Heartbeat

/-! # Events

What can happen to a node, and what it does when time passes. -/
namespace Accord

inductive Event where
  /-- A line from the connection to a peer. -/
  | frame (sender : MemberId) (text : String)
  | connected (peer : MemberId)
  | disconnected (peer : MemberId)
  | client (op : Operation)
  | campaign

namespace Node

/-- A greeting has no meaning on an open connection. -/
def onMessage (sender : MemberId) (message : Message) (n : Node) : Node :=
  match message with
  | .hello _ => n
  | .voteRequest candidate logId round => n.onVoteRequest candidate logId round
  | .vote voter accept round => n.onVote voter accept round
  | .announcement leader => n.onAnnouncement leader
  | .heartbeat leader logId => n.onHeartbeat leader logId
  | .entriesRequest follower logId => n.onEntriesRequest follower logId
  | .batch _ entries => n.onBatch entries
  | .roundRequest method command round => n.onRoundRequest sender method command round
  | .roundAnswer digest round => n.onRoundAnswer sender digest round
  | .applyEntry logId => n.onApplyEntry logId
  | .deleteEntry logId => n.onDeleteEntry logId

/-- A line that is no message is dropped. -/
def onFrame (sender : MemberId) (text : String) (n : Node) : Node :=
  match Message.ofText text with
  | .ok message => n.onMessage sender message
  | .error _ => n

/-- With one peer less, an election or a round may be decided. -/
def onDisconnected (peer : MemberId) (n : Node) : Node :=
  let n := if n.standing.leader = some peer then n.loseLeader else n
  n.decideElection.decideRound.proceed

def handle (event : Event) (n : Node) : Node :=
  match event with
  | .frame sender text => n.onFrame sender text
  | .connected peer => n.onConnected peer
  | .disconnected peer => n.onDisconnected peer
  | .client op => n.submit op
  | .campaign => n.stand

/-! ## Time -/

/-- When the outstanding request for entries is given up. -/
def catchUpDeadline (n : Node) : Option Moment :=
  n.requestedAt.map (· + n.timing.vote.nanos)

/-- The earliest moment at which the node has something to do. -/
def nextDue (n : Node) : Option Moment :=
  [n.standing.election.deadline, n.standing.vote.deadline, n.standing.heartbeat.deadline,
    n.round.map (·.deadline), n.catchUpDeadline].reduceOption.min?

/-! The moment that a node is given to do what is due may differ from the reading of its clock, by
which it sets its timers again. -/

def tickHeartbeat (now : Moment) (n : Node) : Node :=
  if n.standing.heartbeat.hasRunOut now then
    let n := { n with standing := { n.standing with heartbeat := .idle } }
    if n.leads then n.giveSign else n
  else n

def tickElection (now : Moment) (n : Node) : Node :=
  if n.standing.election.hasRunOut now then
    let n := { n with standing := { n.standing with election := .idle } }
    if n.role = .leaderless then n.stand else n
  else n

/-- A follower that had no sign of its leader presumes it lost; a node without a leader stands for
election. -/
def tickVote (now : Moment) (n : Node) : Node :=
  if n.standing.vote.hasRunOut now then
    let n := { n with standing := { n.standing with vote := .idle } }
    match n.role with
    | .leader => n
    | .follower => n.loseLeader
    | .leaderless => n.stand
  else n

def tickRound (now : Moment) (n : Node) : Node :=
  if (n.round.map (·.deadline)).any (· ≤ now) then n.timeOutRound else n

def tickCatchUp (now : Moment) (n : Node) : Node :=
  if n.catchUpDeadline.any (· ≤ now) then { n with requestedAt := none } else n

/-- Does all that is due at a moment. -/
def tickAt (now : Moment) (n : Node) : Node :=
  ((((n.tickHeartbeat now).tickElection now).tickVote now).tickRound now).tickCatchUp now

/-- Does all that is due at the time of the clock. -/
def tick (n : Node) : Node := n.tickAt n.clock.now

/-- Stops all timers, fails all operations and drops all connections. -/
def shutdown (n : Node) : Node :=
  let pending := (n.round.map (·.op)).toList ++ n.queue
  let n := { n with standing := n.standing.stop, round := none, queue := [] }
  let n := pending.foldl (fun n op => n.answer op (.error .shutdown)) n
  { n with directory := n.directory.clear }

end Node
end Accord
