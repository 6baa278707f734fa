import Accord.Node.Round

/-! # Elections

A candidate asks all connected peers for their votes. Once all of them have voted, it leads if more
than half of them accepted and it has not come to know another leader meanwhile. -/
namespace Accord.Node

/-- Takes the lead and announces it. -/
def promote (n : Node) : Node :=
  broadcast (.announcement n.id)
    { n with
      standing := n.standing.lead n.timing n.clock.now
      requestedAt := none
      provisional := none }

/-- Asks for votes. Without any peer there is an election only in a cluster of one, and it is won
at once; a node that cannot read its log does not stand. -/
def askForVotes (n : Node) : Node :=
  if n.directory.count = 0 then if n.topology.size = 1 then n.promote else n
  else
    match n.lastId with
    | .error _ => n
    | .ok logId =>
      let ballot := n.ballot.begin
      { n with ballot }.broadcast (.voteRequest n.id logId (some ballot.round))

/-- Stands for election, and waits again if that did not settle it. -/
def stand (n : Node) : Node :=
  let n := n.askForVotes
  if n.role = .leaderless then n.search else n

/-- Votes, unless the own log cannot be read. -/
def onVoteRequest (candidate : MemberId) (logId : Nat) (round : Option Nat) (n : Node) : Node :=
  match n.lastId with
  | .error _ => n
  | .ok own => n.send candidate (.vote n.id (Ballot.grants own logId) round)

/-- Decides the election once all connected peers have voted. -/
def decideElection (n : Node) : Node :=
  let peers := n.directory.count
  if n.ballot.resolved || n.ballot.isEmpty || n.ballot.size < peers then n
  else
    let n := { n with ballot := { n.ballot with resolved := true } }
    if Ballot.isMajority n.ballot.accepted peers && n.standing.leader.isNone then n.promote else n

def onVote (voter : MemberId) (accept : Bool) (round : Option Nat) (n : Node) : Node :=
  if n.ballot.concerns round then
    { n with ballot := n.ballot.record voter accept }.decideElection
  else n

/-- Follows a leader; a node that leads gives up its operations first. -/
def turnTo (leader : MemberId) (n : Node) : Node :=
  let n := if n.leads then n.failAll (.notLeading (some leader)) else n
  { n with standing := n.standing.follow leader n.timing n.clock.now, requestedAt := none }

/-- An announcement of another node is always accepted. -/
def onAnnouncement (leader : MemberId) (n : Node) : Node :=
  if leader = n.id then n else n.turnTo leader

end Accord.Node
