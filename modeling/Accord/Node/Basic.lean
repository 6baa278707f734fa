import Accord.Cluster.Topology
import Accord.Directory
import Accord.Reply
import Accord.Standing
import Accord.Store.Basic
import Accord.Tally.Agreement
import Accord.Tally.Ballot

/-! # Nodes

All that a node knows. Its handlers are functions from a node to the node after the event; what it
sends and what it answers is appended to its outbox and its answers, from where it is collected. -/
namespace Accord

/-- A client's operation. -/
structure Operation where
  /-- What the client calls the operation. -/
  number : Nat
  method : Method
  command : Command

/-- What a client is told about its operation. -/
structure Answer where
  op : Nat
  reply : Reply

/-- An operation that the leader has put to the vote. -/
structure Round where
  number : Nat
  op : Operation
  /-- The leader's own outcome: the rows of a read, the log id of a write. -/
  result : Except StoreError Json
  /-- The entry appended to the leader's log for a write. -/
  logId : Option Nat
  tally : Agreement
  deadline : Moment

/-- The digest that the leader compares the answers with. -/
def Round.ownDigest (r : Round) : String :=
  outcomeDigest r.result

/-- What a node reads off its clocks. -/
structure Clock where
  now : Moment
  today : Instant
  deriving DecidableEq, Repr

structure Node where
  topology : Topology
  timing : Timing
  clock : Clock
  dice : Dice
  directory : Directory
  store : Store
  standing : Standing
  ballot : Ballot
  /-- The round in flight. -/
  round : Option Round
  /-- Operations that wait for their round, the next one first. -/
  queue : List Operation
  /-- The number of the latest round. -/
  lastRound : Nat
  /-- The entry appended for a vote that has been neither applied nor deleted yet. -/
  provisional : Option Nat
  /-- When the outstanding request for missing entries was sent. -/
  requestedAt : Option Moment
  /-- What was sent and not collected yet. -/
  outbox : List Delivery
  /-- What was answered and not collected yet. -/
  answers : List Answer

namespace Node

def new (topology : Topology) (timing : Timing) (clock : Clock) (dice : Dice) (store : Store) :
    Node where
  topology
  timing
  clock
  dice
  directory := .empty
  store
  standing := .idle topology.self
  ballot := .initial
  round := none
  queue := []
  lastRound := 0
  provisional := none
  requestedAt := none
  outbox := []
  answers := []

def id (n : Node) : MemberId := n.topology.self

def role (n : Node) : Role := n.standing.role

def leads (n : Node) : Bool := n.standing.leads

/-- The node at another time. -/
def setClock (clock : Clock) (n : Node) : Node := { n with clock }

/-! ## Sending and answering -/

def send (peer : MemberId) (message : Message) (n : Node) : Node :=
  { n with outbox := n.outbox ++ (n.directory.dispatch peer message).toList }

def broadcast (message : Message) (n : Node) : Node :=
  { n with outbox := n.outbox ++ n.directory.broadcast message }

def answer (op : Operation) (reply : Reply) (n : Node) : Node :=
  { n with answers := n.answers ++ [⟨op.number, reply⟩] }

/-- Collects what was sent and answered. -/
def collect (n : Node) : (List Delivery × List Answer) × Node :=
  ((n.outbox, n.answers), { n with outbox := [], answers := [] })

/-! ## Standing -/

/-- Looks for a leader, with a fresh election timeout. -/
def search (n : Node) : Node :=
  let (pick, dice) := n.dice.roll
  { n with
    dice, standing := n.standing.search n.timing n.clock.now (n.timing.electionSpan pick) }

/-- Forgets the leader and looks for a new one. -/
def seek (n : Node) : Node :=
  let (pick, dice) := n.dice.roll
  { n with
    dice, standing := n.standing.seek n.timing n.clock.now (n.timing.electionSpan pick) }

def start (n : Node) : Node := n.seek

/-- The leader is gone. -/
def loseLeader (n : Node) : Node :=
  { n.seek with requestedAt := none }

/-! ## Store -/

def lastId (n : Node) : Except StoreError Nat := n.store.lastId

/-- Runs an operation of the store. -/
def useStore {α : Type} (f : Store → Outcome α) (n : Node) : Except StoreError α × Node :=
  ((f n.store).1, { n with store := (f n.store).2 })

/-- Appends a client's command with the time of day. -/
def appendCommand (command : Command) (n : Node) : Except StoreError Nat × Node :=
  n.useStore (Store.append command n.clock.today)

def execute (command : Command) (n : Node) : Except StoreError Json × Node :=
  n.useStore (Store.execute command.query command.bound)

end Node

/-! ## Status -/

/-- A view of a node for its operator. -/
structure Status where
  node : MemberId
  role : Role
  leader : Option MemberId
  peers : List MemberId
  /-- None when the log cannot be read. -/
  logEnd : Option Nat
  /-- Whether the election timer is armed, and so on for the other two. -/
  election : Bool
  vote : Bool
  heartbeat : Bool
  /-- How many operations wait for their answer. -/
  unanswered : Nat
  deriving DecidableEq, Repr

def Node.status (n : Node) : Status where
  node := n.id
  role := n.role
  leader := n.standing.leader
  peers := n.directory.peers
  logEnd := n.lastId.toOption
  election := n.standing.election.armed
  vote := n.standing.vote.armed
  heartbeat := n.standing.heartbeat.armed
  unanswered := n.queue.length + (if n.round.isSome then 1 else 0)

def Status.fields (s : Status) : List (String × Json) :=
  [("node_id", .natural s.node),
   ("role", .string s.role.word),
   ("leader_id", .ofOption (s.leader.map Json.natural)),
   ("connected_peers", .array (s.peers.map Json.natural)),
   ("latest_log_id", .ofOption (s.logEnd.map Json.natural)),
   ("election_armed", .bool s.election),
   ("vote_armed", .bool s.vote),
   ("heartbeat_armed", .bool s.heartbeat),
   ("pending_operations", .natural s.unanswered)]

def Status.toJson (s : Status) : Json := .object s.fields

end Accord
