import Accord.Cluster.Settings
import Accord.Host.Socket
import Accord.Node.Step

/-! # Hosts

A whole node: its state, its connections and the loop that dials peers. A host accepts connections
from all sides, and in regular rounds it dials the lower members that it has no connection to, one
after another. What its node sends is written to the connection that the directory has for the
peer. When the directory has a newer connection for the peer, the older one is written no more, but
what comes in on it still counts. -/
namespace Accord

inductive Dialer where
  /-- The next round begins then. -/
  | resting (next : Moment)
  /-- Waits for the introduction on a socket, with the peers to dial behind it. -/
  | calling (socket : Nat) (rest : List MemberId) (next : Moment)
  deriving DecidableEq, Repr

/-- When the dialer has something to do by itself. -/
def Dialer.deadline : Dialer → Option Moment
  | .resting next => some next
  | .calling _ _ _ => none

structure Host where
  node : Node
  running : Bool
  /-- The members that take connections; dialing another one fails at once. -/
  listening : List MemberId
  sockets : List (Nat × Socket)
  /-- Connections to peers that they have not taken up yet, the oldest first. -/
  backlog : List (MemberId × Nat)
  dialer : Dialer
  /-- How many operations clients have submitted. -/
  submitted : Nat
  /-- Answers that no client has taken yet. -/
  answers : List Answer

namespace Host

def now (h : Host) : Moment := h.node.clock.now

def socket? (number : Nat) (h : Host) : Option Socket := Keyed.get? number h.sockets

def phase? (number : Nat) (h : Host) : Option Phase := (h.socket? number).map Socket.phase

def setPhase (number : Nat) (phase : Phase) (h : Host) : Host :=
  { h with sockets := Keyed.modify number (fun s => { s with phase }) h.sockets }

/-- Adds a socket and gives its number. -/
def addSocket (s : Socket) (h : Host) : Nat × Host :=
  let number := h.sockets.length + 1
  (number, { h with sockets := Keyed.put number s h.sockets })

/-- Whether the host writes no more to a socket. -/
def isFinished (number : Nat) (h : Host) : Bool :=
  match h.phase? number with
  | some (.greeting _ _) => !h.running
  | some (.opened _ connection) => !h.node.directory.isRecorded connection
  | _ => true

/-! ## The node's part -/

def write (h : Host) (d : Delivery) : Host :=
  { h with
    sockets := h.sockets.map fun entry =>
      if entry.2.connection? = some d.connection then (entry.1, entry.2.write d.message)
      else entry }

/-- Lets the node act, and writes what it sends. -/
def act (f : Node → Node) (h : Host) : Host :=
  let ((deliveries, answers), node) := (f h.node).collect
  deliveries.foldl write { h with node, answers := h.answers ++ answers }

def handle (event : Event) (h : Host) : Host := h.act (Node.handle event)

/-- Submits an operation and gives its number. -/
def submit (method : Method) (command : Command) (h : Host) : Nat × Host :=
  let op : Operation := ⟨h.submitted, method, command⟩
  (h.submitted, { h with submitted := h.submitted + 1 }.handle (.client op))

def answer? (op : Nat) (h : Host) : Option Reply :=
  (h.answers.find? (·.op == op)).map (·.reply)

/-! ## Dialing -/

/-- The peers that a round dials. -/
def targets (h : Host) : List MemberId :=
  h.listening.filter fun peer => h.node.topology.dials peer && !h.node.directory.contains peer

/-- Dials the first of some peers; the others follow when that connection has been introduced or
given up. -/
def dial (next : Moment) (peers : List MemberId) (h : Host) : Host :=
  match peers with
  | [] => { h with dialer := .resting next }
  | peer :: rest =>
    let socket := Socket.start (some peer) (h.now + h.node.timing.handshake.nanos)
    let (number, h) := h.addSocket (socket.write (.hello h.node.id))
    { h with backlog := h.backlog ++ [(peer, number)], dialer := .calling number rest next }

/-- Goes on dialing if the dialer waits for this socket. -/
def resume (number : Nat) (h : Host) : Host :=
  match h.dialer with
  | .calling socket rest next => if socket = number then h.dial next rest else h
  | .resting _ => h

/-! ## The other sides' part -/

/-- A connection comes in; gives its number. -/
def accept (h : Host) : Nat × Host :=
  h.addSocket (.start none (h.now + h.node.timing.handshake.nanos))

/-- Gives a socket up. -/
def drop (number : Nat) (h : Host) : Host :=
  (h.setPhase number .closed).resume number

/-- Gives a socket to the peer that it was introduced by. An incoming one is answered with an
introduction; on a dialed one that was written before. -/
def welcome (number : Nat) (expected : Option MemberId) (peer : MemberId) (h : Host) : Host :=
  let greet (s : Socket) : Socket := if expected.isNone then s.write (.hello h.node.id) else s
  let (connection, directory) := h.node.directory.register peer
  let h := { h with
    node := { h.node with directory }, sockets := Keyed.modify number greet h.sockets }
  ((h.setPhase number (.opened peer connection)).handle (.connected peer)).resume number

/-- Handles one line that came in on a socket. -/
def onLine (number : Nat) (h : Host) (line : String) : Host :=
  match h.phase? number with
  | some (.greeting expected _) =>
    match h.node.topology.introduced? expected line with
    | some peer => h.welcome number expected peer
    | none => h.drop number
  | some (.opened peer _) => h.handle (.frame peer line)
  | _ => h

/-- Bytes come in on a socket. -/
def receive (number : Nat) (bytes : List UInt8) (h : Host) : Host :=
  match h.socket? number with
  | none => h
  | some s =>
    let (lines, s) := s.receive bytes
    lines.foldl (onLine number) { h with sockets := Keyed.put number s h.sockets }

/-- The other side of a socket sends no more. A last line without its end still counts. -/
def endInput (number : Nat) (h : Host) : Host :=
  let rest := ((h.socket? number).map fun s => s.reader.finish).getD []
  let h := rest.foldl (onLine number) h
  match h.phase? number with
  | some (.greeting _ _) => h.drop number
  | some (.opened peer connection) =>
    let (removed, directory) := h.node.directory.remove peer connection
    let h := { h with node := { h.node with directory } }.setPhase number .closed
    if removed then h.handle (.disconnected peer) else h
  | _ => h

/-- The other side takes the oldest line of a socket. -/
def takeLine (number : Nat) (h : Host) : Option Message × Host :=
  match h.socket? number with
  | some ⟨phase, reader, message :: written⟩ =>
    (some message, { h with sockets := Keyed.put number ⟨phase, reader, written⟩ h.sockets })
  | _ => (none, h)

/-- A peer takes up the oldest connection that was made to it. -/
def takeUp (peer : MemberId) (h : Host) : Option Nat × Host :=
  match h.backlog.find? (·.1 == peer) with
  | some entry => (some entry.2, { h with backlog := h.backlog.filter (·.2 != entry.2) })
  | none => (none, h)

/-! ## Time -/

def setTime (now : Moment) (h : Host) : Host :=
  { h with node := h.node.setClock { h.node.clock with now := max h.now now } }

/-- The earliest moment at which the host has something to do. -/
def nextDue (h : Host) : Option Moment :=
  if h.running then
    (h.node.nextDue :: h.dialer.deadline ::
      h.sockets.map (·.2.deadline)).reduceOption.min?
  else none

def tickNode (h : Host) : Host :=
  if h.node.nextDue.any (· ≤ h.now) then h.act Node.tick else h

/-- Gives up the sockets that were not introduced in time. -/
def tickSockets (h : Host) : Host :=
  let late := h.sockets.filter fun entry => entry.2.deadline.any (· ≤ h.now)
  (Keyed.keys late).foldl (fun h number => h.drop number) h

def tickDialer (h : Host) : Host :=
  match h.dialer with
  | .resting next =>
    if next ≤ h.now then h.dial (h.now + h.node.timing.reconnect.nanos) h.targets else h
  | .calling _ _ _ => h

/-- Does all that is due. -/
def tick (h : Host) : Host :=
  if h.running then h.tickNode.tickSockets.tickDialer else h

/-- Lets time pass until the host is as wanted, but not beyond `limit`, and over no more than a
number of deadlines. -/
def waitWithin (limit : Moment) (wanted : Host → Bool) : Nat → Host → Host
  | 0, h => h
  | steps + 1, h =>
    if wanted h then h
    else
      match h.nextDue with
      | none => h.setTime limit
      | some deadline =>
        if limit < deadline then h.setTime limit
        else waitWithin limit wanted steps (h.setTime deadline).tick

/-- Lets time pass until the host is as wanted, but no longer than `patience`. -/
def wait (patience : Span) (wanted : Host → Bool) (h : Host) : Host :=
  waitWithin (h.now + patience.nanos) wanted 20000 h

/-- Does all that falls due up to a moment. -/
def runUntil (now : Moment) (h : Host) : Host :=
  waitWithin now (fun _ => false) 20000 h

/-! ## Start and end -/

/-- A host that has just been started; its first round of dialing is over. -/
def start (node : Node) (listening : List MemberId) : Host :=
  let h : Host :=
    { node, running := true, listening, sockets := [], backlog := []
      dialer := .resting node.clock.now, submitted := 0, answers := [] }
  (h.act Node.start).tickDialer

/-- Stops the node and leaves all connections. -/
def stop (h : Host) : Host :=
  { h.act Node.shutdown with running := false }

end Host
end Accord
