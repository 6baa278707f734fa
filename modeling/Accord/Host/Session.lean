import Accord.Host.Basic
import Accord.Network.Basic

/-! # Sessions

A host and the other ends of its connections, played by hand. Each connection has a name. Whatever
has to wait lets time pass until it happens, within the patience of the session. -/
namespace Accord

/-- Starts a host with its settings, if its address can be listened on. -/
def Host.launch (network : Network) (settings : Settings) (store : Store) (clock : Clock)
    (dice : Dice) (listening : List MemberId) : Except AddressError Host :=
  (network.listen settings.listen).map fun _ =>
    let topology := settings.topology
    .start (.new topology settings.timing clock dice store) listening

structure Session where
  network : Network
  host : Host
  /-- The members whose connections are taken up here. -/
  accepting : List MemberId
  /-- The socket of each named connection. -/
  names : List (String × Nat)
  /-- The operations whose replies were taken. -/
  taken : List Nat

/-- How a wait for the answer to a probe came out. -/
inductive ProbeEnd where
  | answered
  | closed
  | timeout
  deriving DecidableEq, Repr

/-- What a step of a session brings to light. -/
inductive Sight where
  | done
  | timeout
  | closed
  | line (message : Message)
  | probed (before : List Message) (ending : ProbeEnd)
  | number (n : Nat)
  | reply (reply : Reply)
  | unknownOp
  | status (status : Status)
  | stopped (node : MemberId)
  | notRunning
  /-- The step makes no sense in this state. -/
  | impossible
  /-- The host cannot be reached at all. -/
  | unreachable

namespace Session

/-- How long a step waits for what it needs. -/
def patience : Span := .ofSeconds 5

def start (network : Network) (settings : Settings) (store : Store) (clock : Clock) (dice : Dice)
    (accepting : List MemberId) : Except AddressError Session :=
  let listening := match network with
    | .reachable => accepting
    | .isolated => []
  (Host.launch network settings store clock dice listening).map fun host =>
    { network, host, accepting, names := [], taken := [] }

def socket? (name : String) (s : Session) : Option Nat := Keyed.get? name s.names

def bind (name : String) (socket : Nat) (s : Session) : Session :=
  { s with names := Keyed.put name socket s.names }

def wait (wanted : Host → Bool) (s : Session) : Session :=
  { s with host := s.host.wait patience wanted }

/-- Does something with a named connection. -/
def withSocket (name : String) (f : Nat → Sight × Session) (s : Session) : Sight × Session :=
  match s.socket? name with
  | some socket => f socket
  | none => (.impossible, s)

/-- Does something with the running host. -/
def whileRunning (f : Sight × Session) (s : Session) : Sight × Session :=
  if s.host.running then f else (.impossible, s)

/-! ## Connections -/

/-- Connects to the host. -/
def dial (name : String) (s : Session) : Sight × Session :=
  if s.network = .reachable && s.host.running then
    let (socket, host) := s.host.accept
    (.done, { s with host }.bind name socket)
  else (.unreachable, s)

/-- Takes up the next connection of the host to a lower member. -/
def accept (name : String) (peer : MemberId) (s : Session) : Sight × Session :=
  if s.accepting.contains peer then
    let s := s.wait fun h => h.backlog.any (·.1 == peer)
    match s.host.takeUp peer with
    | (some socket, host) => (.done, { s with host }.bind name socket)
    | (none, _) => (.timeout, s)
  else (.impossible, s)

def send (name : String) (bytes : List UInt8) (s : Session) : Sight × Session :=
  s.withSocket name fun socket => (.done, { s with host := s.host.receive socket bytes })

/-- Closes the direction to the host. -/
def finish (name : String) (s : Session) : Sight × Session :=
  s.withSocket name fun socket => (.done, { s with host := s.host.endInput socket })

/-- Gives a connection up; a name without a connection is given up all the same. -/
def close (name : String) (s : Session) : Sight × Session :=
  match s.socket? name with
  | some socket =>
    (.done, { s with host := s.host.endInput socket, names := Keyed.erase name s.names })
  | none => (.done, s)

/-- Whether there is something to read on a socket, be it its end. -/
def isReadable (socket : Nat) (h : Host) : Bool :=
  ((h.socket? socket).any fun s => !s.written.isEmpty) || h.isFinished socket

/-- The next line on a socket. -/
def readSocket (socket : Nat) (s : Session) : Sight × Session :=
  let s := s.wait (isReadable socket)
  match s.host.takeLine socket with
  | (some message, host) => (.line message, { s with host })
  | (none, _) => (if s.host.isFinished socket then .closed else .timeout, s)

def read (name : String) (s : Session) : Sight × Session :=
  s.withSocket name fun socket => s.readSocket socket

/-! ## Probes -/

/-- The round of a probe. -/
def probeRound : Nat := 424242

/-- Asks for a vote that cannot be refused; the answer shows that all before it was handled. -/
def probe (peer : MemberId) : Message :=
  .voteRequest peer (Text.wordLimit - 1) (some probeRound)

def isProbeAnswer : Message → Bool
  | .vote _ _ round => round == some probeRound
  | _ => false

/-- Reads up to the answer to a probe, at most so many lines. -/
def readProbe (socket : Nat) : Nat → List Message → Session → Sight × Session
  | 0, before, s => (.probed before.reverse .timeout, s)
  | lines + 1, before, s =>
    match s.readSocket socket with
    | (.line message, s) =>
      if isProbeAnswer message then (.probed before.reverse .answered, s)
      else readProbe socket lines (message :: before) s
    | (.closed, s) => (.probed before.reverse .closed, s)
    | (_, s) => (.probed before.reverse .timeout, s)

/-- Sends a probe in the name of a peer and reads up to its answer. -/
def sync (name : String) (peer : MemberId) (s : Session) : Sight × Session :=
  s.withSocket name fun socket =>
    let bytes := (probe peer).frame.toUTF8.toList
    readProbe socket 10000 [] { s with host := s.host.receive socket bytes }

/-! ## The operator's part -/

def status (s : Session) : Sight × Session :=
  s.whileRunning (.status s.host.node.status, s)

/-- Waits until the status has these peers and this role, as far as they are given. -/
def await (peers : Option (List MemberId)) (role : Option String) (s : Session) :
    Sight × Session :=
  let wanted (h : Host) : Bool :=
    peers.all (· == h.node.status.peers) && role.all (· == h.node.status.role.word)
  let later := s.wait wanted
  s.whileRunning
    (if wanted later.host then (.status later.host.node.status, later) else (.timeout, later))

def campaign (s : Session) : Sight × Session :=
  s.whileRunning (.done, { s with host := s.host.handle .campaign })

def submit (method : Method) (command : Command) (s : Session) : Sight × Session :=
  let (op, host) := s.host.submit method command
  s.whileRunning (.number op, { s with host })

/-- Waits for the reply to an operation; each reply is taken once. -/
def reply (op : Nat) (s : Session) : Sight × Session :=
  if op < s.host.submitted && !s.taken.contains op then
    let s := s.wait fun h => (h.answer? op).isSome
    match s.host.answer? op with
    | some reply => (.reply reply, { s with taken := op :: s.taken })
    | none => (.timeout, s)
  else (.unknownOp, s)

def shutdown (s : Session) : Sight × Session :=
  if s.host.running then (.stopped s.host.node.id, { s with host := s.host.stop })
  else (.notRunning, s)

end Session
end Accord
