import Accord.Cluster.Topology
import Accord.Message.Frame
import Accord.Time.Span

/-! # Sockets

A node's end of a connection. The first line from the other side has to introduce another member of
the cluster; from then on the connection belongs to that peer. -/
namespace Accord

inductive Phase where
  /-- Waits for the introduction, of a certain peer if one is expected, until the deadline. -/
  | greeting (expected : Option MemberId) (deadline : Moment)
  /-- Belongs to a peer, under a number in the directory. -/
  | opened (peer : MemberId) (connection : Nat)
  /-- Nothing more is read from it. -/
  | closed
  deriving DecidableEq, Repr

structure Socket where
  phase : Phase
  /-- What has come in behind the last whole line. -/
  reader : Frame.Reader
  /-- What was written and the other side has not read yet. -/
  written : List Message

namespace Socket

def start (expected : Option MemberId) (deadline : Moment) : Socket :=
  ⟨.greeting expected deadline, .start Frame.maxLength, []⟩

def write (message : Message) (s : Socket) : Socket :=
  { s with written := s.written ++ [message] }

/-- Takes bytes from the other side and gives the lines that they complete. -/
def receive (bytes : List UInt8) (s : Socket) : List String × Socket :=
  let reader := s.reader.feed bytes
  (reader.frames.toList, { s with reader := { reader with frames := #[] } })

/-- When the socket is given up unless it is introduced. -/
def deadline (s : Socket) : Option Moment :=
  match s.phase with
  | .greeting _ deadline => some deadline
  | _ => none

/-- The number that the socket has in the directory. -/
def connection? (s : Socket) : Option Nat :=
  match s.phase with
  | .opened _ connection => some connection
  | _ => none

end Socket

/-- The peer that a first line introduces: another member of the cluster, and the expected one if
there is one. -/
def Topology.introduced? (t : Topology) (expected : Option MemberId) (line : String) :
    Option MemberId :=
  match Message.ofText line with
  | .ok (.hello peer) =>
    if peer != t.self && t.contains peer && expected.all (· == peer) then some peer else none
  | _ => none

end Accord
