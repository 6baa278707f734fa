import Accord.Message.Basic

/-! # The directory of connections

Which connection leads to which peer. Each registration gets a number of its own, so that the end
of an old connection cannot remove a newer one. What is sent is handed to a connection as long as
its receiving end is there. -/
namespace Accord

/-- A connection in the directory. -/
structure Connection where
  number : Nat
  /-- Whether the receiving end is still there. -/
  live : Bool
  deriving DecidableEq, Repr

/-- A message that a connection took. -/
structure Delivery where
  connection : Nat
  peer : MemberId
  message : Message

structure Directory where
  /-- How many connections have been registered so far. -/
  issued : Nat
  /-- The connection to each peer. -/
  records : List (MemberId × Connection)
  deriving DecidableEq, Repr

namespace Directory

def empty : Directory := ⟨0, []⟩

/-- Records a new connection to a peer, in the place of an older one, and gives its number. -/
def register (peer : MemberId) (d : Directory) : Nat × Directory :=
  let number := d.issued + 1
  (number, ⟨number, Keyed.put peer ⟨number, true⟩ d.records⟩)

/-- Whether this connection is the one recorded for a peer. -/
def holds (peer : MemberId) (number : Nat) (d : Directory) : Bool :=
  match Keyed.get? peer d.records with
  | some connection => connection.number == number
  | none => false

/-- Removes the record of a peer if it is of this connection, and says whether it was. -/
def remove (peer : MemberId) (number : Nat) (d : Directory) : Bool × Directory :=
  if d.holds peer number then (true, { d with records := Keyed.erase peer d.records })
  else (false, d)

/-- The receiving end of a connection goes away; its record stays. -/
def hangUp (number : Nat) (d : Directory) : Directory :=
  { d with
    records := d.records.map fun entry =>
      if entry.2.number = number then (entry.1, { entry.2 with live := false }) else entry }

/-- What a connection takes of a message. -/
def delivery? (message : Message) (entry : MemberId × Connection) : Option Delivery :=
  if entry.2.live then some ⟨entry.2.number, entry.1, message⟩ else none

/-- Sends to one peer; none if there is no connection that takes the message. -/
def dispatch (peer : MemberId) (message : Message) (d : Directory) : Option Delivery :=
  (Keyed.get? peer d.records).bind fun connection => delivery? message (peer, connection)

/-- Sends to all peers, in ascending order. -/
def broadcast (message : Message) (d : Directory) : List Delivery :=
  d.records.filterMap (delivery? message)

def count (d : Directory) : Nat := d.records.length

def contains (peer : MemberId) (d : Directory) : Bool :=
  Keyed.contains peer d.records

/-- The connected peers, in ascending order. -/
def peers (d : Directory) : List MemberId :=
  Keyed.keys d.records

/-- Forgets every connection. -/
def clear (d : Directory) : Directory := { d with records := [] }

/-- Whether some peer is recorded with this connection. -/
def isRecorded (number : Nat) (d : Directory) : Bool :=
  d.records.any fun entry => entry.2.number == number

end Directory

/-! ## Outboxes -/

/-- The messages that a connection took and that nobody has collected yet. -/
structure Outbox where
  live : Bool
  messages : List Message

/-- A directory with the outboxes of all connections that were ever registered in it. -/
structure Switchboard where
  directory : Directory
  outboxes : List (Nat × Outbox)

namespace Switchboard

def empty : Switchboard := ⟨.empty, []⟩

def register (peer : MemberId) (s : Switchboard) : Nat × Switchboard :=
  let (number, directory) := s.directory.register peer
  (number, ⟨directory, Keyed.put number ⟨true, []⟩ s.outboxes⟩)

def remove (peer : MemberId) (number : Nat) (s : Switchboard) : Bool × Switchboard :=
  let (removed, directory) := s.directory.remove peer number
  (removed, { s with directory })

def deposit (s : Switchboard) (delivery : Delivery) : Switchboard :=
  { s with
    outboxes := Keyed.modify delivery.connection
      (fun box => { box with messages := box.messages ++ [delivery.message] }) s.outboxes }

/-- Whether the message was taken. -/
def dispatch (peer : MemberId) (message : Message) (s : Switchboard) : Bool × Switchboard :=
  match s.directory.dispatch peer message with
  | some delivery => (true, s.deposit delivery)
  | none => (false, s)

/-- How many connections took the message. -/
def broadcast (message : Message) (s : Switchboard) : Nat × Switchboard :=
  let deliveries := s.directory.broadcast message
  (deliveries.length, deliveries.foldl deposit s)

def clear (s : Switchboard) : Switchboard :=
  { s with directory := s.directory.clear }

/-- The receiving end of a connection goes away; says whether it was there. -/
def hangUp (number : Nat) (s : Switchboard) : Bool × Switchboard :=
  match Keyed.get? number s.outboxes with
  | some ⟨true, _⟩ =>
    (true, ⟨s.directory.hangUp number, Keyed.put number ⟨false, []⟩ s.outboxes⟩)
  | _ => (false, s)

/-- Collects the messages of a connection whose receiving end is there, and says whether it is
closed: no record is left that could send to it. -/
def drain (number : Nat) (s : Switchboard) : Option (List Message × Bool) × Switchboard :=
  match Keyed.get? number s.outboxes with
  | some ⟨true, messages⟩ =>
    (some (messages, !s.directory.isRecorded number),
      { s with outboxes := Keyed.put number ⟨true, []⟩ s.outboxes })
  | _ => (none, s)

end Switchboard
end Accord
