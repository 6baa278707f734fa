import Accord.Node.Step

/-! # A cluster in memory

Nodes under one clock, joined by links that keep what was sent until it is delivered. Some members
of the cluster may have no node here: what is sent to them is seen and then lost. All that nodes
send and answer is remembered until it is reported. -/
namespace Accord

/-- The two ends of a link. -/
structure Ends where
  source : MemberId
  target : MemberId
  deriving DecidableEq, Repr

/-- Links are ordered by their source, and those of one source by their target. -/
instance : LT Ends where
  lt a b := a.source < b.source ∨ (a.source = b.source ∧ a.target < b.target)

instance : DecidableLT Ends := fun a b =>
  inferInstanceAs (Decidable (a.source < b.source ∨ (a.source = b.source ∧ a.target < b.target)))

/-- What was sent from one node to another and not delivered yet. -/
structure Link where
  /-- The number of the connection in the sender's directory. -/
  connection : Nat
  /-- Whether the receiving end is still there. -/
  live : Bool
  queue : List Message

/-- Puts a message behind the others. -/
def Link.push (message : Message) (l : Link) : Link :=
  { l with queue := l.queue ++ [message] }

/-- A message that left its sender. -/
structure Transmission where
  ends : Ends
  message : Message

/-- What can be seen of a node from outside. -/
structure View where
  status : Status
  nextDue : Option Moment
  deriving DecidableEq, Repr

def Node.view (n : Node) : View := ⟨n.status, n.nextDue⟩

structure World where
  clock : Clock
  nodes : List (MemberId × Node)
  links : List (Ends × Link)
  /-- How many operations clients have submitted. -/
  submitted : Nat
  /-- Sent since the last report. -/
  sent : List Transmission
  /-- Answered since the last report. -/
  answers : List Answer
  /-- The view of each node in the latest report that had it. -/
  shown : List (MemberId × View)

/-- What happened since the report before. -/
structure Report where
  sent : List Transmission
  answers : List Answer
  /-- The views of the nodes that look different. -/
  changes : List (MemberId × View)

namespace World

def empty (clock : Clock) : World := ⟨clock, [], [], 0, [], [], []⟩

def node? (id : MemberId) (w : World) : Option Node := Keyed.get? id w.nodes

def isReal (id : MemberId) (w : World) : Bool := Keyed.contains id w.nodes

def addNode (n : Node) (w : World) : World :=
  { w with nodes := Keyed.put n.id n w.nodes }

/-- Lets a node act at the present time. -/
def act (id : MemberId) (f : Node → Node) (w : World) : World :=
  { w with nodes := Keyed.modify id (fun n => f (n.setClock w.clock)) w.nodes }

/-- Lets every node act at the present time. -/
def actAll (f : Node → Node) (w : World) : World :=
  (Keyed.keys w.nodes).foldl (fun w id => w.act id f) w

def handle (id : MemberId) (event : Event) (w : World) : World :=
  w.act id (Node.handle event)

/-! ## Links -/

/-- Opens a link from a node to another member. A link that was there before is replaced, and what
it had not delivered is lost. -/
def openLink (ends : Ends) (w : World) : World :=
  match w.node? ends.source with
  | none => w
  | some n =>
    let (connection, directory) := n.directory.register ends.target
    { w with
      nodes := Keyed.put ends.source { n with directory } w.nodes
      links := Keyed.put ends ⟨connection, true, []⟩ w.links }

/-- Removes a link and its record, and what it had not delivered. -/
def closeLink (ends : Ends) (w : World) : World :=
  match w.node? ends.source, Keyed.get? ends w.links with
  | some n, some link =>
    let (_, directory) := n.directory.remove ends.target link.connection
    { w with
      nodes := Keyed.put ends.source { n with directory } w.nodes
      links := Keyed.erase ends w.links }
  | _, _ => w

/-- Links every node with all other members of a cluster of `size`. -/
def mesh (size : Nat) (w : World) : World :=
  (Keyed.keys w.nodes).foldl (fun w a =>
    (List.range' 1 size).foldl (fun w b => if a = b then w else w.openLink ⟨a, b⟩) w) w

/-- Opens both directions between two members and tells their nodes. -/
def connect (a b : MemberId) (w : World) : World :=
  w.openLink ⟨a, b⟩ |>.openLink ⟨b, a⟩ |>.handle a (.connected b) |>.handle b (.connected a)

/-- Closes both directions between two members and tells their nodes. -/
def disconnect (a b : MemberId) (w : World) : World :=
  w.closeLink ⟨a, b⟩ |>.closeLink ⟨b, a⟩ |>.handle a (.disconnected b)
    |>.handle b (.disconnected a)

/-- The receiving end of a link goes away while its record stays, and so does what was not delivered
yet. Says whether the end was there. -/
def hangUp (ends : Ends) (w : World) : Bool × World :=
  match w.node? ends.source, Keyed.get? ends w.links with
  | some n, some ⟨connection, true, queue⟩ =>
    let n := { n with directory := n.directory.hangUp connection }
    (true, { w with
      nodes := Keyed.put ends.source n w.nodes
      links := Keyed.put ends ⟨connection, false, queue⟩ w.links })
  | _, _ => (false, w)

/-- Loses what a link has not delivered, and says how much that was. -/
def lose (ends : Ends) (w : World) : Nat × World :=
  match Keyed.get? ends w.links with
  | some link =>
    let links := Keyed.put ends { link with queue := [] } w.links
    (link.queue.length, { w with links })
  | none => (0, w)

/-! ## Collecting and delivering -/

/-- Puts a message behind what its link has not delivered, if there is a node to deliver it to. -/
def enqueue (w : World) (t : Transmission) : World :=
  if w.isReal t.ends.target then { w with links := Keyed.modify t.ends (·.push t.message) w.links }
  else w

/-- Collects from one node, link by link. -/
def collectNode (w : World) (id : MemberId) : World :=
  match w.node? id with
  | none => w
  | some n =>
    let ((deliveries, answers), n) := n.collect
    let sent := (deliveries.mergeSort fun a b => a.peer ≤ b.peer).map fun d =>
      Transmission.mk ⟨id, d.peer⟩ d.message
    let w := { w with
      nodes := Keyed.put id n w.nodes, sent := w.sent ++ sent, answers := w.answers ++ answers }
    sent.foldl enqueue w

/-- Collects what the nodes sent and answered. -/
def collect (w : World) : World :=
  (Keyed.keys w.nodes).foldl collectNode w

/-- Hands one message to the node at the end of its link. -/
def deliverOne (w : World) (t : Transmission) : World :=
  w.handle t.ends.target (.frame t.ends.source t.message.text)

/-- Delivers the oldest messages of a link, at most `count`, and says how many there were. -/
def deliver (ends : Ends) (count : Nat) (w : World) : Nat × World :=
  match Keyed.get? ends w.links with
  | none => (0, w)
  | some link =>
    let batch := link.queue.take count
    let w := { w with links := Keyed.put ends { link with queue := link.queue.drop count } w.links }
    (batch.length, ((batch.map (Transmission.mk ends)).foldl deliverOne w).collect)

/-- Delivers all messages that are waiting, link by link, and says how many there were. -/
def step (w : World) : Nat × World :=
  let batch := w.links.flatMap fun entry => entry.2.queue.map (Transmission.mk entry.1)
  let w := { w with links := w.links.map fun entry => (entry.1, { entry.2 with queue := [] }) }
  (batch.length, (batch.foldl deliverOne w).collect)

/-- Repeats `step` until one delivers nothing, at most `limit` times; says how many delivered
something. -/
def settleWithin : Nat → World → Nat × World
  | 0, w => (0, w)
  | limit + 1, w =>
    match w.step with
    | (0, w) => (0, w)
    | (_, w) =>
      let (steps, w) := settleWithin limit w
      (steps + 1, w)

def settle (w : World) : Nat × World := settleWithin 100 w

/-! ## Time -/

/-- Moves the clock forward. -/
def setTime (now : Moment) (w : World) : World :=
  { w with clock := { w.clock with now := max w.clock.now now } }

/-- The node that is the first to have something to do, and when; the lowest one of several. -/
def firstDue? (w : World) : Option (MemberId × Moment) :=
  w.nodes.foldl (fun best entry =>
    match entry.2.nextDue, best with
    | none, best => best
    | some deadline, none => some (entry.1, deadline)
    | some deadline, some (id, earliest) =>
      if deadline < earliest then some (entry.1, deadline) else some (id, earliest)) none

/-- Lets time pass up to `target`, one deadline after another, at most `limit` of them; says how
many there were. In between, messages are delivered if `delivering`. -/
def runWithin (target : Moment) (delivering : Bool) : Nat → World → Nat × World
  | 0, w => (0, w)
  | limit + 1, w =>
    match w.firstDue? with
    | none => (0, w)
    | some (id, deadline) =>
      if target < deadline then (0, w)
      else
        let w := ((w.setTime deadline).act id Node.tick).collect
        let w := if delivering then w.settle.2 else w
        let (firings, w) := runWithin target delivering limit w
        (firings + 1, w)

/-- Lets a span of time pass. -/
def run (span : Span) (delivering : Bool) (w : World) : Nat × World :=
  let target := w.clock.now + span.nanos
  let w := if delivering then w.settle.2 else w
  let (firings, w) := runWithin target delivering 500 w
  (firings, w.setTime target)

/-! ## Clients and stores -/

/-- Submits an operation to a node and gives its number. -/
def submit (id : MemberId) (method : Method) (command : Command) (w : World) : Nat × World :=
  let op : Operation := ⟨w.submitted, method, command⟩
  (w.submitted, { w with submitted := w.submitted + 1 }.handle id (.client op))

/-- Uses the store of a node past the node. -/
def useStore {α : Type} (id : MemberId) (f : Store → Outcome α) (w : World) :
    Option (Except StoreError α) × World :=
  match w.node? id with
  | none => (none, w)
  | some n =>
    let (result, n) := n.useStore f
    (some result, { w with nodes := Keyed.put id n w.nodes })

/-- Brings the store of a node into reach or out of it. -/
def switchStore (id : MemberId) (available : Bool) (w : World) : World :=
  w.act id fun n => { n with store := { n.store with available } }

/-! ## Reports -/

/-- The views of the nodes. -/
def views (w : World) : List (MemberId × View) :=
  w.nodes.map fun entry => (entry.1, entry.2.view)

/-- Reports what happened since the report before. Answers are told in the order in which their
operations were submitted. -/
def report (w : World) : Report × World :=
  let w := w.collect
  let changes := w.views.filter fun entry => Keyed.get? entry.1 w.shown ≠ some entry.2
  (⟨w.sent, w.answers.mergeSort fun a b => a.op ≤ b.op, changes⟩,
    { w with sent := [], answers := [], shown := w.views })

end World
end Accord
