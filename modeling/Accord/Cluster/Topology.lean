import Accord.MemberId

/-! # Topology

The fixed membership of a cluster, as one of its nodes sees it. -/
namespace Accord

/-- A member of a cluster of `size` nodes, numbered from one. -/
structure Topology where
  self : MemberId
  size : Nat
  positive : 1 ≤ self
  member : self ≤ size
  deriving DecidableEq

inductive TopologyError where
  | noNodes
  | outsideCluster (node : MemberId) (size : Nat)
  deriving DecidableEq, Repr

def TopologyError.message : TopologyError → String
  | .noNodes => "topology requires at least one node"
  | .outsideCluster node size =>
    "node id " ++ toString node ++ " is outside the cluster range 1..=" ++ toString size

namespace Topology

def of (self : MemberId) (size : Nat) : Except TopologyError Topology :=
  if size = 0 then .error .noNodes
  else if h : 1 ≤ self ∧ self ≤ size then .ok ⟨self, size, h.1, h.2⟩
  else .error (.outsideCluster self size)

def contains (t : Topology) (id : MemberId) : Bool :=
  1 ≤ id && id ≤ t.size

/-- The first `n` of the other members, in ascending order. -/
def firstPeers (t : Topology) (n : Nat) : List MemberId :=
  ((List.range' 1 (min t.size (n + 1))).filter (· != t.self)).take n

/-- All other members, in ascending order. -/
def peers (t : Topology) : List MemberId :=
  t.firstPeers t.size

/-- Whether this node opens the connection to a peer: of each pair the higher one does. -/
def dials (t : Topology) (peer : MemberId) : Bool :=
  t.contains peer && peer < t.self

end Topology
end Accord
