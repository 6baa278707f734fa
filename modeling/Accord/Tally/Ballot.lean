import Accord.MemberId

/-! # Ballots

The votes of one election. A vote is granted to a candidate whose log is at least as long as the
voter's, and an election is won by more than half of the connected peers. -/
namespace Accord

structure Ballot where
  /-- The number of the election; zero before the first one. -/
  round : Nat
  /-- The latest vote of each voter. -/
  votes : List (MemberId × Bool)
  /-- Whether the election has been decided. -/
  resolved : Bool
  deriving DecidableEq, Repr

namespace Ballot

def initial : Ballot := ⟨0, [], false⟩

/-- Opens the next election; the votes of the one before are gone. -/
def begin (b : Ballot) : Ballot := ⟨b.round + 1, [], false⟩

/-- Whether a vote is for this election; one that names no election is. -/
def concerns (b : Ballot) : Option Nat → Bool
  | none => true
  | some round => round == b.round

def record (voter : MemberId) (accept : Bool) (b : Ballot) : Ballot :=
  { b with votes := Keyed.put voter accept b.votes }

def size (b : Ballot) : Nat := b.votes.length

def isEmpty (b : Ballot) : Bool := b.votes.isEmpty

def accepted (b : Ballot) : Nat := b.votes.countP (·.2)

/-- Whether a candidate with a log up to `candidate` gets the vote of a node with a log up to
`own`. -/
def grants (own candidate : Nat) : Bool := own ≤ candidate

def isMajority (accepted peers : Nat) : Bool := peers / 2 < accepted

end Ballot
end Accord
