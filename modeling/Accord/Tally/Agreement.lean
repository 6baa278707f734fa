import Accord.Keyed
import Accord.MemberId

/-! # Agreement on outcomes

The digests that peers answered in one round. The round is decided when every peer has answered: it
succeeds if the leader's digest is the one most frequent digest and at least half of the peers gave
it. -/
namespace Accord

structure Agreement where
  /-- All who have answered. -/
  voters : List MemberId
  /-- How many of them gave each digest. -/
  counts : List (String × Nat)
  deriving DecidableEq, Repr

namespace Agreement

def initial : Agreement := ⟨[], []⟩

def hasAnswered (voter : MemberId) (a : Agreement) : Bool :=
  a.voters.contains voter

/-- How many voters gave a digest. -/
def count (digest : String) (a : Agreement) : Nat :=
  (Keyed.get? digest a.counts).getD 0

/-- Takes a voter's digest, unless the voter has answered before. -/
def record (voter : MemberId) (digest : String) (a : Agreement) : Agreement :=
  if a.hasAnswered voter then a
  else ⟨a.voters ++ [voter], Keyed.put digest (a.count digest + 1) a.counts⟩

def votes (a : Agreement) : Nat := a.voters.length

/-- The number of voters of the most frequent digest. -/
def top (a : Agreement) : Nat :=
  (a.counts.map (·.2)).foldl max 0

/-- None while answers are missing, and then whether the round succeeds. -/
def resolve (peers : Nat) (own : String) (a : Agreement) : Option Bool :=
  if a.votes < peers then none
  else
    match a.counts.filter (·.2 == a.top) with
    | [(digest, count)] => some (digest == own && peers ≤ 2 * count)
    | _ => some false

end Agreement
end Accord
