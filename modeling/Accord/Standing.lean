import Accord.Cluster.Timing
import Accord.MemberId

/-! # The standing of a node

The leader that a node knows of, and the three timers that go with it. Without a leader a node
waits to stand for election; a follower waits for signs of its leader; a leader waits to give the
next sign. -/
namespace Accord

inductive Role where
  | leaderless
  | follower
  | leader
  deriving DecidableEq, Repr

/-- The name of a role in a status. -/
def Role.word : Role → String
  | .leaderless => "no_leader"
  | .follower => "follower"
  | .leader => "leader"

/-- The name of a role in running text. -/
def Role.text : Role → String
  | .leaderless => "no-leader"
  | .follower => "follower"
  | .leader => "leader"

structure Standing where
  self : MemberId
  leader : Option MemberId
  election : Timer
  vote : Timer
  heartbeat : Timer
  deriving DecidableEq, Repr

namespace Standing

/-- A node that has not started: it knows no leader, and nothing is armed. -/
def idle (self : MemberId) : Standing := ⟨self, none, .idle, .idle, .idle⟩

def role (s : Standing) : Role :=
  match s.leader with
  | none => .leaderless
  | some leader => if leader = s.self then .leader else .follower

def leads (s : Standing) : Bool := s.role == .leader

/-- Waits for an election timeout of `span`. -/
def search (timing : Timing) (now : Moment) (span : Span) (s : Standing) : Standing :=
  { s with election := .arm now span, vote := .arm now timing.vote, heartbeat := .idle }

/-- Knows no leader and looks for one. -/
def seek (timing : Timing) (now : Moment) (span : Span) (s : Standing) : Standing :=
  search timing now span { s with leader := none }

def lead (timing : Timing) (now : Moment) (s : Standing) : Standing :=
  { s with
    leader := some s.self
    heartbeat := .arm now timing.heartbeat
    election := .idle
    vote := .idle }

def follow (leader : MemberId) (timing : Timing) (now : Moment) (s : Standing) : Standing :=
  { s with
    leader := some leader, election := .idle, vote := .arm now timing.vote, heartbeat := .idle }

/-- The leader gave a sign. -/
def refresh (timing : Timing) (now : Moment) (s : Standing) : Standing :=
  { s with vote := .arm now timing.vote }

def stop (s : Standing) : Standing := idle s.self

end Standing
end Accord
