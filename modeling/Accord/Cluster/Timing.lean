import Accord.Time.Span

/-! # Timing

The periods that drive elections, heartbeats and rounds. -/
namespace Accord

structure Timing where
  electionMin : Span
  electionMax : Span
  heartbeat : Span
  /-- How long a node waits for a sign of its leader, and for missing entries. -/
  vote : Span
  /-- How long a client's round may take. -/
  voting : Span
  reconnect : Span
  handshake : Span
  deriving DecidableEq, Repr

inductive TimingError where
  | emptyElectionRange (min max : Span)
  | shortVote (vote heartbeat : Span)
  | zeroVoting
  deriving DecidableEq, Repr

def TimingError.message : TimingError → String
  | .emptyElectionRange min max =>
    "election timeout range is empty: " ++ min.text ++ " > " ++ max.text
  | .shortVote vote heartbeat =>
    "vote timeout " ++ vote.text ++ " must be longer than the heartbeat interval " ++ heartbeat.text
  | .zeroVoting => "voting timeout must be non-zero"

namespace Timing

def standard : Timing where
  electionMin := .ofMillis 200
  electionMax := .ofMillis 1000
  heartbeat := .ofMillis 500
  vote := .ofMillis 1500
  voting := .ofSeconds 5
  reconnect := .ofSeconds 1
  handshake := .ofSeconds 2

def validate (t : Timing) : Except TimingError Unit :=
  if t.electionMax.nanos < t.electionMin.nanos then
    .error (.emptyElectionRange t.electionMin t.electionMax)
  else if t.vote.nanos ≤ t.heartbeat.nanos then .error (.shortVote t.vote t.heartbeat)
  else if t.voting.nanos = 0 then .error .zeroVoting
  else .ok ()

/-- An election timeout of whole milliseconds in the range, picked by a number. Bounds that do not
fit a machine word of milliseconds are cut to what is left of them in one. -/
def electionSpan (t : Timing) (pick : Nat) : Span :=
  let low := t.electionMin.millisWord
  let high := t.electionMax.millisWord
  .ofMillis (low + pick % (high - low + 1))

end Timing

/-- The numbers that chance gives to pick election timeouts by. -/
structure Dice where
  picks : Nat → Nat
  /-- How many of them have been used. -/
  used : Nat

namespace Dice

/-- Dice that always show the same number. -/
def loaded (pick : Nat) : Dice := ⟨fun _ => pick, 0⟩

/-- The next number, and the dice after it. -/
def roll (d : Dice) : Nat × Dice := (d.picks d.used, { d with used := d.used + 1 })

end Dice

end Accord
