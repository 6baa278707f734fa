import Accord.MemberId
import Accord.Store.Log

/-! # Messages between nodes

What one node tells another. The requests and answers of a round carry the number of that round;
older peers leave it out. -/
namespace Accord

/-- Reads are only voted on; writes go through the log. -/
inductive Method where
  | get
  | post
  deriving DecidableEq, Repr

inductive Message where
  /-- Names the sender on a new connection. -/
  | hello (node : MemberId)
  /-- Asks for a vote for a candidate whose log reaches `logId`. -/
  | voteRequest (candidate : MemberId) (logId : Nat) (round : Option Nat)
  | vote (voter : MemberId) (accept : Bool) (round : Option Nat)
  | announcement (leader : MemberId)
  /-- A sign of life; `logId` is negative when the leader could not read its log. -/
  | heartbeat (leader : MemberId) (logId : Int)
  /-- Asks for the entries behind `logId`. -/
  | entriesRequest (follower : MemberId) (logId : Nat)
  | batch (leader : MemberId) (entries : List Entry)
  /-- Asks for the outcome of an operation. -/
  | roundRequest (method : Method) (command : Command) (round : Option Nat)
  /-- The digest of an outcome. -/
  | roundAnswer (digest : String) (round : Option Nat)
  | applyEntry (logId : Nat)
  | deleteEntry (logId : Nat)

/-- The kinds of messages. -/
inductive Message.Kind where
  | hello
  | voteRequest
  | vote
  | announcement
  | heartbeat
  | entriesRequest
  | batch
  | roundRequest
  | roundAnswer
  | applyEntry
  | deleteEntry
  deriving DecidableEq, Repr

def Message.kind : Message → Kind
  | .hello _ => .hello
  | .voteRequest _ _ _ => .voteRequest
  | .vote _ _ _ => .vote
  | .announcement _ => .announcement
  | .heartbeat _ _ => .heartbeat
  | .entriesRequest _ _ => .entriesRequest
  | .batch _ _ => .batch
  | .roundRequest _ _ _ => .roundRequest
  | .roundAnswer _ _ => .roundAnswer
  | .applyEntry _ => .applyEntry
  | .deleteEntry _ => .deleteEntry

namespace Message.Kind

def all : List Kind :=
  [.hello, .voteRequest, .vote, .announcement, .heartbeat, .entriesRequest, .batch, .roundRequest,
   .roundAnswer, .applyEntry, .deleteEntry]

/-- The tag of a kind in a message's text. That of heartbeats lacks a letter, and all nodes expect
it so. -/
def tag : Kind → String
  | .hello => "ADDCONNECTION"
  | .voteRequest => "LEADERELECTION"
  | .vote => "VOTERESPONSE"
  | .announcement => "ELECTIONRESULT"
  | .heartbeat => "HEARBEAT"
  | .entriesRequest => "MISSINGLOG"
  | .batch => "APPENDLOG"
  | .roundRequest => "REQUESTCONSENSUSVOTING"
  | .roundAnswer => "RESPONSECONSENSUSVOTING"
  | .applyEntry => "APPLYLOG"
  | .deleteEntry => "DELETELOG"

def ofTag? (tag : String) : Option Kind :=
  all.find? fun kind => kind.tag == tag

end Message.Kind
end Accord
