import Accord.Digest.Sha256
import Accord.Json.Writer
import Accord.MemberId
import Accord.Store.Error

/-! # Outcomes and replies

The outcome of an operation on one node, the digest by which nodes compare their outcomes, and what
a client is told in the end. -/
namespace Accord

/-- The text whose digest stands for an outcome. A failure is told by its message alone. -/
def outcomeText (result : Except StoreError Json) : String :=
  let (data, success) := match result with
    | .ok data => (data, true)
    | .error e => (.string e.message, false)
  Json.text (.object [("data", data), ("success", .bool success)])

def outcomeDigest (result : Except StoreError Json) : String :=
  Sha256.hexDigest (outcomeText result)

/-- Why a client's operation did not succeed. -/
inductive ReplyError where
  | notLeading (leader : Option MemberId)
  | outvoted
  | timeout
  | storage (cause : StoreError)
  | shutdown
  deriving DecidableEq, Repr

def ReplyError.message : ReplyError → String
  | .notLeading (some leader) => "not the leader, leader is " ++ toString leader
  | .notLeading none => "not the leader, leader is unknown"
  | .outvoted => "consensus failed: not enough votes"
  | .timeout => "consensus failed: timed out waiting for votes"
  | .storage cause => cause.message
  | .shutdown => "node is shutting down"

/-- What a client is told. -/
abbrev Reply := Except ReplyError Json

def Reply.toJson : Reply → Json
  | .ok data => .object [("success", .bool true), ("data", data)]
  | .error e => .object [("success", .bool false), ("message", .string e.message)]

end Accord
