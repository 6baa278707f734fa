import Accord.Message.Basic

/-! # The text of messages

A message is written as one object with its tag and its payload. Reading tells apart a text that
holds no value, a value without a tag, a tag of no kind and a payload that does not fit its tag. -/
namespace Accord

/-- Why a text is not a message. -/
inductive MessageError where
  | notJson
  | untagged
  | unknownTag (tag : String)
  | malformed (kind : Message.Kind)
  deriving DecidableEq, Repr

def MessageError.message : MessageError → String
  | .notJson => "frame is not valid JSON"
  | .untagged => "frame is missing its type tag"
  | .unknownTag tag => "unknown message type '" ++ tag ++ "'"
  | .malformed kind => "malformed " ++ kind.tag ++ " payload"

/-! ## Writing -/

def Method.word : Method → String
  | .get => "GET"
  | .post => "POST"

namespace Entry

/-- An entry whose time is written by `stamp`. -/
def toJsonWith (stamp : Instant → String) (e : Entry) : Json :=
  .object
    [("id", .natural e.id), ("command", .string e.command), ("commandtime", .string (stamp e.time))]

end Entry

namespace Message

/-- The number of a round is left out when there is none. -/
def roundField (round : Option Nat) : List (String × Json) :=
  (round.map fun n => ("round", Json.natural n)).toList

/-- The payload, with the times of log entries written by `stamp`. -/
def payloadWith (stamp : Instant → String) : Message → Json
  | .hello node => .object [("nodeId", .natural node)]
  | .voteRequest candidate logId round =>
    .object ([("serverId", .natural candidate), ("logId", .natural logId)] ++ roundField round)
  | .vote voter accept round =>
    .object ([("serverId", .natural voter), ("acceptLeader", .bool accept)] ++ roundField round)
  | .announcement leader => .object [("serverId", .natural leader)]
  | .heartbeat leader logId => .object [("serverId", .natural leader), ("logId", .integer logId)]
  | .entriesRequest follower logId =>
    .object [("serverId", .natural follower), ("logId", .natural logId)]
  | .batch leader entries =>
    .object
      [("serverId", .natural leader), ("entries", .array (entries.map (Entry.toJsonWith stamp)))]
  | .roundRequest method command round =>
    .object ([("method", .string method.word), ("query", .string command.query),
      ("values", .ofOption (command.values.map Json.array))] ++ roundField round)
  | .roundAnswer digest round => .object (("result", .string digest) :: roundField round)
  | .applyEntry logId => .object [("logId", .natural logId)]
  | .deleteEntry logId => .object [("logId", .natural logId)]

/-- The text of a message, with the times of log entries written by `stamp`. -/
def textWith (stamp : Instant → String) (m : Message) : String :=
  Json.text (.object [("type", .string m.kind.tag), ("payload", m.payloadWith stamp)])

def text (m : Message) : String :=
  m.textWith Instant.text

/-! ## Reading -/

open Json (required? optional?)

/-- A number of 64 bits. -/
def word? : Json → Option Nat :=
  Json.natural? Text.wordLimit

/-- The signed number of 64 bits that a heartbeat carries. -/
def signedWord? (v : Json) : Option Int :=
  v.integer?.bind fun i =>
    if -(Text.signedLimit : Int) ≤ i && i < Text.signedLimit then some i else none

def methodOfWord? : String → Option Method
  | "GET" => some .get
  | "POST" => some .post
  | _ => none

/-- A method is a word, or the one name in an object that holds nothing under it. -/
def method? : Json → Option Method
  | .string s => methodOfWord? s
  | .object [(s, .null)] => methodOfWord? s
  | .object [(s, .object [])] => methodOfWord? s
  | _ => none

def entries? (v : Json) : Option (List Entry) :=
  v.array?.bind fun items => items.mapM Entry.ofJson?

/-- The message of a kind with a payload. -/
def ofPayload? (kind : Kind) (payload : Json) : Option Message :=
  match kind with
  | .hello =>
    match payload.slots? ["nodeId"] with
    | some [node] => do return .hello (← required? MemberId.ofJson? node)
    | _ => none
  | .voteRequest =>
    match payload.slots? ["serverId", "logId", "round"] with
    | some [server, logId, round] => do
      return .voteRequest (← required? MemberId.ofJson? server) (← required? word? logId)
        (← optional? word? round)
    | _ => none
  | .vote =>
    match payload.slots? ["serverId", "acceptLeader", "round"] with
    | some [server, accept, round] => do
      return .vote (← required? MemberId.ofJson? server) (← required? Json.bool? accept)
        (← optional? word? round)
    | _ => none
  | .announcement =>
    match payload.slots? ["serverId"] with
    | some [server] => do return .announcement (← required? MemberId.ofJson? server)
    | _ => none
  | .heartbeat =>
    match payload.slots? ["serverId", "logId"] with
    | some [server, logId] => do
      return .heartbeat (← required? MemberId.ofJson? server) (← required? signedWord? logId)
    | _ => none
  | .entriesRequest =>
    match payload.slots? ["serverId", "logId"] with
    | some [server, logId] => do
      return .entriesRequest (← required? MemberId.ofJson? server) (← required? word? logId)
    | _ => none
  | .batch =>
    match payload.slots? ["serverId", "entries"] with
    | some [server, entries] => do
      return .batch (← required? MemberId.ofJson? server) (← required? entries? entries)
    | _ => none
  | .roundRequest =>
    match payload.slots? ["method", "query", "values", "round"] with
    | some [method, query, values, round] => do
      return .roundRequest (← required? method? method)
        ⟨← required? Json.string? query, ← optional? Json.array? values⟩ (← optional? word? round)
    | _ => none
  | .roundAnswer =>
    match payload.slots? ["result", "round"] with
    | some [result, round] => do
      return .roundAnswer (← required? Json.string? result) (← optional? word? round)
    | _ => none
  | .applyEntry =>
    match payload.slots? ["logId"] with
    | some [logId] => do return .applyEntry (← required? word? logId)
    | _ => none
  | .deleteEntry =>
    match payload.slots? ["logId"] with
    | some [logId] => do return .deleteEntry (← required? word? logId)
    | _ => none

/-- The tag of a value. -/
def tag? (v : Json) : Option String :=
  (v.field? "type").bind Json.string?

def ofJson (v : Json) : Except MessageError Message :=
  match tag? v with
  | none => .error .untagged
  | some tag =>
    match Kind.ofTag? tag with
    | none => .error (.unknownTag tag)
    | some kind =>
      match (v.field? "payload").bind (ofPayload? kind) with
      | some m => .ok m
      | none => .error (.malformed kind)

/-- The message of a text. -/
def ofText (s : String) : Except MessageError Message :=
  match Json.ofText? s with
  | some v => ofJson v
  | none => .error .notJson

end Message
end Accord
