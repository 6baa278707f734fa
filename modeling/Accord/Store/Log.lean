import Accord.Command
import Accord.Time.Text

/-! # The log of commands

Entries in ascending order of their ids. An entry is appended under the id that follows the latest
one, and only the latest one can be taken out again. -/
namespace Accord

structure Entry where
  id : Nat
  /-- The text of the command, kept exactly as it was first written. -/
  command : String
  time : Instant
  deriving DecidableEq, Repr

abbrev Log := List Entry

namespace Log

/-- The id of the newest entry, zero when there is none. -/
def lastId (log : Log) : Nat :=
  (log.getLast?.map (·.id)).getD 0

def nextId (log : Log) : Nat :=
  log.lastId + 1

def append (command : String) (time : Instant) (log : Log) : Log :=
  log ++ [⟨log.nextId, command, time⟩]

/-- The entries behind an id. -/
def after (id : Nat) (log : Log) : List Entry :=
  log.filter fun entry => id < entry.id

def withId? (id : Nat) (log : Log) : Option Entry :=
  log.find? fun entry => entry.id == id

/-- Takes out the entry of an id if it is the newest one, and says whether it was. -/
def truncate (id : Nat) (log : Log) : Bool × Log :=
  match log.getLast? with
  | some entry => if entry.id = id then (true, log.dropLast) else (false, log)
  | none => (false, log)

def ids (log : Log) : List Nat :=
  log.map (·.id)

end Log

namespace Entry

def ofJson? (v : Json) : Option Entry :=
  match v.slots? ["id", "command", "commandtime"] with
  | some [id, command, time] => do
    let id ← Json.required? (Json.natural? Text.wordLimit) id
    let command ← Json.required? Json.string? command
    let time ← Json.required? Json.string? time
    return ⟨id, command, ← Instant.ofText? time⟩
  | _ => none

end Entry
end Accord
