import Accord.Sql.Parser
import Accord.Store.Log
import Accord.Store.Table

/-! # The store of a node

Tables and a log of commands in one database that may be out of reach. Every operation gives its
result and the store after it. Other writers may append to the same log: their commands land right
before this store's next append. -/
namespace Accord

/-- Another writer that is about to append a command, at a time of its own or else at that of the
append that it comes before. -/
structure Rival where
  command : String
  time : Option Instant
  deriving DecidableEq, Repr

/-- The other writers that are about to append, the first one first. -/
structure Rivals where
  writers : List Rival
  deriving DecidableEq, Repr

def Rivals.none : Rivals := ⟨[]⟩

/-- The log after the rivals have appended, one after another. -/
def Rivals.appendTo (r : Rivals) (time : Instant) (log : Log) : Log :=
  r.writers.foldl (fun log rival => log.append rival.command (rival.time.getD time)) log

structure Store where
  tables : Tables
  log : Log
  available : Bool
  /-- The writers whose commands land before the next append. -/
  rivals : Rivals
  /-- What the reader of commands says about a text that is none. -/
  complaint : String → String

/-- The result of an operation, and the store after it. -/
abbrev Outcome (α : Type) := Except StoreError α × Store

namespace Store

def empty : Store := ⟨[], [], true, .none, fun _ => "not a command"⟩

/-! ## Tables -/

/-- Runs a statement against the tables. A text that is no statement is refused even while the
store is out of reach. -/
def execute (query : String) (bound : List Json) (s : Store) : Outcome Json :=
  match Sql.prepare query bound with
  | .error cause => (.error (.statement cause), s)
  | .ok statement =>
    if s.available then
      match s.tables.run statement bound with
      | .error e => (.error e, s)
      | .ok (result, tables) => (.ok result, { s with tables })
    else (.error .unavailable, s)

/-- The rows of a table, whether the store is in reach or not. -/
def rows? (table : String) (s : Store) : Option (List Row) :=
  (Keyed.get? table s.tables).map (·.rows)

/-! ## Log -/

/-- The result of looking something up. -/
def whenAvailable {α : Type} (s : Store) (result : Except StoreError α) : Except StoreError α :=
  if s.available then result else .error .unavailable

def lastId (s : Store) : Except StoreError Nat :=
  s.whenAvailable (.ok s.log.lastId)

def entriesBeyond (id : Nat) (s : Store) : Except StoreError (List Entry) :=
  s.whenAvailable (.ok (s.log.after id))

def entry (id : Nat) (s : Store) : Except StoreError Entry :=
  s.whenAvailable <|
    match s.log.withId? id with
    | some e => .ok e
    | none => .error (.noEntry id)

/-- Appends a command's text and gives its id. Other writers come to the log at the same time, so
while the store is out of reach their commands fail together with this one. -/
def appendText (command : String) (time : Instant) (s : Store) : Outcome Nat :=
  if s.available then
    let log := s.rivals.appendTo time s.log
    (.ok log.nextId, { s with log := log.append command time, rivals := .none })
  else (.error .unavailable, { s with rivals := .none })

def truncate (id : Nat) (s : Store) : Outcome Bool :=
  if s.available then
    let (removed, log) := s.log.truncate id
    (.ok removed, { s with log })
  else (.error .unavailable, s)

/-- Appends a client's command, stamped with the time of day. -/
def append (command : Command) (now : Instant) (s : Store) : Outcome Nat :=
  s.appendText command.text now

/-- Appends an entry of another node with its text and its time. Nothing is appended unless the
entry's id is the next one; if another writer comes in between, the entry is taken out again. -/
def adopt (e : Entry) (s : Store) : Outcome Nat :=
  match s.lastId with
  | .error failure => (.error failure, s)
  | .ok latest =>
    if e.id ≠ latest + 1 then (.error (.diverged e.id (latest + 1)), s)
    else
      match s.appendText e.command e.time with
      | (.error failure, s) => (.error failure, s)
      | (.ok assigned, s) =>
        if assigned = e.id then (.ok assigned, s)
        else
          match s.truncate assigned with
          | (.error failure, s) => (.error failure, s)
          | (.ok _, s) => (.error (.diverged e.id assigned), s)

/-- The command of an entry. -/
def commandOf (e : Entry) (s : Store) : Except StoreError Command :=
  match Command.ofText? e.command with
  | some command => .ok command
  | none => .error (.unreadable e.id (s.complaint e.command))

/-- The command kept under an id. -/
def command (id : Nat) (s : Store) : Except StoreError Command :=
  s.entry id >>= s.commandOf

/-- Replays the command kept under an id against the tables. -/
def apply (id : Nat) (s : Store) : Outcome Json :=
  match s.command id with
  | .error failure => (.error failure, s)
  | .ok command => s.execute command.query command.bound

end Store
end Accord
