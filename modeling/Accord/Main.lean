import Accord.Program
import Accord.Time.Epoch
import Std.Time.DateTime.Timestamp

/-! # Command line -/
namespace Accord

/-- The clocks as they stand, counted from `start`. -/
def readClock (start : Nat) : IO Clock := do
  let elapsed := (← IO.monoNanosNow) - start
  let today ← Std.Time.Timestamp.now
  return ⟨elapsed, .ofEpoch today.toNanosecondsSinceUnixEpoch.val⟩

/-- Dice that fall differently in every run of the program. -/
def throwDice : IO Dice := do
  let seed := hash (← IO.getRandomBytes 8)
  return ⟨fun i => (mixHash seed (hash i)).toNat, 0⟩

/-- The variables of the environment that give options. -/
def readEnvironment : IO (List (String × String)) := do
  let found ← Setting.all.mapM fun option => do
    return (← IO.getEnv option.envName).map (option.envName, ·)
  return found.filterMap id

/-- Reads a line, brings the host up to the present and runs the line, until the console ends. -/
partial def serve (input : IO.FS.Stream) (start : Nat) (host : Host) : IO Unit := do
  let line ← input.getLine
  if line.isEmpty then return
  let clock ← readClock start
  let host := host.runUntil clock.now
  let (printed, next) := Terminal.enter line { host with node := host.node.setClock clock }
  printed.forM fun text => IO.println text
  match next with
  | some host => serve input start host
  | none => return

end Accord

open Accord in
/-- Runs a node with a console on the standard streams. -/
def main (args : List String) : IO UInt32 := do
  let start ← IO.monoNanosNow
  let environment ← readEnvironment
  let clock ← readClock start
  let dice ← throwDice
  match Program.launch .reachable args (fun name => environment.lookup name) clock dice with
  | .error fault =>
    IO.eprint fault.text
    return fault.exitCode.toUInt32
  | .ok host =>
    IO.println (Terminal.welcome host.node.id)
    serve (← IO.getStdin) start host
    return 0
