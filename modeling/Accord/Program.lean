import Accord.Host.Session
import Accord.Host.Terminal
import Accord.Options

/-! # The program

A node with a console, from its command line to its last line of output. No connection leads from
here to another node, so a node of a larger cluster stays without a leader. -/
namespace Accord.Program

/-- Why the program does not get to its console. -/
inductive Fault where
  | usage (cause : UsageError)
  | options (cause : OptionsError)
  | listen (address : String) (cause : AddressError)
  deriving DecidableEq, Repr

/-- Lines further down are indented as far as the first one. -/
def indented (lead : String) (text : String) : String :=
  let blank := String.ofList (List.replicate lead.length ' ')
  lead ++ ("\n" ++ blank).intercalate ((Text.pieces '\n' text.toList).map String.ofList) ++ "\n"

/-- Causes are numbered from zero if there are several. -/
def causeText : List String → String
  | [cause] => indented "    " cause
  | causes =>
    String.join (causes.zipIdx.map fun c => indented ("    " ++ toString c.2 ++ ": ") c.1)

/-- What went wrong, and under it the causes. -/
def report (message : String) (causes : List String) : String :=
  "Error: " ++ message ++ "\n\nCaused by:\n" ++ causeText causes

namespace Fault

/-- A command line that makes no sense exits with 2, all else with 1. -/
def exitCode : Fault → Nat
  | .usage _ => 2
  | .options _ => 1
  | .listen _ _ => 1

def text : Fault → String
  | .usage cause => "error: " ++ cause.message ++ "\n"
  | .options cause => report "invalid configuration" cause.causes
  | .listen address cause => report ("failed to bind " ++ address) [cause.message]

end Fault

/-- Starts the node that a command line describes. -/
def launch (network : Network) (args : List String) (env : String → Option String)
    (clock : Clock) (dice : Dice) : Except Fault Host := do
  let options ← (Options.read args env).mapError .usage
  let settings ← options.settings.mapError .options
  (Host.launch network settings .empty clock dice []).mapError (.listen settings.listen)

/-- How the program ended, and all that it printed. -/
structure Finish where
  code : Nat
  output : String
  errors : String
  deriving DecidableEq, Repr

/-- The whole run of the program over an input, at a clock that stands still. -/
def run (network : Network) (args : List String) (env : String → Option String) (clock : Clock)
    (dice : Dice) (input : String) : Finish :=
  match launch network args env clock dice with
  | .error fault => ⟨fault.exitCode, "", fault.text⟩
  | .ok host =>
    let typed := Text.lines input.toList
    let printed := Terminal.welcome host.node.id :: Terminal.transcript typed host
    ⟨0, String.join (printed.map (· ++ "\n")), ""⟩

end Accord.Program
