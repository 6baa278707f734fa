import Accord.Console
import Accord.Host.Basic

/-! # Terminals

An operator's console on a host. Every line is a command; replies and the status are printed as
indented text. -/
namespace Accord.Terminal

/-- What is printed when the host is up. -/
def welcome (id : MemberId) : String :=
  "Node " ++ toString id ++ " ready. Type HELP (or h) for commands."

/-- Runs an operation and waits for its reply, which comes at the latest when its round runs out. -/
def request (method : Method) (command : Command) (h : Host) : Reply × Host :=
  let (op, h) := h.submit method command
  let h := h.wait h.node.timing.voting fun h => (h.answer? op).isSome
  ((h.answer? op).getD (.error .timeout), { h with answers := [] })

/-- What a command prints, and the host after it; no host if the console ends. -/
def execute (command : ConsoleInput) (h : Host) : List String × Option Host :=
  match command with
  | .run method command =>
    let (reply, h) := request method command h
    ([reply.toJson.prettyText], some h)
  | .status => ([h.node.status.toJson.prettyText], some h)
  | .campaign => (["election round started"], some (h.handle .campaign))
  | .help => ([ConsoleInput.helpText], some h)
  | .exit => ([], none)

/-- What a line prints, and the host after it. Blank lines are passed over. -/
def enter (line : String) (h : Host) : List String × Option Host :=
  if (Text.trim line.toList).isEmpty then ([], some h)
  else
    match ConsoleInput.parse line with
    | .error e => (["error: " ++ e.message], some h)
    | .ok command => execute command h

/-- What some lines print, up to the one that ends the console. -/
def transcript : List String → Host → List String
  | [], _ => []
  | line :: rest, h =>
    match enter line h with
    | (printed, some h) => printed ++ transcript rest h
    | (printed, none) => printed

end Accord.Terminal
