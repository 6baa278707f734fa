import Accord.Command
import Accord.Message.Basic
import Accord.Text.Blank
import Accord.Text.Capital

/-! # Console commands

What an operator types. A command is a word in any case, or its first letter. Reads and writes take
a statement, and behind it the values for its placeholders as an array. -/
namespace Accord

inductive ConsoleInput where
  | run (method : Method) (command : Command)
  | status
  | campaign
  | help
  | exit

inductive ConsoleError where
  | empty
  | missingQuery (method : Method)
  | unexpectedArguments (word : String)
  | invalid
  deriving DecidableEq, Repr

def ConsoleError.message : ConsoleError → String
  | .empty => "empty command"
  | .missingQuery .get => "GET requires a query: GET <sql> [json-values]"
  | .missingQuery .post => "POST requires a query: POST <sql> [json-values]"
  | .unexpectedArguments word => word ++ " takes no arguments"
  | .invalid =>
    "invalid command. Try: GET/g <sql>, POST/p <sql> [values], STATUS/s, CAMPAIGN/c, HELP/h, EXIT/e"

namespace ConsoleInput

def helpText : String :=
  "Commands (case-insensitive, aliases in parentheses):\n" ++
  "  GET <sql> [json-values]   (g)  read through a voting round, leader only\n" ++
  "  POST <sql> [json-values]  (p)  replicate a write, leader only\n" ++
  "  STATUS                    (s)  role, leader, peers, log id and timers\n" ++
  "  CAMPAIGN                  (c)  start an election round now\n" ++
  "  HELP                      (h)  show this text\n" ++
  "  EXIT                      (e)  shut the node down\n" ++
  "Example: POST INSERT INTO t (v) VALUES (?) [42]"

/-- An array of values that fills a whole text. -/
def values? (cs : List Char) : Option (List Json) :=
  (Json.parse? cs).bind Json.array?

/-- The shortest end of a text that is an array of values, with the text before it, unless that is
blank. The text is split into what is left of the split, last character first, and what is right
of it. -/
def valuesAtEnd? : List Char → List Char → Option (List Char × List Json)
  | [], _ => none
  | c :: before, behind =>
    match (if c = '[' then values? (c :: behind) else none) with
    | none => valuesAtEnd? before (c :: behind)
    | some values =>
      let query := Text.trim before.reverse
      if query.isEmpty then valuesAtEnd? before (c :: behind) else some (query, values)

/-- The statement of a command, and the values behind it if there are any. -/
def splitCommand (cs : List Char) : Command :=
  match (if cs.getLast? = some ']' then valuesAtEnd? cs.reverse [] else none) with
  | some (query, values) => ⟨String.ofList query, some values⟩
  | none => ⟨String.ofList cs, none⟩

/-- The word that a letter stands for. -/
def expand : String → String
  | "G" => "GET"
  | "P" => "POST"
  | "S" => "STATUS"
  | "C" => "CAMPAIGN"
  | "H" => "HELP"
  | "E" => "EXIT"
  | word => word

/-- A command that takes no arguments. -/
def bare (word : String) (command : ConsoleInput) (rest : List Char) :
    Except ConsoleError ConsoleInput :=
  if rest.isEmpty then .ok command else .error (.unexpectedArguments word)

/-- A command that takes a statement. -/
def withQuery (method : Method) (rest : List Char) : Except ConsoleError ConsoleInput :=
  if rest.isEmpty then .error (.missingQuery method) else .ok (.run method (splitCommand rest))

def parse (line : String) : Except ConsoleError ConsoleInput :=
  let cs := Text.trim line.toList
  if cs.isEmpty then .error .empty
  else
    let word := expand (String.ofList (Text.capitalize (cs.takeWhile (!Text.isBlank ·))))
    let rest := Text.trim (cs.dropWhile (!Text.isBlank ·))
    match word with
    | "EXIT" => bare word .exit rest
    | "HELP" => bare word .help rest
    | "STATUS" => bare word .status rest
    | "CAMPAIGN" => bare word .campaign rest
    | "GET" => withQuery .get rest
    | "POST" => withQuery .post rest
    | _ => .error .invalid

end ConsoleInput
end Accord
