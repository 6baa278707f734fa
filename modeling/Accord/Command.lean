import Accord.Json.Record
import Accord.Json.Writer

/-! # Commands

What a client asks for: a statement's text and the values bound to its placeholders. The log keeps
the text of commands. -/
namespace Accord

structure Command where
  query : String
  /-- No values at all is not the same as an empty list of them. -/
  values : Option (List Json)

namespace Command

/-- The values to bind. -/
def bound (c : Command) : List Json :=
  c.values.getD []

def toJson (c : Command) : Json :=
  .object (("query", .string c.query) :: (c.values.map fun vs => ("values", .array vs)).toList)

/-- The text that the log keeps. -/
def text (c : Command) : String :=
  c.toJson.text

/-- The text and the list of values of a command, as they are written. -/
def ofWritten? (w : Json.Written) : Option Command :=
  match w.slots? ["query", "values"] with
  | some [some (.string pieces), values] => do
    let query ← Json.stringOf? pieces
    match values with
    | none => return ⟨query, none⟩
    | some .null => return ⟨query, none⟩
    | some (.array items) =>
      return ⟨query, some (← Json.Written.values? (Json.nestingLimit - 2) items)⟩
    | _ => none
  | _ => none

/-- The command of a text. -/
def ofText? (s : String) : Option Command :=
  (Json.Written.read? s.toList).bind ofWritten?

end Command
end Accord
