import Accord.Json.Reader

/-! # Records

A record has named fields in a fixed order. It comes as an object, in which fields of other names
do not matter, or as an array of its fields in order, in which the last ones may be missing. -/
namespace Accord.Json

/-- The fields of a record, in order; a missing one is none. -/
def slots? (names : List String) : Json → Option (List (Option Json))
  | .object fields => some (names.map fun name => Keyed.get? name fields)
  | .array items =>
    if items.length ≤ names.length then
      some (items.map some ++ List.replicate (names.length - items.length) none)
    else none
  | _ => none

/-- A field that may be missing or null. -/
def optional? {α : Type} (read : Json → Option α) : Option Json → Option (Option α)
  | none => some none
  | some v => nullable? read v

/-- A field that must be there. -/
def required? {α : Type} (read : Json → Option α) (slot : Option Json) : Option α :=
  slot.bind read

/-- The names of written fields. -/
def writtenNames? (fields : List (List Piece × Written)) : Option (List (String × Written)) :=
  fields.mapM fun field => (stringOf? field.1).map fun name => (name, field.2)

/-- The one field of a name; to write it twice is an error. -/
def single? (name : String) (fields : List (String × Written)) : Option (Option Written) :=
  match fields.filter (·.1 == name) with
  | [] => some none
  | [field] => some (some field.2)
  | _ => none

/-- The fields of a record that is read as it is written, in order. A field of another name may
hold anything that is well written, whether it has a value or not. -/
def Written.slots? (names : List String) : Written → Option (List (Option Written))
  | .object fields => do
    let fields ← writtenNames? fields
    names.mapM fun name => single? name fields
  | .array items =>
    if items.length ≤ names.length then
      some (items.map some ++ List.replicate (names.length - items.length) none)
    else none
  | _ => none

end Accord.Json
