import Accord.Keyed
import Accord.Number.Binary64

/-! # Values

The values that statements bind, rows hold and messages carry. An object keeps its fields in
ascending order of their names; `Json.ofFields` builds one from fields in any order. -/
namespace Accord

/-- Integers and binary64 numbers are kept apart: no integer equals a float. -/
inductive JsonNumber where
  | integer (i : Int)
  | float (x : Number.Binary64)
  deriving DecidableEq

inductive Json where
  | null
  | bool (b : Bool)
  | number (n : JsonNumber)
  | string (s : String)
  | array (items : List Json)
  | object (fields : List (String × Json))

/-- Equality of numbers as values: the two float zeros are equal. -/
def JsonNumber.same : JsonNumber → JsonNumber → Bool
  | .integer i, .integer j => i == j
  | .float x, .float y => x.same y
  | _, _ => false

namespace Json

def integer (i : Int) : Json :=
  .number (.integer i)

def natural (n : Nat) : Json :=
  .number (.integer n)

/-- An object from fields in any order; of two fields with one name the later one stays. -/
def ofFields (fields : List (String × Json)) : Json :=
  .object (Keyed.ofList fields)

/-- A value, or null where there is none. -/
def ofOption : Option Json → Json
  | none => .null
  | some v => v

mutual

/-- Equality of values, with numbers compared by `JsonNumber.same`. -/
def same : Json → Json → Bool
  | .null, .null => true
  | .bool a, .bool b => a == b
  | .number a, .number b => a.same b
  | .string a, .string b => a == b
  | .array a, .array b => sameItems a b
  | .object a, .object b => sameFields a b
  | _, _ => false

def sameItems : List Json → List Json → Bool
  | [], [] => true
  | a :: as, b :: bs => same a b && sameItems as bs
  | _, _ => false

def sameFields : List (String × Json) → List (String × Json) → Bool
  | [], [] => true
  | (k, a) :: as, (l, b) :: bs => k == l && same a b && sameFields as bs
  | _, _ => false

end

/-- The field of an object. -/
def field? (name : String) : Json → Option Json
  | .object fields => Keyed.get? name fields
  | _ => none

def string? : Json → Option String
  | .string s => some s
  | _ => none

def bool? : Json → Option Bool
  | .bool b => some b
  | _ => none

def array? : Json → Option (List Json)
  | .array items => some items
  | _ => none

def integer? : Json → Option Int
  | .number (.integer i) => some i
  | _ => none

/-- An integer below `limit` that is not negative. -/
def natural? (limit : Nat) : Json → Option Nat
  | .number (.integer (.ofNat n)) => if n < limit then some n else none
  | _ => none

/-- Reads null as the absence of a value. -/
def nullable? {α : Type} (read : Json → Option α) : Json → Option (Option α)
  | .null => some none
  | v => (read v).map some

end Json
end Accord
