import Accord.Json.Basic
import Accord.Json.Token

/-! # Reading values

Tokens are gathered into a tree by a machine that keeps the containers still open on a stack. The
tree holds what is written, repeated names and unreadable numerals included; `Written.value?` gives
its value, if it has one. -/
namespace Accord.Json

/-- A text as it is written. -/
inductive Written where
  | null
  | bool (b : Bool)
  | number (n : Numeral)
  | string (pieces : List Piece)
  | array (items : List Written)
  | object (fields : List (List Piece × Written))

/-- A container that is not closed yet; what it holds is kept last first. -/
inductive Open where
  | array (items : List Written)
  /-- An object whose next field has this name. -/
  | object (fields : List (List Piece × Written)) (name : List Piece)

/-- What must come next. -/
inductive Want where
  | value
  /-- The first item of an array, or its end. -/
  | firstItem
  /-- The first name of an object, or its end. -/
  | firstName
  | name (fields : List (List Piece × Written))
  | colon (fields : List (List Piece × Written)) (name : List Piece)
  /-- Behind a value: a comma or the end of the innermost container. -/
  | more (v : Written)

structure Machine where
  stack : List Open
  want : Want

/-- A token that begins a value. -/
def Machine.beginValue (stack : List Open) : Token → Option Machine
  | .null => some ⟨stack, .more .null⟩
  | .bool b => some ⟨stack, .more (.bool b)⟩
  | .number n => some ⟨stack, .more (.number n)⟩
  | .string s => some ⟨stack, .more (.string s)⟩
  | .openArray => some ⟨stack, .firstItem⟩
  | .openObject => some ⟨stack, .firstName⟩
  | _ => none

def Machine.step (m : Machine) (t : Token) : Option Machine :=
  match m.want with
  | .value => beginValue m.stack t
  | .firstItem =>
    match t with
    | .closeArray => some ⟨m.stack, .more (.array [])⟩
    | t => beginValue (.array [] :: m.stack) t
  | .firstName =>
    match t with
    | .closeObject => some ⟨m.stack, .more (.object [])⟩
    | .string name => some ⟨m.stack, .colon [] name⟩
    | _ => none
  | .name fields =>
    match t with
    | .string name => some ⟨m.stack, .colon fields name⟩
    | _ => none
  | .colon fields name =>
    match t with
    | .colon => some ⟨.object fields name :: m.stack, .value⟩
    | _ => none
  | .more v =>
    match m.stack, t with
    | .array items :: stack, .comma => some ⟨.array (v :: items) :: stack, .value⟩
    | .array items :: stack, .closeArray => some ⟨stack, .more (.array (v :: items).reverse)⟩
    | .object fields name :: stack, .comma => some ⟨stack, .name ((name, v) :: fields)⟩
    | .object fields name :: stack, .closeObject =>
      some ⟨stack, .more (.object ((name, v) :: fields).reverse)⟩
    | _, _ => none

/-- The tree of a whole text. -/
def Machine.result? : Machine → Option Written
  | ⟨[], .more v⟩ => some v
  | _ => none

def Written.ofTokens? (ts : List Token) : Option Written :=
  (ts.foldlM Machine.step ⟨[], .value⟩).bind Machine.result?

def Written.read? (cs : List Char) : Option Written :=
  (tokens? cs).bind Written.ofTokens?

/-! ## Values of what is written -/

/-- Joins the two halves of each character written as two units; a half alone is no character. -/
def joinPieces? : List Piece → Option (List Char)
  | [] => some []
  | .char c :: rest => (joinPieces? rest).map (c :: ·)
  | [.unit n] => if n < 0xD800 || 0xDFFF < n then some [Char.ofNat n] else none
  | .unit n :: .char c :: rest =>
    if n < 0xD800 || 0xDFFF < n then (joinPieces? (.char c :: rest)).map (Char.ofNat n :: ·)
    else none
  | .unit n :: .unit m :: rest =>
    if n < 0xD800 || 0xDFFF < n then (joinPieces? (.unit m :: rest)).map (Char.ofNat n :: ·)
    else if n < 0xDC00 && 0xDC00 ≤ m && m ≤ 0xDFFF then
      (joinPieces? rest).map (Char.ofNat (0x10000 + 0x400 * (n - 0xD800) + (m - 0xDC00)) :: ·)
    else none

def stringOf? (pieces : List Piece) : Option String :=
  (joinPieces? pieces).map String.ofList

/-- Takes digits into a significand as long as it fits a word; gives the significand and how many
digits were left. -/
def absorb : Nat → List Nat → Nat × Nat
  | sig, [] => (sig, 0)
  | sig, d :: ds =>
    if 10 * sig + d < Text.wordLimit then absorb (10 * sig + d) ds else (sig, ds.length + 1)

/-- The value of a numeral. Without point and exponent it is an integer if it fits 64 bits, except
that a negative zero is a float. All else is a float of the digits that fit a word; digits left of
the point that do not fit count as zeros, those to the right of it are dropped. -/
def Numeral.value? (n : Numeral) : Option JsonNumber :=
  let whole := absorb 0 n.whole
  let all := absorb whole.1 n.fraction
  let taken : Nat := n.fraction.length - all.2
  let float := (Number.Binary64.ofDecimal? n.negative all.1
    ((whole.2 : Int) - taken + n.exponent.getD 0)).map JsonNumber.float
  if n.fraction.isEmpty && n.exponent.isNone && whole.2 == 0 then
    if !n.negative then some (.integer whole.1)
    else if 0 < whole.1 && whole.1 ≤ Text.signedLimit then some (.integer (-(whole.1 : Int)))
    else float
  else float

/-- How deeply arrays and objects may be nested. -/
def nestingLimit : Nat := 127

mutual

/-- The value of what is written, if it nests at most `depth` levels. Of fields with one name the
last one counts. -/
def Written.value? (depth : Nat) : Written → Option Json
  | .null => some .null
  | .bool b => some (.bool b)
  | .number n => n.value?.map Json.number
  | .string pieces => (stringOf? pieces).map Json.string
  | .array items =>
    if depth = 0 then none else (Written.values? (depth - 1) items).map Json.array
  | .object fields =>
    if depth = 0 then none else (Written.fields? (depth - 1) fields).map Json.ofFields

def Written.values? (depth : Nat) : List Written → Option (List Json)
  | [] => some []
  | v :: vs => do return (← Written.value? depth v) :: (← Written.values? depth vs)

def Written.fields? (depth : Nat) : List (List Piece × Written) → Option (List (String × Json))
  | [] => some []
  | (name, v) :: fs => do
    return (← stringOf? name, ← Written.value? depth v) :: (← Written.fields? depth fs)

end

/-- The value that a whole text holds. -/
def parse? (cs : List Char) : Option Json :=
  (Written.read? cs).bind (Written.value? nestingLimit)

def ofText? (s : String) : Option Json :=
  parse? s.toList

end Accord.Json
