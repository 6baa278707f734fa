import Accord.Json.Reader
import Accord.Sql.Token

/-! # Reading statements

Each function below takes the tokens that are left and gives a part of a statement with the tokens
behind it. Placeholders are numbered from left to right as operands are read; question marks inside
the definition of a column are no operands and are not counted. -/
namespace Accord.Sql

open SqlError (endedBefore misplaced)

/-- A part of a statement, and the tokens behind it. -/
abbrev Parsed (α : Type) := α × List Token

/-- The rest behind a keyword. -/
def keyword (k : String) : List Token → Except SqlError (List Token)
  | [] => .error (endedBefore k)
  | t :: rest => if t.spells k then .ok rest else .error (misplaced t.describe k)

/-- The rest behind a mark. -/
def mark (wanted : Token) : List Token → Except SqlError (List Token)
  | [] => .error (endedBefore wanted.describe)
  | t :: rest =>
    if t = wanted then .ok rest else .error (misplaced t.describe wanted.describe)

/-- A name; any word may be one. -/
def identifier (expected : String) : List Token → Except SqlError (Parsed String)
  | [] => .error (endedBefore expected)
  | .word w :: rest => .ok (w, rest)
  | t :: _ => .error (misplaced t.describe expected)

def isKeywordNext (k : String) : List Token → Bool
  | [] => false
  | t :: _ => t.spells k

/-- The definitions of columns up to the parenthesis that closes them. A column is named by the
first word of its definition; types and constraints, parenthesised ones too, are skipped. -/
def columnDefinitions (depth : Nat) (atStart : Bool) :
    List Token → Except SqlError (Parsed (List String))
  | [] => .error (endedBefore "column definition")
  | .openParen :: rest => columnDefinitions (depth + 1) atStart rest
  | .closeParen :: rest =>
    if depth = 0 then .ok ([], rest) else columnDefinitions (depth - 1) atStart rest
  | .comma :: rest => columnDefinitions depth (atStart || depth == 0) rest
  | .word w :: rest =>
    if atStart then
      (columnDefinitions depth false rest).map fun (names, rest) => (w :: names, rest)
    else columnDefinitions depth atStart rest
  | _ :: rest => columnDefinitions depth atStart rest

/-- Names up to a closing parenthesis. -/
def columnNames : List Token → Except SqlError (Parsed (List String))
  | [] => .error (endedBefore "column name")
  | [.word _] => .error (endedBefore ", or )")
  | .word w :: .comma :: rest => (columnNames rest).map fun (names, rest) => (w :: names, rest)
  | .word w :: .closeParen :: rest => .ok ([w], rest)
  | .word _ :: t :: _ => .error (misplaced t.describe ", or )")
  | t :: _ => .error (misplaced t.describe "column name")

/-- One operand; the next placeholder has the number `index`. Gives the number of the placeholder
behind it too. -/
def operand (index : Nat) : Token → Except SqlError (Operand × Nat)
  | .placeholder => .ok (.placeholder index, index + 1)
  | .text s => .ok (.literal (.string s), index)
  | .number digits =>
    match Json.readNumeral digits.toList |>.bind Json.Numeral.value? with
    | some n => .ok (.literal (.number n), index)
    | none => .error (misplaced digits "a number")
  | .word w =>
    if Text.sameKeyword w "NULL" then .ok (.literal .null, index)
    else if Text.sameKeyword w "TRUE" then .ok (.literal (.bool true), index)
    else if Text.sameKeyword w "FALSE" then .ok (.literal (.bool false), index)
    else .error (misplaced w "a value")
  | t => .error (misplaced t.describe "a value")

/-- Operands up to a closing parenthesis, and the number of the placeholder behind them. -/
def operands (index : Nat) : List Token → Except SqlError (Parsed (List Operand × Nat))
  | [] => .error (endedBefore "a value")
  | [t] => (operand index t).bind fun _ => .error (endedBefore ", or )")
  | t :: .comma :: rest => do
    let (value, index) ← operand index t
    let ((values, index), rest) ← operands index rest
    return ((value :: values, index), rest)
  | t :: .closeParen :: rest => (operand index t).map fun (value, index) => (([value], index), rest)
  | t :: u :: _ =>
    (operand index t).bind fun _ => .error (misplaced u.describe ", or )")

/-- Names with commas between them. -/
def selectedNames : List Token → Except SqlError (Parsed (List String))
  | .word w :: .comma :: rest => (selectedNames rest).map fun (names, rest) => (w :: names, rest)
  | ts => (identifier "column name" ts).map fun (w, rest) => ([w], rest)

def projection : List Token → Except SqlError (Parsed Projection)
  | .star :: rest => .ok (.all, rest)
  | ts => (selectedNames ts).map fun (names, rest) => (.columns names, rest)

/-- A condition, if there is one, and the number of its placeholders. -/
def filter (ts : List Token) : Except SqlError (Parsed (Option Filter × Nat)) :=
  if isKeywordNext "WHERE" ts then do
    let ts ← keyword "WHERE" ts
    let (column, ts) ← identifier "column name" ts
    let ts ← mark .equals ts
    match ts with
    | [] => .error (endedBefore "a value")
    | t :: rest => do
      let (value, count) ← operand 0 t
      return ((some ⟨column, value⟩, count), rest)
  else .ok ((none, 0), ts)

/-- A statement behind its first word, and the number of its placeholders. -/
def create (ts : List Token) : Except SqlError (Parsed (Statement × Nat)) := do
  let ts ← keyword "TABLE" ts
  let ifAbsent := isKeywordNext "IF" ts
  let ts ← if ifAbsent then
      keyword "IF" ts >>= keyword "NOT" >>= keyword "EXISTS"
    else .ok ts
  let (table, ts) ← identifier "table name" ts
  let ts ← mark .openParen ts
  let (columns, ts) ← columnDefinitions 0 true ts
  return ((.create table columns ifAbsent, 0), ts)

@[inherit_doc create]
def insert (ts : List Token) : Except SqlError (Parsed (Statement × Nat)) := do
  let ts ← keyword "INTO" ts
  let (table, ts) ← identifier "table name" ts
  let (columns, ts) ← mark .openParen ts >>= columnNames
  let ts ← keyword "VALUES" ts
  let ((values, count), ts) ← mark .openParen ts >>= operands 0
  if columns.length = values.length then return ((.insert table columns values, count), ts)
  else .error (.arity columns.length values.length)

@[inherit_doc create]
def select (ts : List Token) : Except SqlError (Parsed (Statement × Nat)) := do
  let (projection, ts) ← projection ts
  let ts ← keyword "FROM" ts
  let (table, ts) ← identifier "table name" ts
  let ((filter, count), ts) ← filter ts
  return ((.select table projection filter, count), ts)

@[inherit_doc create]
def delete (ts : List Token) : Except SqlError (Parsed (Statement × Nat)) := do
  let ts ← keyword "FROM" ts
  let (table, ts) ← identifier "table name" ts
  let ((filter, count), ts) ← filter ts
  return ((.delete table filter, count), ts)

/-- The statement that a list of tokens begins with. -/
def leadingStatement : List Token → Except SqlError (Parsed (Statement × Nat))
  | [] => .error .empty
  | t :: rest =>
    if t.spells "CREATE" then create rest
    else if t.spells "INSERT" then insert rest
    else if t.spells "SELECT" then select rest
    else if t.spells "DELETE" then delete rest
    else .error (.unsupported t.describe)

/-- The statement that a list of tokens is, and the number of its placeholders. -/
def statement (ts : List Token) : Except SqlError (Statement × Nat) := do
  let (parsed, rest) ← leadingStatement ts
  match rest with
  | [] => return parsed
  | t :: _ => .error (misplaced t.describe "end of statement")

/-- The statement of a text. -/
def parse (sql : String) : Except SqlError (Statement × Nat) :=
  (tokenize sql.toList).bind statement

/-- The statement of a text, if there are as many bound values as placeholders. -/
def prepare (sql : String) (bound : List Json) : Except SqlError Statement := do
  let (statement, placeholders) ← parse sql
  if placeholders = bound.length then return statement
  else .error (.bindings placeholders bound.length)

end Accord.Sql
