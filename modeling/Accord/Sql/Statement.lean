import Accord.Json.Basic

/-! # Statements

The statements that tables understand, and why a text is not one of them. -/
namespace Accord.Sql

/-- A value in a statement. -/
inductive Operand where
  /-- The bound value at this position, counted from zero. -/
  | placeholder (index : Nat)
  | literal (value : Json)

/-- Selects the rows whose column holds a value. -/
structure Filter where
  column : String
  value : Operand

inductive Projection where
  | all
  | columns (names : List String)

inductive Statement where
  | create (table : String) (columns : List String) (ifAbsent : Bool)
  | insert (table : String) (columns : List String) (values : List Operand)
  | select (table : String) (projection : Projection) (filter : Option Filter)
  | delete (table : String) (filter : Option Filter)

/-- Why a text cannot be prepared as a statement. -/
inductive SqlError where
  | empty
  | unsupported (word : String)
  | endedBefore (expected : String)
  | misplaced (found expected : String)
  | unclosedQuote
  | bindings (placeholders bound : Nat)
  | arity (columns values : Nat)
  deriving DecidableEq, Repr

def SqlError.message : SqlError → String
  | .empty => "empty statement"
  | .unsupported word => "unsupported statement: " ++ word
  | .endedBefore expected => "unexpected end of statement, expected " ++ expected
  | .misplaced found expected =>
    "unexpected token '" ++ found ++ "', expected " ++ expected
  | .unclosedQuote => "unterminated string literal"
  | .bindings placeholders bound =>
    "statement has " ++ toString placeholders ++ " placeholders but " ++ toString bound ++
      " values were bound"
  | .arity columns values =>
    toString columns ++ " columns but " ++ toString values ++ " values"

/-- The value of an operand; a position that nothing is bound to is null. -/
def Operand.resolve (bound : List Json) : Operand → Json
  | .placeholder index => bound[index]?.getD .null
  | .literal value => value

/-- The operands of a statement, from left to right. -/
def Statement.operands : Statement → List Operand
  | .create _ _ _ => []
  | .insert _ _ values => values
  | .select _ _ filter => filter.toList.map (·.value)
  | .delete _ filter => filter.toList.map (·.value)

def Statement.isRead : Statement → Bool
  | .select _ _ _ => true
  | _ => false

end Accord.Sql
