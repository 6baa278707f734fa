import Accord.Sql.Statement

/-! # Failures of the store -/
namespace Accord

/-- Why the store did not do what it was asked for. -/
inductive StoreError where
  | unavailable
  | statement (cause : Sql.SqlError)
  | noTable (table : String)
  | tableExists (table : String)
  | unknownColumn (column table : String)
  | noEntry (id : Nat)
  /-- The text kept under this id is no command. -/
  | unreadable (id : Nat) (reason : String)
  | diverged (expected assigned : Nat)
  /-- Any other failure, in words. -/
  | other (text : String)
  deriving DecidableEq, Repr

def StoreError.message : StoreError → String
  | .unavailable => "storage is unavailable"
  | .statement cause => "invalid statement: " ++ cause.message
  | .noTable table => "no such table: " ++ table
  | .tableExists table => "table '" ++ table ++ "' already exists"
  | .unknownColumn column table => "unknown column '" ++ column ++ "' in table '" ++ table ++ "'"
  | .noEntry id => "log entry " ++ toString id ++ " not found"
  | .unreadable id reason => "log entry " ++ toString id ++ " is corrupt: " ++ reason
  | .diverged expected assigned =>
    "log diverged: expected to append id " ++ toString expected ++ ", store assigned " ++
      toString assigned
  | .other text => text

end Accord
