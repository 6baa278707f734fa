import Accord.Store.Error

/-! # Tables

Named tables of rows. A row is an object with one field for each column of its table. -/
namespace Accord

/-- The fields of one row, by column. -/
abbrev Row := List (String × Json)

structure Table where
  /-- In the order of their definition; a name may be repeated. -/
  columns : List String
  /-- In the order of their insertion. -/
  rows : List Row

/-- All tables, by name. -/
abbrev Tables := List (String × Table)

namespace Table

def empty (columns : List String) : Table :=
  ⟨columns, []⟩

/-- Refuses the first of some columns that the table, called `name`, does not have. -/
def checkColumns (t : Table) (name : String) (columns : List String) : Except StoreError Unit :=
  match columns.find? fun column => !t.columns.contains column with
  | some column => .error (.unknownColumn column name)
  | none => .ok ()

/-- A row that is null in all columns. -/
def blankRow (t : Table) : Row :=
  Keyed.ofList (t.columns.map fun column => (column, Json.null))

/-- The row with these values in these columns and null in the others. -/
def rowOf (t : Table) (columns : List String) (values : List Json) : Row :=
  (columns.zip values).foldl (fun row entry => Keyed.put entry.1 entry.2 row) t.blankRow

end Table

/-- A column and the value that it must hold. -/
abbrev Condition := Option (String × Json)

/-- Whether a row meets a condition; without one, every row does. -/
def Row.meets (condition : Condition) (row : Row) : Bool :=
  match condition with
  | none => true
  | some (column, value) =>
    match Keyed.get? column row with
    | some held => held.same value
    | none => false

/-- The condition of a statement's filter on the table called `name`. -/
def Table.condition (t : Table) (name : String) (filter : Option Sql.Filter) (bound : List Json) :
    Except StoreError Condition :=
  match filter with
  | none => .ok none
  | some f => (t.checkColumns name [f.column]).map fun _ => some (f.column, f.value.resolve bound)

/-- The chosen columns of a row. -/
def Row.project (columns : List String) (row : Row) : Row :=
  Keyed.ofList (columns.map fun column => (column, (Keyed.get? column row).getD .null))

/-- What a statement that changes rows reports. -/
def affectedRows (n : Nat) : Json :=
  .object [("affectedRows", .natural n)]

namespace Tables

def find (name : String) (tables : Tables) : Except StoreError Table :=
  match Keyed.get? name tables with
  | some t => .ok t
  | none => .error (.noTable name)

def create (name : String) (columns : List String) (ifAbsent : Bool) (tables : Tables) :
    Except StoreError (Json × Tables) :=
  if !Keyed.contains name tables then
    .ok (affectedRows 0, Keyed.put name (Table.empty columns) tables)
  else if ifAbsent then .ok (affectedRows 0, tables)
  else .error (.tableExists name)

def insert (name : String) (columns : List String) (values : List Json) (tables : Tables) :
    Except StoreError (Json × Tables) := do
  let t ← find name tables
  t.checkColumns name columns
  let t := { t with rows := t.rows ++ [t.rowOf columns values] }
  return (affectedRows 1, Keyed.put name t tables)

def select (name : String) (projection : Sql.Projection) (filter : Option Sql.Filter)
    (bound : List Json) (tables : Tables) : Except StoreError Json := do
  let t ← find name tables
  let condition ← t.condition name filter bound
  match projection with
  | .all => return .array ((t.rows.filter (Row.meets condition)).map Json.object)
  | .columns columns =>
    t.checkColumns name columns
    return .array ((t.rows.filter (Row.meets condition)).map fun row =>
      .object (Row.project columns row))

def delete (name : String) (filter : Option Sql.Filter) (bound : List Json) (tables : Tables) :
    Except StoreError (Json × Tables) := do
  let t ← find name tables
  let condition ← t.condition name filter bound
  let kept := t.rows.filter fun row => !Row.meets condition row
  return (affectedRows (t.rows.length - kept.length), Keyed.put name { t with rows := kept } tables)

/-- Runs a statement: its result, and the tables after it. -/
def run (statement : Sql.Statement) (bound : List Json) (tables : Tables) :
    Except StoreError (Json × Tables) :=
  match statement with
  | .create table columns ifAbsent => create table columns ifAbsent tables
  | .insert table columns values => insert table columns (values.map (·.resolve bound)) tables
  | .select table projection filter =>
    (select table projection filter bound tables).map fun rows => (rows, tables)
  | .delete table filter => delete table filter bound tables

end Tables
end Accord
