import RowSelect.Database
import RowSelect.Failure
import RowSelect.Json.Order

/-!
Conditions bound to the tables of a database. Both sides of a comparison are read at the same
position, so two tables are aligned by position and not by a key.
-/

set_option autoImplicit false

namespace RowSelect.Query

structure Column where
  tableName : String
  table : Table
  column : String
  deriving DecidableEq, Repr

namespace Column

def resolve (db : Database) (ref : ColumnRef) : Except Failure Column :=
  match db.table? ref.table with
  | none => .error (.unknownReference (.noTable ref.table))
  | some t =>
    match t.hasColumn? ref.column with
    | none => .error (.emptyTable ref.table)
    | some false => .error (.unknownReference (.noColumn (ref.table ++ "." ++ ref.column)))
    | some true => .ok ⟨ref.table, t, ref.column⟩

def value (c : Column) (index : Nat) : Except Failure (Option Json) :=
  match c.table.records[index]? with
  | none => .error (.rowOutOfRange c.tableName index)
  | some record => .ok (Fields.get? record c.column)

end Column

inductive Comparand where
  | column (c : Column)
  | literal (v : Json)
  deriving DecidableEq, Repr

def Comparand.value : Comparand → Nat → Except Failure (Option Json)
  | column c, index => c.value index
  | literal v, _ => .ok (some v)

inductive Predicate where
  | always
  | compare (left : Column) (operator : Operator) (right : Comparand)
  deriving DecidableEq, Repr

namespace Predicate

def isAlways : Predicate → Bool
  | always => true
  | compare .. => false

/-- Binds a condition to the database. Its tables have to exist and to have the columns; the query
need not list them. -/
def build (db : Database) : Option Condition → Except Failure Predicate
  | none => .ok always
  | some c =>
    match Column.resolve db c.left with
    | .error e => .error e
    | .ok left =>
      match c.right with
      | .literal v => .ok (compare left c.operator (.literal v))
      | .column ref =>
        match Column.resolve db ref with
        | .error e => .error e
        | .ok right => .ok (compare left c.operator (.column right))

/-- Whether a row is kept. A record without the column does not match, and neither do values that
have no order. -/
def evaluate : Predicate → Nat → Except Failure Bool
  | always, _ => .ok true
  | compare left operator right, index =>
    match left.value index with
    | .error e => .error e
    | .ok none => .ok false
    | .ok (some a) =>
      match right.value index with
      | .error e => .error e
      | .ok none => .ok false
      | .ok (some b) => .ok (((a.compare? b).map operator.holds).getD false)

end Predicate

end RowSelect.Query
