import RowSelect.Database
import RowSelect.Failure

/-!
The columns that a query requests, grouped by table and checked against a database.
-/

set_option autoImplicit false

namespace RowSelect.Query

structure Selection where
  entries : Fields (List String)
  deriving DecidableEq, Repr

namespace Selection

def empty : Selection := ⟨[]⟩

def columns? (s : Selection) (table : String) : Option (List String) := Fields.get? s.entries table

def tables (s : Selection) : List String := Fields.names s.entries

def addTable (db : Database) (s : Selection) (table : String) : Except Failure Selection :=
  if table ∈ s.tables then .error (.invalidSyntax (.repeatedTable table))
  else if (db.table? table).isNone then .error (.unknownReference (.noTable table))
  else .ok ⟨s.entries ++ [(table, [])]⟩

def push (s : Selection) (table column : String) : Selection :=
  ⟨s.entries.map fun (t, cs) => if t = table then (t, cs ++ [column]) else (t, cs)⟩

def splitAtDot? (identifier : String) : Option (String × String) :=
  match identifier.toList.dropWhile (· != '.') with
  | [] => none
  | _ :: column => some (.ofList (identifier.toList.takeWhile (· != '.')), .ofList column)

def addColumn (db : Database) (s : Selection) (identifier : String) : Except Failure Selection :=
  match splitAtDot? identifier with
  | none => .error (.unknownReference (.unqualified identifier))
  | some (table, column) =>
    if table ∉ s.tables then .error (.unknownReference (.notListed table identifier))
    else
      match db.table? table with
      | none => .error (.unknownReference (.noTable table))
      | some t =>
        match t.hasColumn? column with
        | none => .error (.emptyTable table)
        | some false => .error (.unknownReference (.noColumn identifier))
        | some true => .ok (s.push table column)

end Selection

/-- The selection of columns from tables, or the first thing wrong with it: tables are checked
before columns, each from left to right. -/
def associate (db : Database) (tables columns : List String) : Except Failure Selection := do
  let s ← tables.foldlM (Selection.addTable db) .empty
  columns.foldlM (Selection.addColumn db) s

def Selection.toJson (s : Selection) : Json :=
  .object [("entries", .array (s.entries.map fun (t, cs) =>
    .array [.string t, .array (cs.map .string)]))]

end RowSelect.Query
