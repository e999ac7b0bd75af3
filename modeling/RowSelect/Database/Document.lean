import RowSelect.Database
import RowSelect.Failure
import RowSelect.Json.Reader

/-!
Databases as JSON documents: an object whose members are tables, each an array of records.
-/

set_option autoImplicit false

namespace RowSelect

def readRecords (name : String) (index : Nat) : List Json → Except SchemaFault (List Record)
  | [] => .ok []
  | .object members :: rest =>
    match readRecords name (index + 1) rest with
    | .ok records => .ok (members :: records)
    | .error e => .error e
  | row :: _ => .error (.notRecord index name row)

def Table.ofJson (name : String) : Json → Except SchemaFault Table
  | .array rows => (readRecords name 0 rows).map Table.mk
  | _ => .error (.notRecords name)

def Table.toJson (t : Table) : Json := .array (t.records.map .object)

namespace Database

/-- Adds tables in the order of the document; the first that is none is the fault. -/
def addMembers (db : Database) : List (String × Json) → Except SchemaFault Database
  | [] => .ok db
  | (name, v) :: rest =>
    match Table.ofJson name v with
    | .ok table => addMembers (db.insert name table) rest
    | .error e => .error e

def ofJson : Json → Except SchemaFault Database
  | .object members => addMembers empty members
  | _ => .error .notTables

def toJson (db : Database) : Json := .object (db.tables.map fun (name, t) => (name, t.toJson))

def recordOfDocument? : Json → Option Record
  | .object members => some (.ofList (Json.distinctMembers members))
  | _ => none

def tableOfDocument? : Json → Option Table
  | .array rows => (rows.mapM recordOfDocument?).map Table.mk
  | _ => none

/-- Reads a database straight from a document, members repeated as written. Every member has to be a
table, also one that a later member of its name replaces. -/
def ofDocument? : Json → Option Database
  | .object members =>
    members.foldlM (fun db (name, v) => (tableOfDocument? v).map (db.insert name)) empty
  | _ => none

def read (text : String) : Except Failure Database :=
  match Json.read? text with
  | none => .error .notJson
  | some v => (ofJson v).mapError .schema

end Database

end RowSelect
