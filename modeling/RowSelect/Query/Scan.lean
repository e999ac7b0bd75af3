import RowSelect.Query.Predicate
import RowSelect.Query.Selection

/-!
Going through a table once: rows that a predicate keeps, cut down to the requested columns.
-/

set_option autoImplicit false

namespace RowSelect.Query

abbrev Row := Fields Json

/-- The requested columns of a record under their full names. A column that the record lacks is left
out, and one that is requested again changes nothing. -/
def project (table : String) (record : Record) (columns : List String) : Row :=
  .ofList (columns.filterMap fun c => (Fields.get? record c).map (table ++ "." ++ c, ·))

/-- Whether the predicate keeps a row. One that lies behind the end of a table is not kept. -/
def keeps (p : Predicate) (index : Nat) : Bool :=
  match p.evaluate index with
  | .ok b => b
  | .error _ => false

def scanIndexed (name : String) (table : Table) (s : Selection) (p : Predicate) :
    List (Nat × Row) :=
  table.records.zipIdx.filterMap fun (record, index) =>
    if keeps p index then some (index, project name record ((s.columns? name).getD [])) else none

def scan (name : String) (table : Table) (s : Selection) (p : Predicate) : List Row :=
  (scanIndexed name table s p).map Prod.snd

def failures (table : Table) (p : Predicate) : List (Nat × Failure) :=
  (List.range table.length).filterMap fun index =>
    match p.evaluate index with
    | .ok _ => none
    | .error e => some (index, e)

end RowSelect.Query
