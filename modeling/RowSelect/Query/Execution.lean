import RowSelect.Query.Grammar
import RowSelect.Query.Scan
import RowSelect.Query.Trace

/-!
Running a query on a database.

The first table is scanned with the condition of the query. Each further table adds its requested
columns to the rows found, from the record at the same position. `execute` is the outcome of the
traced run, so the two cannot disagree.
-/

set_option autoImplicit false

namespace RowSelect.Query

def parse (text : String) : Except SyntaxFault Statement := read text.toList

def traceParse (text : String) : Traced Statement := do
  let s ← Traced.ofExcept ((parse text).mapError .invalidSyntax)
  Traced.emit (.event (.parsed s.columns.length s.tables.length s.condition.isSome))
  return s

def traceAssociate (db : Database) (s : Statement) : Traced Selection := do
  let selection ← Traced.ofExcept (associate db s.tables s.columns)
  Traced.emit (.event (.associated selection.entries.length s.columns.length))
  return selection

def traceScan (name : String) (table : Table) (s : Selection) (p : Predicate) :
    Traced (List (Nat × Row)) :=
  let rows := scanIndexed name table s p
  Traced.within (.scan name) do
    Traced.emitAll ((failures table p).map fun (i, e) => .event (.rowPassedOver i e))
    Traced.emit (.returned rows.length)
    return rows

def findTable (db : Database) (name : String) : Traced Table :=
  match db.table? name with
  | some t => .ofExcept (.ok t)
  | none => .ofExcept (.error (.unknownReference (.noTable name)))

/-- Adds to each row the columns of the record at its position. A table that is too short adds
nothing. -/
def merge (rows : List (Nat × Row)) (extra : List Row) : List (Nat × Row) :=
  rows.map fun (i, row) =>
    match extra[i]? with
    | some more => (i, Fields.extend row more)
    | none => (i, row)

/-- Merges the further tables into the rows. One from which no column is requested is not
scanned. -/
def mergeTables (db : Database) (s : Selection) (rows : List (Nat × Row)) :
    List String → Traced (List (Nat × Row))
  | [] => return rows
  | name :: rest => do
    if ((s.columns? name).getD []).isEmpty then mergeTables db s rows rest
    else
      let extra ← traceScan name (← findTable db name) s .always
      mergeTables db s (merge rows (extra.map Prod.snd)) rest

def traceRun (db : Database) (text : String) : Traced (List Row) := do
  let statement ← traceParse text
  let selection ← traceAssociate db statement
  let predicate ← Traced.ofExcept (Predicate.build db statement.condition)
  Traced.emit (.event (.planned selection.entries.length (!predicate.isAlways)))
  match selection.tables with
  | [] => Traced.ofExcept (.error (.invalidSyntax .noTables))
  | first :: others =>
    let rows ← traceScan first (← findTable db first) selection predicate
    let rows ← mergeTables db selection rows others
    return rows.map Prod.snd

def traceExecute (db : Database) (text : String) : Traced (List Row) :=
  let run := traceRun db text
  let ending : List Signal :=
    match run.outcome with
    | .ok rows => [.returned rows.length, .event (.executed rows.length)]
    | .error e => [.event (.rejected e)]
  Traced.within (.query text) ⟨run.signals ++ ending, run.outcome⟩

def execute (db : Database) (text : String) : Except Failure (List Row) :=
  (traceExecute db text).outcome

def logOfQueries (db : Database) (level : Level) (texts : List String) : List LogEntry :=
  log level (texts.flatMap fun text => (traceExecute db text).signals)

end RowSelect.Query
