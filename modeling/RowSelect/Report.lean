import RowSelect.Report.Csv
import RowSelect.Report.Grid

/-!
The result of a query as text.
-/

set_option autoImplicit false

namespace RowSelect.Report

inductive Format where
  | table
  | json
  | csv
  deriving DecidableEq, Repr

def Format.name : Format → String
  | table => "table"
  | json => "json"
  | csv => "csv"

def Format.ofName? (name : String) : Option Format :=
  if name = "table" then some .table
  else if name = "json" then some .json
  else if name = "csv" then some .csv
  else none

/-- Why rows cannot be shown: for a failure to report, or for one that ends the program at once. -/
inductive Fault where
  | failure (e : Failure)
  | width (fault : Grid.WidthFault)
  deriving DecidableEq, Repr

def render (rows : List (Fields Json)) (format : Format) (color : Bool) : Except Fault String :=
  match format with
  | .table => ((Grid.write rows color).map String.ofList).mapError .width
  | .json => .ok (Json.array (rows.map .object)).pretty
  | .csv => ((Csv.write rows).map String.ofList).mapError fun e => .failure (.record e)

end RowSelect.Report
