import RowSelect.Json.Printer

/-!
The rows of a result as cells under a common header.
-/

set_option autoImplicit false

namespace RowSelect.Report

def header (rows : List (Fields Json)) : List String := (rows.flatMap Fields.names).eraseDups

/-- The text of a cell: a string as it is, any other value as JSON, nothing for a missing one. -/
def cellText : Option Json → List Char
  | none => []
  | some (.string s) => s.toList
  | some v => v.writeCompact

def cells (names : List String) (row : Fields Json) : List (List Char) :=
  names.map fun name => cellText (Fields.get? row name)

end RowSelect.Report
