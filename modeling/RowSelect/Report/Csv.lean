import RowSelect.Failure
import RowSelect.Report.Cells

/-!
Comma-separated values. A field is quoted only if it has to be, and a record that would leave its
line blank is a pair of quotes. All records of a text have the same number of fields.
-/

set_option autoImplicit false

namespace RowSelect.Report.Csv

def isSpecial (c : Char) : Bool := c == ',' || c == '"' || c == '\r' || c == '\n'

def writeField (field : List Char) : List Char :=
  if field.any isSpecial then
    '"' :: field.flatMap (fun c => if c = '"' then ['"', '"'] else [c]) ++ ['"']
  else field

def writeRecord (fields : List (List Char)) : List Char :=
  let line := [','].intercalate (fields.map writeField)
  if line = [] then ['"', '"'] else line

/-- Records of `count` fields, each on a line of its own. The first of another length is the
fault. -/
def writeLines (count : Nat) : List (List (List Char)) → Except RecordFault (List Char)
  | [] => .ok []
  | record :: rest =>
    if record.length = count then
      (writeLines count rest).map fun lines => writeRecord record ++ '\n' :: lines
    else .error ⟨record.length, count⟩

def writeRecords (records : List (List (List Char))) : Except RecordFault (List Char) :=
  writeLines (records.headD []).length records

def write (rows : List (Fields Json)) : Except RecordFault (List Char) :=
  let names := header rows
  let heading := if names = [] then [] else [names.map String.toList]
  writeRecords (heading ++ rows.map (cells names))

end RowSelect.Report.Csv
