import RowSelect.Json
import RowSelect.Query.Token

/-!
Statements `SELECT columns FROM tables [WHERE condition]`, and what can be wrong with the text of
one.
-/

set_option autoImplicit false

namespace RowSelect.Query

structure ColumnRef where
  table : String
  column : String
  deriving DecidableEq, Repr

/-- The right-hand side of a condition: a column, read in the same row position, or a value. -/
inductive Operand where
  | column (ref : ColumnRef)
  | literal (value : Json)
  deriving DecidableEq, Repr

structure Condition where
  left : ColumnRef
  operator : Operator
  right : Operand
  deriving DecidableEq, Repr

structure Statement where
  columns : List String
  tables : List String
  condition : Option Condition
  deriving DecidableEq, Repr

def Condition.rightTable? (c : Condition) : Option String :=
  match c.right with
  | .column ref => some ref.table
  | .literal _ => none

def Operand.toJson : Operand → Json
  | .column ref =>
    .object [("column", .object [("table", .string ref.table), ("column", .string ref.column)])]
  | .literal v => .object [("literal", v)]

def Condition.toJson (c : Condition) : Json :=
  .object [
    ("left_table", .string c.left.table),
    ("left_column", .string c.left.column),
    ("operator", .string c.operator.symbol),
    ("right", c.right.toJson)]

def Statement.toJson (s : Statement) : Json :=
  .object [
    ("columns", .array (s.columns.map .string)),
    ("tables", .array (s.tables.map .string)),
    ("condition", (s.condition.map Condition.toJson).getD .null)]

inductive Expected where
  | column
  | table
  | fromKeyword
  deriving DecidableEq, Repr

def Expected.display : Expected → String
  | column => "column"
  | table => "table"
  | fromKeyword => "'from'"

inductive SyntaxFault where
  | notSelect
  | expected (what : Expected) (found : Option Token)
  | unexpected (token : Token) (offset : Nat)
  | openQuote (offset : Nat)
  | shortCondition (text : String)
  | emptyCondition
  | noLeftOperand
  | leftNotWord (token : Token)
  | leftNotQualified (word : String)
  | noOperator
  | noRightOperand
  | rightNotOperand (token : Token)
  | rightNotQualified (word : String)
  | malformedNumber (text : String)
  | repeatedTable (table : String)
  | noTables
  deriving DecidableEq, Repr

def SyntaxFault.message : SyntaxFault → String
  | notSelect => "query must start with SELECT"
  | expected what (some t) => "expected " ++ what.display ++ ", found " ++ t.display
  | expected what none => "expected " ++ what.display ++ ", found end of query"
  | unexpected t n => "unexpected " ++ t.display ++ " at byte " ++ toString n
  | openQuote n => "unterminated quote at byte " ++ toString n
  | shortCondition s => "condition '" ++ s ++ "' is too short"
  | emptyCondition => "empty condition"
  | noLeftOperand => "condition has no left operand"
  | leftNotWord t => "left operand must be table.column, found " ++ t.display
  | leftNotQualified w => "left operand '" ++ w ++ "' is not table.column"
  | noOperator => "missing comparison operator"
  | noRightOperand => "condition has no right operand"
  | rightNotOperand t => "invalid right operand " ++ t.display
  | rightNotQualified w => "right operand '" ++ w ++ "' is neither a literal nor table.column"
  | malformedNumber s => "malformed number '" ++ s ++ "'"
  | repeatedTable t => "table '" ++ t ++ "' is listed more than once in FROM"
  | noTables => "FROM lists no tables"

end RowSelect.Query
