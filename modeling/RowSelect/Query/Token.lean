import RowSelect.Text.Utf8

/-!
The tokens of a query.
-/

set_option autoImplicit false

namespace RowSelect.Query

inductive Operator where
  | eq
  | lt
  | gt
  | le
  | ge
  deriving DecidableEq, Repr

namespace Operator

def symbol : Operator → String
  | eq => "="
  | lt => "<"
  | gt => ">"
  | le => "<="
  | ge => ">="

def holds : Operator → Ordering → Bool
  | eq, o => o == .eq
  | lt, o => o == .lt
  | gt, o => o == .gt
  | le, o => o != .gt
  | ge, o => o != .lt

def flip : Operator → Operator
  | eq => eq
  | lt => gt
  | gt => lt
  | le => ge
  | ge => le

end Operator

inductive Token where
  | word (text : String)
  /-- A number as it is written, with any separators between its digits. -/
  | number (text : String)
  | literal (text : String)
  | comma
  | semicolon
  | operator (op : Operator)
  | other (c : Char)
  deriving DecidableEq, Repr

def Token.display : Token → String
  | word s => "'" ++ s ++ "'"
  | number s => "number " ++ s
  | literal s => "string '" ++ s ++ "'"
  | comma => "','"
  | semicolon => "';'"
  | operator op => "'" ++ op.symbol ++ "'"
  | other c => "'" ++ c.toString ++ "'"

structure Located where
  offset : Nat
  token : Token
  deriving DecidableEq, Repr

end RowSelect.Query
