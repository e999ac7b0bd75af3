import RowSelect.Query.CaseFolding
import RowSelect.Query.Statement

/-!
Reading statements and conditions.

    statement := "select" list "from" list [ "where" condition ] [ ";" ]
    list      := word { "," word }
    condition := qualified operator { noise } ( literal | number | qualified )
    noise     := operator | "," | ";" | any other character

Keywords are lower case here, so a query is case-folded first; `read` does both.
-/

set_option autoImplicit false

namespace RowSelect.Query

open RowSelect.Text

def keywords : List String := ["select", "from", "where"]

def minConditionLength : Nat := 3

def ColumnRef.ofWord? (word : String) : Option ColumnRef :=
  let cs := word.toList
  let table := cs.takeWhile (· != '.')
  match cs.dropWhile (· != '.') with
  | [] => none
  | _ :: column =>
    if table = [] ∨ column = [] ∨ '.' ∈ column then none
    else some ⟨.ofList table, .ofList column⟩

def numeralOfText? (text : List Char) : Option Numeral :=
  let whole := text.takeWhile fun c => c.isDigit || isSeparator c
  let digits := whole.filter Char.isDigit
  let starts := (text.head?.map Char.isDigit).getD false
  match text.dropWhile fun c => c.isDigit || isSeparator c with
  | [] => if starts then some ⟨false, digits, none, none⟩ else none
  | point :: fraction =>
    if starts ∧ point = '.' ∧ fraction ≠ [] ∧ fraction.all Char.isDigit then
      some ⟨false, digits, some fraction, none⟩
    else none

def readNumber (text : String) : Except SyntaxFault Json :=
  match (numeralOfText? text.toList).bind Number.ofNumeral? with
  | some n => .ok (.number n)
  | none => .error (.malformedNumber text)

def checkConditionLength (text : List Char) : Except SyntaxFault Unit :=
  if utf8Length (trim text) < minConditionLength then
    .error (.shortCondition (.ofList (trim text)))
  else .ok ()

def readList (what : Expected) : List Located → Except SyntaxFault (List String × List Located)
  | [] => .error (.expected what none)
  | ⟨_, .word w⟩ :: rest =>
    if w ∈ keywords then .error (.expected what (some (.word w)))
    else
      match rest with
      | ⟨_, .comma⟩ :: more =>
        match readList what more with
        | .ok (ws, tail) => .ok (w :: ws, tail)
        | .error e => .error e
      | _ => .ok ([w], rest)
  | ⟨_, t⟩ :: _ => .error (.expected what (some t))

/-- Whether a token may stand, without meaning, between an operator and its right operand. -/
def isNoise : Token → Bool
  | .operator _ | .comma | .semicolon | .other _ => true
  | _ => false

def readLeft : List Located → Except SyntaxFault (ColumnRef × List Located)
  | [] => .error .emptyCondition
  | ⟨_, .word w⟩ :: rest =>
    match ColumnRef.ofWord? w with
    | some ref => .ok (ref, rest)
    | none => .error (.leftNotQualified w)
  | ⟨_, .operator _⟩ :: _ => .error .noLeftOperand
  | ⟨_, t⟩ :: _ => .error (.leftNotWord t)

def readOperator : List Located → Except SyntaxFault (Operator × List Located)
  | ⟨_, .operator op⟩ :: rest => .ok (op, rest)
  | _ => .error .noOperator

def readRight : List Located → Except SyntaxFault (Operand × List Located)
  | [] => .error .noRightOperand
  | ⟨_, .literal s⟩ :: rest => .ok (.literal (.string s), rest)
  | ⟨_, .number s⟩ :: rest =>
    match readNumber s with
    | .ok v => .ok (.literal v, rest)
    | .error e => .error e
  | ⟨_, .word w⟩ :: rest =>
    match ColumnRef.ofWord? w with
    | some ref => .ok (.column ref, rest)
    | none => .error (.rightNotQualified w)
  | ⟨_, t⟩ :: _ => .error (.rightNotOperand t)

def readComparison (ts : List Located) : Except SyntaxFault (Condition × List Located) := do
  let (left, ts) ← readLeft ts
  let (operator, ts) ← readOperator ts
  let (right, ts) ← readRight (ts.dropWhile fun t => isNoise t.token)
  return (⟨left, operator, right⟩, ts)

def readEnd (ts : List Located) : Except SyntaxFault Unit :=
  let rest := match ts with
    | ⟨_, .semicolon⟩ :: rest => rest
    | _ => ts
  match rest with
  | [] => .ok ()
  | t :: _ => .error (.unexpected t.token t.offset)

def readSelect : List Located → Except SyntaxFault (List Located)
  | ⟨_, .word "select"⟩ :: rest => .ok rest
  | _ => .error .notSelect

def readFrom : List Located → Except SyntaxFault (List Located)
  | ⟨_, .word "from"⟩ :: rest => .ok rest
  | ts => .error (.expected .fromKeyword (ts.head?.map Located.token))

/-- The condition after `where`, if the keyword comes next. Its text is what stands behind the
keyword in the whole text. -/
def readWhere (text : List Char) :
    List Located → Except SyntaxFault (Option Condition × List Located)
  | ⟨offset, .word "where"⟩ :: rest => do
    checkConditionLength (dropBytes (offset + 5) text)
    let (condition, ts) ← readComparison rest
    return (some condition, ts)
  | ts => .ok (none, ts)

def readTokens (text : List Char) : Except SyntaxFault (List Located) :=
  match tokenize text with
  | .ok ts => .ok ts
  | .error offset => .error (.openQuote offset)

def readStatement (text : List Char) : Except SyntaxFault Statement := do
  let ts ← readTokens text
  let ts ← readSelect ts
  let (columns, ts) ← readList .column ts
  let ts ← readFrom ts
  let (tables, ts) ← readList .table ts
  let (condition, ts) ← readWhere text ts
  readEnd ts
  return ⟨columns, tables, condition⟩

def readCondition (text : List Char) : Except SyntaxFault Condition := do
  checkConditionLength text
  let ts ← readTokens text
  let (condition, ts) ← readComparison ts
  readEnd ts
  return condition

def read (text : List Char) : Except SyntaxFault Statement :=
  match foldCase (trim text) with
  | .ok folded => readStatement folded
  | .error offset => .error (.openQuote offset)

end RowSelect.Query
