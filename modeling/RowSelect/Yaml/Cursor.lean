import RowSelect.Text.Utf8

/-!
Characters of a YAML text, and positions in it.
-/

set_option autoImplicit false

namespace RowSelect.Yaml

def isAllowed (c : Char) : Bool :=
  c == '\t' || c == '\n' || c == '\r' || ('\x20' ≤ c && c ≤ '\x7e') || c == '\x85' ||
    ('\xa0' ≤ c && c != '\ufffe' && c != '\uffff')

def isBreak (c : Char) : Bool :=
  c == '\n' || c == '\r' || c == '\x85' || c == '\u2028' || c == '\u2029'

def isGap (c : Char) : Bool := c == ' ' || c == '\t'

def gapNext : List Char → Bool
  | [] => true
  | c :: _ => isGap c || isBreak c

def isFlowMark (c : Char) : Bool := c == ',' || c == '[' || c == ']' || c == '\x7b' || c == '\x7d'

def isNameChar (c : Char) : Bool := c.isAlphanum || c == '_' || c == '-'

/-- The text with one line feed for every line break of two characters or of another kind. A line or
paragraph separator stays what it is. -/
def normalizeBreaks : List Char → List Char
  | '\r' :: '\n' :: rest => '\n' :: normalizeBreaks rest
  | '\r' :: rest => '\n' :: normalizeBreaks rest
  | '\x85' :: rest => '\n' :: normalizeBreaks rest
  | c :: rest => c :: normalizeBreaks rest
  | [] => []

structure Place where
  line : Nat
  column : Nat
  bytes : Nat
  deriving DecidableEq, Repr

namespace Place

def start : Place := ⟨0, 0, 0⟩

def after (p : Place) (c : Char) : Place := ⟨p.line, p.column + 1, p.bytes + c.utf8Size⟩

def behind (p : Place) (cs : List Char) : Place :=
  ⟨p.line, p.column + cs.length, p.bytes + Text.utf8Length cs⟩

def nextLine (p : Place) : Place := ⟨p.line + 1, 0, 0⟩

end Place

structure Cursor where
  rest : List Char
  place : Place
  deriving DecidableEq, Repr

namespace Cursor

def column (c : Cursor) : Nat := c.place.column

def advance (c : Cursor) (n : Nat) : Cursor := ⟨c.rest.drop n, c.place.behind (c.rest.take n)⟩

def advanceWhile (c : Cursor) (p : Char → Bool) : Cursor := c.advance (c.rest.takeWhile p).length

/-- Passes over what may stand at the end of a line: white space and a comment. If nothing else is
left of the line, this is the start of the next one. -/
def endLine? (c : Cursor) : Option Cursor :=
  let c := c.advanceWhile isGap
  let c := if c.rest.head? = some '#' then c.advanceWhile (!isBreak ·) else c
  match c.rest with
  | [] => some c
  | d :: rest => if isBreak d then some ⟨rest, c.place.nextLine⟩ else none

def atMarker (c : Cursor) : Bool :=
  c.column == 0 &&
    match c.rest with
    | '-' :: '-' :: '-' :: rest | '.' :: '.' :: '.' :: rest => gapNext rest
    | _ => false

end Cursor

end RowSelect.Yaml
