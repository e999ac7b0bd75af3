import RowSelect.Fields
import RowSelect.Yaml.Directive
import RowSelect.Yaml.Lexeme
import RowSelect.Yaml.Scalar.Block
import RowSelect.Yaml.Scalar.Plain
import RowSelect.Yaml.Scalar.Quoted

/-!
Reading the lexical elements of a YAML text.

Only a colon shows that what stands before it on the line is a key, so a place where a key may have
started is kept in mind, one outside brackets and one for each open bracket, and the elements that a
key needs are put in there later.
-/

set_option autoImplicit false

namespace RowSelect.Yaml

/-- A place where a key may have started, and how many elements come before it. -/
structure Candidate where
  place : Place
  position : Nat
  isNeeded : Bool
  deriving DecidableEq, Repr

def Candidate.isOver (k : Candidate) (c : Cursor) : Bool :=
  k.place.line < c.place.line || k.place.bytes + 1024 < c.place.bytes

structure Layout where
  cursor : Cursor
  indents : List Nat
  keyAllowed : Bool
  /-- Where a key may have started within the innermost bracket, and within the others and outside
  of them all. -/
  candidate : Option Candidate
  outer : List (Option Candidate)
  anchors : Fields Nat
  handles : List (List Char × List UInt8)
  found : List Lexeme
  deriving DecidableEq, Repr

namespace Layout

def start (text : List Char) : Layout := ⟨⟨text, .start⟩, [], true, none, [], [], [], []⟩

def inBrackets (l : Layout) : Bool := !l.outer.isEmpty

/-- Passes over white space and comments, and over a byte order mark at the start of a line. Where a
key may start outside brackets, a tab is none of the white space. -/
def skip (l : Layout) (comment : Bool) : List Char → Layout
  | [] => { l with cursor := { l.cursor with rest := [] } }
  | c :: rest =>
    let next (place : Place) : Layout := { l with cursor := ⟨rest, place⟩ }
    if isBreak c then
      { next l.cursor.place.nextLine with keyAllowed := l.keyAllowed || !l.inBrackets }.skip
        false rest
    else if comment ∨ c = ' ' ∨ (c = '\t' ∧ (l.inBrackets ∨ ¬l.keyAllowed)) ∨
        (c = '\ufeff' ∧ l.cursor.column = 0) then
      (next (l.cursor.place.after c)).skip comment rest
    else if c = '#' then (next (l.cursor.place.after c)).skip true rest
    else { l with cursor := ⟨c :: rest, l.cursor.place⟩ }

def add (l : Layout) (x : Lexeme) : Layout := { l with found := x :: l.found }

def insert (l : Layout) (position : Nat) (x : Lexeme) : Layout :=
  { l with found := l.found.insertIdx (l.found.length - position) x }

def advance (l : Layout) (n : Nat) (keyAllowed : Bool) : Layout :=
  { l with cursor := l.cursor.advance n, keyAllowed }

def unroll (l : Layout) (column : Option Nat) : Layout :=
  if l.inBrackets then l
  else
    let closed := l.indents.takeWhile fun i => column.all (· < i)
    { l with
      indents := l.indents.drop closed.length
      found := closed.map (fun _ => .blockEnd) ++ l.found }

def roll (l : Layout) (column position : Nat) (opening : Lexeme) : Layout :=
  if l.inBrackets ∨ l.indents.head?.any (column ≤ ·) then l
  else { l with indents := column :: l.indents }.insert position opening

def rollHere? (l : Layout) (opening : Lexeme) : Option Layout :=
  if l.inBrackets then some l
  else if l.keyAllowed then some (l.roll l.cursor.column l.found.length opening)
  else none

def dropKey? (l : Layout) : Option Layout :=
  if l.candidate.any (·.isNeeded) then none else some { l with candidate := none }

def expireKeys? (l : Layout) : Option Layout :=
  let isOver (k : Candidate) : Bool := k.isOver l.cursor
  if (l.candidate :: l.outer).any (·.any fun k => isOver k && k.isNeeded) then none
  else
    let keep (k : Option Candidate) : Option Candidate := k.filter (!isOver ·)
    some { l with candidate := keep l.candidate, outer := l.outer.map keep }

/-- Keeps this place in mind if a key may start here. In the column of the open block collection
nothing else may. -/
def keepKey? (l : Layout) : Option Layout :=
  if l.keyAllowed then
    let isNeeded := !l.inBrackets && l.indents.head? == some l.cursor.column
    l.dropKey?.map fun l =>
      { l with candidate := some ⟨l.cursor.place, l.found.length, isNeeded⟩ }
  else some l

def marker? (l : Layout) (c : Char) : Option Layout :=
  (l.unroll none).dropKey?.map fun l =>
    (l.advance 3 false).add (if c = '-' then .documentStart else .documentEnd)

def directiveLine? (l : Layout) : Option Layout := do
  let l ← (l.unroll none).dropKey?
  match ← directive? (l.cursor.advance 1) with
  | (.version, c) => return { l with cursor := c, keyAllowed := false }.add .version
  | (.handle h start, c) =>
    if (l.handles.lookup h).isSome then none
    else
      return { l with
        cursor := c, keyAllowed := false, handles := (h, start) :: l.handles }.add .handle

def openBracket? (l : Layout) (opening : Lexeme) : Option Layout :=
  l.keepKey?.map fun l =>
    { l.advance 1 true with candidate := none, outer := l.candidate :: l.outer }.add opening

def closeBracket? (l : Layout) (closing : Lexeme) : Option Layout :=
  l.dropKey?.map fun l =>
    let l := l.advance 1 false
    match l.outer with
    | [] => l.add closing
    | k :: outer => { l with candidate := k, outer }.add closing

def comma? (l : Layout) : Option Layout := l.dropKey?.map fun l => (l.advance 1 true).add .comma

def blockEntry? (l : Layout) : Option Layout := do
  let l ← (← l.rollHere? .blockSequence).dropKey?
  return (l.advance 1 true).add .blockEntry

def key? (l : Layout) : Option Layout := do
  let l ← (← l.rollHere? .blockMapping).dropKey?
  return (l.advance 1 (!l.inBrackets)).add .key

def value? (l : Layout) : Option Layout :=
  match l.candidate with
  | some k =>
    let l := (l.insert k.position .key).roll k.place.column k.position .blockMapping
    some ({ l.advance 1 false with candidate := none }.add .value)
  | none => (l.rollHere? .blockMapping).map fun l => (l.advance 1 (!l.inBrackets)).add .value

/-- An anchor, or a reference to one, behind its mark. An anchor's number is how many names are
known before it; a name that is given again takes a new number, which the next new name shares. -/
def anchor? (l : Layout) (isReference : Bool) : Option Layout := do
  let l ← l.keepKey?
  let name := (l.cursor.rest.drop 1).takeWhile isNameChar
  let l := l.advance (name.length + 1) false
  if name = [] ∨ ¬(gapNext l.cursor.rest ∨
      l.cursor.rest.head?.any ("?:,]\x7d%@\x60".toList.contains ·)) then none
  else if isReference then (Fields.get? l.anchors (.ofList name)).map fun n => l.add (.reference n)
  else
    let n := l.anchors.length
    return { l with anchors := Fields.insert l.anchors (.ofList name) n }.add (.anchor n)

def tagged? (l : Layout) : Option Layout := do
  let l ← l.keepKey?
  let (bytes, c) ← tag? l.handles l.inBrackets l.cursor
  return { l with cursor := c, keyAllowed := false }.add (.tag bytes)

def putScalar (l : Layout) (s : Span) (style : Style) : Layout :=
  { l with cursor := s.cursor, keyAllowed := s.lineEnded }.add (.scalar (.ofList s.text) style)

def plain? (l : Layout) : Option Layout := do
  let l ← l.keepKey?
  let indent := (l.indents.head?.map (· + 1)).getD 0
  return l.putScalar (← plainScalar l.inBrackets indent l.cursor) .plain

def quoted? (l : Layout) (double : Bool) : Option Layout := do
  let l ← l.keepKey?
  let s ← quotedScalar double (l.cursor.advance 1)
  return l.putScalar s (if double then .double else .single)

def block? (l : Layout) (isFolded : Bool) : Option Layout := do
  let l ← l.dropKey?
  let s ← blockScalar isFolded l.indents.head? (l.cursor.advance 1)
  return l.putScalar s (if isFolded then .folded else .literal)

def isIndicator (c : Char) : Bool := "-?:,[]\x7b\x7d#&*!|>'\"%@\x60".toList.contains c

def step? (l : Layout) (c : Char) (rest : List Char) : Option Layout :=
  let flow := l.inBrackets
  if c = '%' ∧ l.cursor.column = 0 then l.directiveLine?
  else if l.cursor.atMarker then l.marker? c
  else if c = '[' then l.openBracket? .openSequence
  else if c = '\x7b' then l.openBracket? .openMapping
  else if c = ']' then l.closeBracket? .closeSequence
  else if c = '\x7d' then l.closeBracket? .closeMapping
  else if c = ',' then l.comma?
  else if c = '-' ∧ gapNext rest then l.blockEntry?
  else if c = '?' ∧ (flow ∨ gapNext rest) then l.key?
  else if c = ':' ∧ (flow ∨ gapNext rest) then l.value?
  else if c = '*' then l.anchor? true
  else if c = '&' then l.anchor? false
  else if c = '!' then l.tagged?
  else if c = '|' ∧ ¬flow then l.block? false
  else if c = '>' ∧ ¬flow then l.block? true
  else if c = '\'' then l.quoted? false
  else if c = '"' then l.quoted? true
  else if (¬isIndicator c ∧ c ≠ '\t') ∨ c = '-' ∨ (¬flow ∧ (c = '?' ∨ c = ':')) then l.plain?
  else none

def finish? (l : Layout) : Option (List Lexeme) :=
  ((l.unroll none).dropKey?).map (·.found.reverse)

def elements? (l : Layout) : Nat → Option (List Lexeme)
  | 0 => none
  | fuel + 1 => do
    let l ← (l.skip false l.cursor.rest).expireKeys?
    let l := l.unroll (some l.cursor.column)
    match l.cursor.rest with
    | [] => l.finish?
    | c :: rest => elements? (← l.step? c rest) fuel

end Layout

def lexemes? (text : String) : Option (List Lexeme) :=
  let cs := text.toList
  if cs.all isAllowed then (Layout.start (normalizeBreaks cs)).elements? (cs.length + 1) else none

end RowSelect.Yaml
