import RowSelect.Yaml.Folding

/-!
Block scalars: the lines that are indented below a mark. A literal one keeps its line breaks; in a
folded one they become spaces, but not beside lines that are indented further.
-/

set_option autoImplicit false

namespace RowSelect.Yaml

inductive Chomping where
  | strip
  | clip
  | keep
  deriving DecidableEq, Repr

def Chomping.ofChar? (c : Char) : Option Chomping :=
  if c = '+' then some .keep else if c = '-' then some .strip else none

def indentDigit? (c : Char) : Option Nat :=
  if c.isDigit ∧ c ≠ '0' then some (c.toNat - '0'.toNat) else none

/-- The marks behind the one that starts a block scalar, in either order, and how many they are. A
zero is not a mark, so the line does not end where one stands. -/
def blockMarks (cs : List Char) : Chomping × Option Nat × Nat :=
  match cs with
  | [] => (.clip, none, 0)
  | a :: rest =>
    let b := rest.head?
    match Chomping.ofChar? a, indentDigit? a with
    | some chomping, _ =>
      match b.bind indentDigit? with
      | some n => (chomping, some n, 2)
      | none => (chomping, none, 1)
    | none, some n =>
      match b.bind Chomping.ofChar? with
      | some chomping => (chomping, some n, 2)
      | none => (.clip, some n, 1)
    | none, none => (.clip, none, 0)

structure Block where
  isFolded : Bool
  indent : Option Nat
  least : Nat
  text : List Char
  lastBreak : List Char
  breaks : List Char
  spaced : Bool
  inLine : Bool
  place : Place
  deriving DecidableEq, Repr

namespace Block

def beforeIndent (b : Block) : Bool := b.indent.all (b.place.column < ·)

def space (b : Block) : Block :=
  { b with place := b.place.after ' ', least := max b.least (b.place.column + 1) }

def blankLine (b : Block) (c : Char) : Block :=
  { b with breaks := b.breaks ++ [c], place := b.place.nextLine }

def put (b : Block) (c : Char) : Block := { b with text := c :: b.text, place := b.place.after c }

def endLine (b : Block) (c : Char) : Block :=
  { b with lastBreak := [c], inLine := false, place := b.place.nextLine }

def between (b : Block) (c : Char) : List Char :=
  if b.isFolded && b.lastBreak == ['\n'] && !b.spaced && !isGap c then
    if b.breaks = [] then [' '] else b.breaks
  else b.lastBreak ++ b.breaks

def startLine (b : Block) (c : Char) : Block :=
  { b with
    indent := some b.place.column
    text := c :: ((b.between c).reverse ++ b.text)
    lastBreak := []
    breaks := []
    spaced := isGap c
    inLine := true
    place := b.place.after c }

def finish (b : Block) (chomping : Chomping) (rest : List Char) : Span :=
  let tail := match chomping with
    | .strip => []
    | .clip => b.lastBreak
    | .keep => b.lastBreak ++ b.breaks
  ⟨b.text.reverse ++ tail, ⟨rest, b.place⟩, true⟩

/-- Continues a block scalar up to a line that is indented too little. A tab is no indentation. -/
def go (chomping : Chomping) (b : Block) : List Char → Option Span
  | [] => some (b.finish chomping [])
  | c :: rest =>
    if b.inLine then
      if isBreak c then go chomping (b.endLine c) rest else go chomping (b.put c) rest
    else if b.beforeIndent ∧ c = ' ' then go chomping b.space rest
    else if b.beforeIndent ∧ c = '\t' then none
    else if isBreak c then go chomping (b.blankLine c) rest
    else if b.place.column = b.indent.getD b.least then go chomping (b.startLine c) rest
    else some (b.finish chomping (c :: rest))

end Block

def blockScalar (isFolded : Bool) (parent : Option Nat) (c : Cursor) : Option Span :=
  let (chomping, increment, n) := blockMarks c.rest
  (c.advance n).endLine?.bind fun c =>
    let block : Block := {
      isFolded
      indent := increment.map (parent.getD 0 + ·)
      least := max 1 ((parent.map (· + 1)).getD 0)
      text := []
      lastBreak := []
      breaks := []
      spaced := false
      inLine := false
      place := c.place }
    block.go chomping c.rest

end RowSelect.Yaml
