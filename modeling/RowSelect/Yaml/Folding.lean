import RowSelect.Yaml.Cursor

/-!
Scalars over several lines.

A scalar that runs on over a line break has a space there; further line breaks, those of blank
lines, stay. White space around a break is dropped.
-/

set_option autoImplicit false

namespace RowSelect.Yaml

/-- White space within a scalar: the blanks of it if it has no line break, the line breaks, and
whether a line break that stands for nothing comes before it. -/
structure Gap where
  joined : Bool
  blanks : List Char
  breaks : List Char
  deriving DecidableEq, Repr

namespace Gap

def empty : Gap := ⟨false, [], []⟩

def isSplit (g : Gap) : Bool := g.joined || !g.breaks.isEmpty

def isEmpty (g : Gap) : Bool := !g.isSplit && g.blanks.isEmpty

def addBlank (g : Gap) (c : Char) : Gap :=
  if g.isSplit then g else { g with blanks := g.blanks ++ [c] }

def addBreak (g : Gap) (c : Char) : Gap := ⟨g.joined, [], g.breaks ++ [c]⟩

def folded (g : Gap) : List Char :=
  if g.joined then g.breaks
  else
    match g.breaks with
    | [] => g.blanks
    | ['\n'] => [' ']
    | '\n' :: more => more
    | breaks => breaks

end Gap

structure Span where
  text : List Char
  cursor : Cursor
  lineEnded : Bool
  deriving DecidableEq, Repr

/-- How far a scalar has been read: its characters from the last to the first, the white space after
them, and the place. -/
structure Progress where
  text : List Char
  gap : Gap
  place : Place
  deriving DecidableEq, Repr

namespace Progress

def start (c : Cursor) : Progress := ⟨[], .empty, c.place⟩

def blank (p : Progress) (c : Char) : Progress :=
  ⟨p.text, p.gap.addBlank c, p.place.after c⟩

def lineBreak (p : Progress) (c : Char) : Progress :=
  ⟨p.text, p.gap.addBreak c, p.place.nextLine⟩

def folded (p : Progress) : List Char := p.gap.folded.reverse ++ p.text

def put (p : Progress) (c : Char) (written : List Char) : Progress :=
  ⟨c :: p.folded, .empty, p.place.behind written⟩

def join (p : Progress) : Progress := ⟨p.folded, ⟨true, [], []⟩, p.place.nextLine⟩

def cursor (p : Progress) (rest : List Char) : Cursor := ⟨rest, p.place⟩

end Progress

end RowSelect.Yaml
