import RowSelect.Yaml.Folding

/-!
Plain scalars. They have no quotes and end at a colon before white space, at a comment, or in a line
that is indented too little; within brackets at a mark of the collection too.
-/

set_option autoImplicit false

namespace RowSelect.Yaml

def plainEnds (flow : Bool) (indent : Nat) (c : Cursor) : Bool :=
  (!flow && c.column < indent) || c.atMarker || c.rest.head? == some '#'

/-- Continues a plain scalar. A tab is no indentation, and within brackets a colon right before
another mark is a fault. -/
def plainFrom (flow : Bool) (indent : Nat) (p : Progress) : List Char → Option Span
  | [] => some ⟨p.text.reverse, p.cursor [], p.gap.isSplit⟩
  | c :: rest =>
    if isGap c then
      if p.gap.isSplit ∧ p.place.column < indent ∧ c = '\t' then none
      else plainFrom flow indent (p.blank c) rest
    else if isBreak c then plainFrom flow indent (p.lineBreak c) rest
    else if ¬p.gap.isEmpty ∧ plainEnds flow indent (p.cursor (c :: rest)) then
      some ⟨p.text.reverse, p.cursor (c :: rest), p.gap.isSplit⟩
    else if flow ∧ c = ':' ∧ rest.head?.any (fun d => isFlowMark d || d == '?') then none
    else if (c = ':' ∧ gapNext rest) ∨ (flow ∧ isFlowMark c) then
      some ⟨p.text.reverse, p.cursor (c :: rest), p.gap.isSplit⟩
    else plainFrom flow indent (p.put c [c]) rest

def plainScalar (flow : Bool) (indent : Nat) (c : Cursor) : Option Span :=
  plainFrom flow indent (.start c) c.rest

end RowSelect.Yaml
