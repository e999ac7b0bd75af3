import RowSelect.Yaml.Tag

/-!
Directives: lines before a document that start with a percent sign. They give the version of the
format or declare a handle of tags.
-/

set_option autoImplicit false

namespace RowSelect.Yaml

inductive Directive where
  | version
  | handle (handle : List Char) (start : List UInt8)
  deriving DecidableEq, Repr

def versionNumber? (c : Cursor) : Option (Nat × Cursor) :=
  let digits := c.rest.takeWhile Char.isDigit
  if digits = [] ∨ 9 < digits.length then none
  else some (digitsValue digits, c.advance digits.length)

def version? (c : Cursor) : Option Cursor := do
  let (major, c) ← versionNumber? c
  if c.rest.head? ≠ some '.' then none
  let (minor, c) ← versionNumber? (c.advance 1)
  if major = 1 ∧ (minor = 1 ∨ minor = 2) then some c else none

def declaration? (c : Cursor) : Option (Directive × Cursor) := do
  if c.rest.head? ≠ some '!' then none
  let used := handle c
  let c := c.advance used.length
  if ¬c.rest.head?.any isGap then none
  let (start, c) ← tagText? true (c.advanceWhile isGap)
  if gapNext c.rest then some (.handle used start, c) else none

def directive? (c : Cursor) : Option (Directive × Cursor) := do
  let name := c.rest.takeWhile isNameChar
  let c := c.advance name.length
  if ¬gapNext c.rest then none
  let c := c.advanceWhile isGap
  let (d, c) ←
    if name = "YAML".toList then (version? c).map (.version, ·)
    else if name = "TAG".toList then declaration? c
    else none
  return (d, ← c.endLine?)

end RowSelect.Yaml
