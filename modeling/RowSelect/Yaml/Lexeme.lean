import RowSelect.Yaml

/-!
The lexical elements of a YAML text, layout included: indentation opens and closes block
collections, and a value with a colon behind it is a key.
-/

set_option autoImplicit false

namespace RowSelect.Yaml

inductive Lexeme where
  | version
  /-- The declaration of a handle, which the tags of the text have been read by. -/
  | handle
  | documentStart
  | documentEnd
  | blockSequence
  | blockMapping
  | blockEnd
  | blockEntry
  | openSequence
  | closeSequence
  | openMapping
  | closeMapping
  | comma
  | key
  | value
  | anchor (number : Nat)
  | reference (anchor : Nat)
  | tag (bytes : List UInt8)
  | scalar (text : String) (style : Style)
  deriving DecidableEq, Repr

end RowSelect.Yaml
