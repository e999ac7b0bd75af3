/-!
Values of a YAML text, with scalars as they are written.
-/

set_option autoImplicit false

namespace RowSelect

namespace Yaml

inductive Style where
  | plain
  | single
  | double
  | literal
  | folded
  deriving DecidableEq, Repr

/-- What may stand before a value: an anchor, known by its number, and a tag in bytes. -/
structure Properties where
  anchor : Option Nat
  tag : Option (List UInt8)
  deriving DecidableEq, Repr

namespace Properties

def none : Properties := ⟨.none, .none⟩

def isNone (p : Properties) : Bool := p.anchor.isNone && p.tag.isNone

end Properties

end Yaml

inductive Yaml where
  | scalar (properties : Yaml.Properties) (text : String) (style : Yaml.Style)
  | sequence (properties : Yaml.Properties) (items : List Yaml)
  | mapping (properties : Yaml.Properties) (entries : List (Yaml × Yaml))
  | reference (anchor : Nat)
  deriving Repr

namespace Yaml

def nothing : Yaml := scalar .none "" .plain

def anchor? : Yaml → Option Nat
  | scalar p .. | sequence p _ | mapping p _ => p.anchor
  | reference _ => none

mutual

def nodes : Yaml → List Yaml
  | sequence p items => sequence p items :: nodesOfItems items
  | mapping p entries => mapping p entries :: nodesOfEntries entries
  | v => [v]

def nodesOfItems : List Yaml → List Yaml
  | [] => []
  | v :: rest => nodes v ++ nodesOfItems rest

def nodesOfEntries : List (Yaml × Yaml) → List Yaml
  | [] => []
  | (k, v) :: rest => nodes k ++ nodes v ++ nodesOfEntries rest

end

/-- The value itself, or the one in `root` that it refers to. Of several with the same anchor that
is the last. -/
def resolve (root : Yaml) : Yaml → Yaml
  | reference n => ((nodes root).findRev? fun v => v.anchor? == some n).getD nothing
  | v => v

end Yaml

end RowSelect
