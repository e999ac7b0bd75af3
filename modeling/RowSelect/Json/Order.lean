import RowSelect.Json

/-!
The order of JSON scalars. Values of different kinds, arrays and objects have none.
-/

set_option autoImplicit false

namespace RowSelect.Json

/-- The order of two scalars of one kind: numbers by `Number.compare?`, strings by their characters,
`false` before `true`. -/
def compare? : Json → Json → Option Ordering
  | .number a, .number b => a.compare? b
  | .string a, .string b => some (compare a b)
  | .bool a, .bool b => some (compare a b)
  | .null, .null => some .eq
  | _, _ => none

end RowSelect.Json
