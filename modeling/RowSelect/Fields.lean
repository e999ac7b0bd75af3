/-!
Named values in order. Inserting under a name that is already there replaces the value and keeps the
place, so a list built by insertion names nothing twice.
-/

set_option autoImplicit false

namespace RowSelect

abbrev Fields (α : Type) := List (String × α)

namespace Fields

variable {α β : Type}

def names (fs : Fields α) : List String := fs.map Prod.fst

def get? (fs : Fields α) (name : String) : Option α := fs.lookup name

def insert (fs : Fields α) (name : String) (value : α) : Fields α :=
  match fs with
  | [] => [(name, value)]
  | (n, v) :: rest => if n = name then (n, value) :: rest else (n, v) :: insert rest name value

def extend (fs more : Fields α) : Fields α := more.foldl (fun acc m => insert acc m.1 m.2) fs

/-- The pairs with each name once, at its first place and with its last value. -/
def ofList (pairs : List (String × α)) : Fields α := extend [] pairs

end Fields

end RowSelect
