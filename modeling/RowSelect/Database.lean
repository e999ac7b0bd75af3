import RowSelect.Json

/-!
Tables of records, and databases of named tables. Rows are told apart by position alone.
-/

set_option autoImplicit false

namespace RowSelect

abbrev Record := Fields Json

/-- A table is its records in order. Its columns are those of the first record. -/
structure Table where
  records : List Record
  deriving DecidableEq, Repr

namespace Table

def length (t : Table) : Nat := t.records.length

def isEmpty (t : Table) : Bool := t.records.isEmpty

def columns? (t : Table) : Option (List String) := t.records.head?.map Fields.names

def hasColumn? (t : Table) (column : String) : Option Bool :=
  t.records.head?.map fun first => (Fields.get? first column).isSome

end Table

/-- Puts a named table in its place in increasing order of names, or over the one of that name. -/
def insertOrdered (name : String) (table : Table) : Fields Table → Fields Table
  | [] => [(name, table)]
  | (n, t) :: rest =>
    if n = name then (name, table) :: rest
    else if name < n then (name, table) :: (n, t) :: rest
    else (n, t) :: insertOrdered name table rest

theorem mem_insertOrdered {name : String} {table : Table} {ts : Fields Table} {x : String × Table}
    (h : x ∈ insertOrdered name table ts) : x = (name, table) ∨ x ∈ ts := by
  fun_induction insertOrdered name table ts <;> grind

theorem pairwise_insertOrdered (name : String) (table : Table) {ts : Fields Table}
    (h : ts.Pairwise fun a b => a.1 < b.1) :
    (insertOrdered name table ts).Pairwise fun a b => a.1 < b.1 := by
  fun_induction insertOrdered name table ts with
  | case1 => simp
  | case2 t rest => simpa using h
  | case3 n t rest _ hlt =>
    refine List.pairwise_cons.2 ⟨fun x hx => ?_, h⟩
    rcases List.mem_cons.1 hx with rfl | hx
    · exact hlt
    · exact String.lt_trans hlt ((List.pairwise_cons.1 h).1 x hx)
  | case4 n t rest hne hge ih =>
    obtain ⟨hn, hrest⟩ := List.pairwise_cons.1 h
    refine List.pairwise_cons.2 ⟨fun x hx => ?_, ih hrest⟩
    rcases mem_insertOrdered hx with rfl | hx
    · exact Decidable.byContradiction fun hle =>
        hne (String.le_antisymm (String.not_lt.1 hge) (String.not_lt.1 hle))
    · exact hn x hx

/-- Named tables in increasing order of their names. -/
structure Database where
  tables : Fields Table
  ordered : tables.Pairwise fun a b => a.1 < b.1
  deriving DecidableEq, Repr

namespace Database

def empty : Database := ⟨[], .nil⟩

def insert (db : Database) (name : String) (table : Table) : Database :=
  ⟨insertOrdered name table db.tables, pairwise_insertOrdered name table db.ordered⟩

def table? (db : Database) (name : String) : Option Table := Fields.get? db.tables name

end Database

end RowSelect
