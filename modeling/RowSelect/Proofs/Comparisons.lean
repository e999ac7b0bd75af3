import RowSelect.Proofs.References
import RowSelect.Proofs.ScalarOrder
import RowSelect.Proofs.SelectedRows

/-!
The rows of a table that a comparison keeps, for one operator and another. At each position the two
sides have an order or they have none; an operator picks positions by that order alone, so the
operators divide the rows among them, and exchanging the sides exchanges the operators.
-/

set_option autoImplicit false

namespace RowSelect.Query

def scanWhere (db : Database) (name : String) (table : Table) (s : Selection) (c : Condition) :
    Except Failure (List (Nat × Row)) := do
  let p ← Predicate.build db (some c)
  return scanIndexed name table s p

def orderAt? (db : Database) (left : ColumnRef) (right : Operand) (index : Nat) :
    Option Ordering :=
  (cell? db left.table left.column index).bind fun a =>
    (right.value? db index).bind fun b => a.compare? b

theorem satisfies_iff_orderAt? {db : Database} {c : Condition} {index : Nat} :
    Satisfies db c index ↔ (orderAt? db c.left c.right index).any c.operator.holds = true := by
  simp only [Satisfies, orderAt?, Option.any_eq_true, Option.bind_eq_some_iff]
  constructor
  · intro h
    obtain ⟨a, b, o, ha, hb, ho, hholds⟩ := h
    exact ⟨o, ⟨a, ha, b, hb, ho⟩, hholds⟩
  · intro h
    obtain ⟨o, ⟨a, ha, b, hb, ho⟩, hholds⟩ := h
    exact ⟨a, b, o, ha, hb, ho, hholds⟩

theorem isSome_orderAt?_iff {db : Database} {left : ColumnRef} {right : Operand} {index : Nat} :
    (orderAt? db left right index).isSome = true ↔
      ∃ a b, cell? db left.table left.column index = some a ∧ right.value? db index = some b ∧
        a.SameKind b := by
  simp only [orderAt?, Option.isSome_iff_exists, Option.bind_eq_some_iff,
    ← Json.isSome_compare?_iff]
  constructor
  · intro h
    obtain ⟨o, a, ha, b, hb, ho⟩ := h
    exact ⟨a, b, ha, hb, o, ho⟩
  · intro h
    obtain ⟨a, b, ha, hb, o, ho⟩ := h
    exact ⟨o, a, ha, b, hb, ho⟩

theorem orderAt?_swap (db : Database) (left right : ColumnRef) (index : Nat) :
    orderAt? db right (.column left) index =
      (orderAt? db left (.column right) index).map Ordering.swap := by
  simp only [orderAt?, Operand.value?]
  cases cell? db left.table left.column index with
  | none => cases cell? db right.table right.column index <;> rfl
  | some a =>
    cases cell? db right.table right.column index with
    | none => rfl
    | some b => exact a.compare?_swap b

theorem Operator.holds_flip_swap (op : Operator) (o : Ordering) :
    op.flip.holds o.swap = op.holds o := by
  cases op <;> cases o <;> rfl

section Scans

variable {db : Database} {name : String} {table : Table} {s : Selection}

theorem keeps_always (index : Nat) : keeps .always index = true := rfl

theorem scanIndexed_eq_filter (p : Predicate) :
    scanIndexed name table s p =
      (scanIndexed name table s .always).filter fun r => keeps p r.1 := by
  simp only [scanIndexed, keeps_always, if_true, List.filter_filterMap]
  refine List.filterMap_congr fun entry _ => ?_
  by_cases hkeeps : keeps p entry.2 = true <;> simp [Option.filter, hkeeps]

theorem positions_scanIndexed_always (name : String) (table : Table) (s : Selection) :
    (scanIndexed name table s .always).map Prod.fst = List.range table.length := by
  simp only [scanIndexed, keeps_always, if_true, List.map_filterMap, Option.map_some]
  rw [List.filterMap_eq_map', List.zipIdx_map_snd, ← List.range_eq_range', Table.length]

def rowsBy (db : Database) (name : String) (table : Table) (s : Selection) (left : ColumnRef)
    (right : Operand) (op : Operator) : List (Nat × Row) :=
  (scanIndexed name table s .always).filter fun r => (orderAt? db left right r.1).any op.holds

/-- A condition is bound if the database has both its sides; then a scan keeps the positions at
which their order suits the operator. -/
theorem scanWhere_eq_ok_iff {c : Condition} {rows : List (Nat × Row)} :
    scanWhere db name table s c = .ok rows ↔
      ((∃ col, Column.resolve db c.left = .ok col) ∧ ∃ x, c.right.bind db = .ok x) ∧
        rows = rowsBy db name table s c.left c.right c.operator := by
  have hscan : ∀ p, Predicate.build db (some c) = .ok p →
      scanIndexed name table s p = rowsBy db name table s c.left c.right c.operator := by
    intro p hp
    rw [scanIndexed_eq_filter, rowsBy]
    refine List.filter_congr fun r _ => Bool.eq_iff_iff.2 ?_
    rw [keeps_iff_satisfies hp, ← satisfies_iff_orderAt?]
    simp
  rw [scanWhere, bind_eq_ok]
  constructor
  · intro h
    obtain ⟨p, hp, hrows⟩ := h
    obtain ⟨left, right, hleft, hright, -⟩ := Predicate.build_some_eq_ok_iff.1 hp
    cases hrows
    exact ⟨⟨⟨left, hleft⟩, right, hright⟩, hscan p hp⟩
  · intro h
    obtain ⟨⟨⟨left, hleft⟩, right, hright⟩, rfl⟩ := h
    have hp := Predicate.build_some_eq_ok_iff.2 ⟨left, right, hleft, hright, rfl⟩
    exact ⟨_, hp, congrArg Except.ok (hscan _ hp)⟩

end Scans

/-- What the operators keep, taken together: each its rows in the order of the table, no position
under two of the strict operators and the equality, and the other two put together from these. -/
structure Divides (R : Operator → List (Nat × Row)) : Prop where
  ordered : ∀ op, (R op).Pairwise fun a b => a.1 < b.1
  lt_eq : ((R .lt).map Prod.fst).Disjoint ((R .eq).map Prod.fst)
  lt_gt : ((R .lt).map Prod.fst).Disjoint ((R .gt).map Prod.fst)
  eq_gt : ((R .eq).map Prod.fst).Disjoint ((R .gt).map Prod.fst)
  le : (R .le).Perm (R .lt ++ R .eq)
  ge : (R .ge).Perm (R .gt ++ R .eq)

theorem filter_or_perm {α : Type} {p q r : α → Bool} {xs : List α} (hr : ∀ x, r x = (p x || q x))
    (hpq : ∀ x, p x = true → q x = false) :
    (xs.filter r).Perm (xs.filter p ++ xs.filter q) := by
  have hp : (xs.filter r).filter p = xs.filter p := by
    rw [List.filter_filter]
    refine List.filter_congr fun x _ => ?_
    cases hx : p x <;> simp [hr, hx]
  have hq : (xs.filter r).filter (fun x => !p x) = xs.filter q := by
    rw [List.filter_filter]
    refine List.filter_congr fun x _ => ?_
    cases hx : p x
    · simp [hr, hx]
    · simp [hpq x hx]
  have hperm := List.filter_append_perm p (xs.filter r)
  rw [hp, hq] at hperm
  exact hperm.symm

section Operators

variable {db : Database} {name : String} {table : Table} {s : Selection} {left : ColumnRef}
  {right : Operand}

theorem mem_positions_rowsBy {op : Operator} {index : Nat} :
    index ∈ (rowsBy db name table s left right op).map Prod.fst ↔
      index < table.length ∧ (orderAt? db left right index).any op.holds = true := by
  rw [← List.mem_range, ← positions_scanIndexed_always name table s]
  simp only [rowsBy, List.mem_map, List.mem_filter]
  constructor
  · intro h
    obtain ⟨r, ⟨hr, hholds⟩, rfl⟩ := h
    exact ⟨⟨r, hr, rfl⟩, hholds⟩
  · intro h
    obtain ⟨⟨r, hr, rfl⟩, hholds⟩ := h
    exact ⟨r, ⟨hr, hholds⟩, rfl⟩

theorem divides_rowsBy : Divides (rowsBy db name table s left right) := by
  have hsplit {op op₁ op₂ : Operator} (hor : ∀ o, op.holds o = (op₁.holds o || op₂.holds o))
      (hone : ∀ o, op₁.holds o = true → op₂.holds o = false) :
      (rowsBy db name table s left right op).Perm
        (rowsBy db name table s left right op₁ ++ rowsBy db name table s left right op₂) := by
    refine filter_or_perm (fun r => ?_) fun r => ?_
    · cases orderAt? db left right r.1 <;> simp [hor]
    · cases orderAt? db left right r.1 with
      | none => simp
      | some o => simpa using hone o
  have hdisjoint {op₁ op₂ : Operator} (hone : ∀ o, op₁.holds o = true → op₂.holds o = false) :
      ((rowsBy db name table s left right op₁).map Prod.fst).Disjoint
        ((rowsBy db name table s left right op₂).map Prod.fst) := by
    intro index h₁ h₂
    have hholds := (mem_positions_rowsBy.1 h₁).2
    have hholds' := (mem_positions_rowsBy.1 h₂).2
    cases ho : orderAt? db left right index with
    | none => simp [ho] at hholds
    | some o => simp_all
  refine ⟨fun op => ?_, hdisjoint (by decide), hdisjoint (by decide), hdisjoint (by decide),
    hsplit (by decide) (by decide), hsplit (by decide) (by decide)⟩
  have hrange : ((scanIndexed name table s .always).map Prod.fst).Pairwise (· < ·) := by
    rw [positions_scanIndexed_always]
    exact List.pairwise_lt_range
  exact (List.pairwise_map.1 hrange).filter _

theorem rowsBy_flip (left right : ColumnRef) (op : Operator) :
    rowsBy db name table s right (.column left) op.flip =
      rowsBy db name table s left (.column right) op := by
  refine List.filter_congr fun r _ => ?_
  rw [orderAt?_swap]
  cases orderAt? db left (.column right) r.1 <;> simp [Operator.holds_flip_swap]

end Operators

/-- A condition on the database, scanned with each operator in turn. The less, the equal and the
greater rows are apart, and they are those at which both sides have values of one scalar kind; the
other two operators keep two of these together. With its sides exchanged, a comparison of columns is
bound to the database as before and keeps the same rows under the exchanged operator. -/
theorem scanWhere_divides (db : Database) (name : String) (table : Table) (s : Selection)
    (c : Condition) :
    ((∃ p, Predicate.build db (some c) = .ok p) → ∃ R : Operator → List (Nat × Row),
      (∀ op, scanWhere db name table s { c with operator := op } = .ok (R op)) ∧ Divides R ∧
      ∀ index, index ∈ (R .lt).map Prod.fst ∨ index ∈ (R .eq).map Prod.fst ∨
          index ∈ (R .gt).map Prod.fst ↔
        index < table.length ∧ ∃ a b, cell? db c.left.table c.left.column index = some a ∧
          c.right.value? db index = some b ∧ a.SameKind b) ∧
    ∀ ref, c.right = .column ref → ∀ rows,
      (scanWhere db name table s ⟨ref, c.operator.flip, .column c.left⟩ = .ok rows ↔
        scanWhere db name table s c = .ok rows) := by
  refine ⟨fun h => ?_, fun ref hright rows => ?_⟩
  · obtain ⟨p, hp⟩ := h
    obtain ⟨left, right, hleft, hright, -⟩ := Predicate.build_some_eq_ok_iff.1 hp
    refine ⟨rowsBy db name table s c.left c.right, fun op => ?_, divides_rowsBy, fun index => ?_⟩
    · exact scanWhere_eq_ok_iff.2 ⟨⟨⟨left, hleft⟩, right, hright⟩, rfl⟩
    · rw [← isSome_orderAt?_iff]
      simp only [mem_positions_rowsBy, ← and_or_left]
      refine and_congr_right fun _ => ?_
      cases orderAt? db c.left c.right index with
      | none => simp
      | some o => cases o <;> simp [Operator.holds]
  · rw [scanWhere_eq_ok_iff, scanWhere_eq_ok_iff, hright, rowsBy_flip, Operand.bind_column,
      Operand.bind_column]
    exact and_congr_left fun _ => and_comm

theorem scanWhere_divides_stock : ∃ t, stock.table? "a" = some t ∧
    (∃ R : Operator → List (Nat × Row),
      (∀ op, scanWhere stock "a" t ⟨[("a", ["x"])]⟩ ⟨⟨"a", "k"⟩, op, .literal (.string "q")⟩ =
        .ok (R op)) ∧ Divides R ∧ (1 ∈ (R .lt).map Prod.fst ∨ 1 ∈ (R .eq).map Prod.fst ∨
          1 ∈ (R .gt).map Prod.fst)) ∧
    scanWhere stock "a" t ⟨[("a", ["x"])]⟩ ⟨⟨"b", "y"⟩, .gt, .column ⟨"a", "k"⟩⟩ =
      .ok [(0, [("a.x", .null)])] := by
  refine ⟨_, rfl, ?_, ?_⟩
  · obtain ⟨h, -⟩ := scanWhere_divides stock "a" _ ⟨[("a", ["x"])]⟩
      ⟨⟨"a", "k"⟩, .le, .literal (.string "q")⟩
    obtain ⟨R, hR, hdivides, hunion⟩ := h ⟨_, rfl⟩
    refine ⟨R, hR, hdivides, (hunion 1).2 ⟨by decide, .string "r", .string "q", ?_⟩⟩
    exact ⟨by decide +kernel, rfl, .string ..⟩
  · obtain ⟨-, h⟩ := scanWhere_divides stock "a" _ ⟨[("a", ["x"])]⟩
      ⟨⟨"a", "k"⟩, .lt, .column ⟨"b", "y"⟩⟩
    exact (h _ rfl _).2 (eq_ok_of_toOption (by decide +kernel))

end RowSelect.Query
