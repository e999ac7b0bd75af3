import RowSelect.Proofs.Outcome
import RowSelect.Query.Scan

/-!
Conditions read directly off the tables, without binding them first. A bound condition keeps exactly
the positions that satisfy it.
-/

set_option autoImplicit false

namespace RowSelect.Query

def cell? (db : Database) (table column : String) (index : Nat) : Option Json :=
  (db.table? table).bind fun t =>
    t.records[index]?.bind fun record => Fields.get? record column

def Operand.value? (db : Database) : Operand → Nat → Option Json
  | .column ref, index => cell? db ref.table ref.column index
  | .literal v, _ => some v

/-- Both sides have a value at the position, the two have an order, and it suits the operator. -/
def Satisfies (db : Database) (c : Condition) (index : Nat) : Prop :=
  ∃ a b o, cell? db c.left.table c.left.column index = some a ∧
    c.right.value? db index = some b ∧ a.compare? b = some o ∧ c.operator.holds o = true

instance (db : Database) (c : Condition) (index : Nat) : Decidable (Satisfies db c index) :=
  decidable_of_iff
    ((cell? db c.left.table c.left.column index).any fun a =>
      (c.right.value? db index).any fun b => (a.compare? b).any c.operator.holds)
    (by simp only [Option.any_eq_true, Satisfies]; grind)

theorem Column.resolve_eq_ok_iff {db : Database} {ref : ColumnRef} {col : Column} :
    Column.resolve db ref = .ok col ↔
      ∃ t, db.table? ref.table = some t ∧ t.hasColumn? ref.column = some true ∧
        col = ⟨ref.table, t, ref.column⟩ := by
  unfold Column.resolve
  cases hdb : db.table? ref.table with
  | none => simp
  | some t =>
    cases hc : t.hasColumn? ref.column with
    | none => simp [hc]
    | some has => cases has <;> simp [hc, eq_comm]

theorem Column.value_eq_ok_some_iff {db : Database} {ref : ColumnRef} {col : Column}
    (h : Column.resolve db ref = .ok col) (index : Nat) (v : Json) :
    col.value index = .ok (some v) ↔ cell? db ref.table ref.column index = some v := by
  obtain ⟨t, hdb, -, rfl⟩ := Column.resolve_eq_ok_iff.1 h
  cases hr : t.records[index]? <;> simp [Column.value, cell?, hdb, hr]

def Operand.bind (db : Database) : Operand → Except Failure Comparand
  | .column ref => do
    let col ← Column.resolve db ref
    return .column col
  | .literal v => .ok (.literal v)

theorem Operand.value?_eq_some_iff {db : Database} {operand : Operand} {x : Comparand}
    (h : operand.bind db = .ok x) (index : Nat) (v : Json) :
    x.value index = .ok (some v) ↔ operand.value? db index = some v := by
  cases operand with
  | literal w =>
    cases h
    simp [Comparand.value, Operand.value?]
  | column ref =>
    obtain ⟨col, hcol, h⟩ := bind_eq_ok.1 h
    cases h
    exact Column.value_eq_ok_some_iff hcol index v

namespace Predicate

theorem build_some (db : Database) (c : Condition) :
    build db (some c) = (do
      let left ← Column.resolve db c.left
      let right ← c.right.bind db
      return compare left c.operator right) := by
  simp only [build]
  cases Column.resolve db c.left with
  | error e => rfl
  | ok left =>
    cases c.right with
    | literal v => rfl
    | column ref =>
      dsimp only [Operand.bind]
      cases Column.resolve db ref <;> rfl

theorem build_some_eq_ok_iff {db : Database} {c : Condition} {p : Predicate} :
    build db (some c) = .ok p ↔
      ∃ left right, Column.resolve db c.left = .ok left ∧ c.right.bind db = .ok right ∧
        p = compare left c.operator right := by
  rw [build_some, bind_eq_ok]
  constructor
  · intro h
    obtain ⟨left, hleft, h⟩ := h
    obtain ⟨right, hright, h⟩ := bind_eq_ok.1 h
    cases h
    exact ⟨left, right, hleft, hright, rfl⟩
  · intro h
    obtain ⟨left, right, hleft, hright, rfl⟩ := h
    refine ⟨left, hleft, ?_⟩
    rw [hright]
    rfl

theorem evaluate_compare_eq_ok_true_iff {left : Column} {op : Operator} {right : Comparand}
    {index : Nat} :
    (compare left op right).evaluate index = .ok true ↔
      ∃ a b o, left.value index = .ok (some a) ∧ right.value index = .ok (some b) ∧
        a.compare? b = some o ∧ op.holds o = true := by
  simp only [evaluate]
  cases hl : left.value index with
  | error e => simp
  | ok v =>
    cases v with
    | none => simp
    | some a =>
      cases hr : right.value index with
      | error e => simp
      | ok w =>
        cases w with
        | none => simp
        | some b => cases ho : a.compare? b <;> simp [ho]

end Predicate

theorem keeps_eq_true_iff {p : Predicate} {index : Nat} :
    keeps p index = true ↔ p.evaluate index = .ok true := by
  unfold keeps
  cases p.evaluate index <;> simp

theorem keeps_iff_satisfies {db : Database} {condition : Option Condition} {p : Predicate}
    (h : Predicate.build db condition = .ok p) (index : Nat) :
    keeps p index = true ↔ ∀ c ∈ condition, Satisfies db c index := by
  cases condition with
  | none =>
    cases h
    simp [keeps, Predicate.evaluate]
  | some c =>
    obtain ⟨left, right, hleft, hright, rfl⟩ := Predicate.build_some_eq_ok_iff.1 h
    rw [keeps_eq_true_iff, Predicate.evaluate_compare_eq_ok_true_iff]
    simp only [Option.mem_def, Option.some.injEq, forall_eq', Satisfies,
      Column.value_eq_ok_some_iff hleft, Operand.value?_eq_some_iff hright]

end RowSelect.Query
