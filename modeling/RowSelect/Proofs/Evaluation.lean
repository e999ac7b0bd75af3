import RowSelect.Proofs.SelectedRows

/-!
What evaluating a condition at a position comes to: a failure, where a table that the condition
refers to has ended, or a truth value. The left side is read first, and a record there without the
column settles the outcome before the right table is looked at.
-/

set_option autoImplicit false

namespace RowSelect.Query

def Beyond (db : Database) (table : String) (index : Nat) : Prop :=
  ∃ t, db.table? table = some t ∧ t.length ≤ index

def Lacks (db : Database) (ref : ColumnRef) (index : Nat) : Prop :=
  ∃ t record, db.table? ref.table = some t ∧ t.records[index]? = some record ∧
    Fields.get? record ref.column = none

/-- The position lies behind the last record of a table that the condition refers to. -/
def Condition.OutOfRange (db : Database) (c : Condition) (index : Nat) : Prop :=
  Beyond db c.left.table index ∨ ∃ table, c.rightTable? = some table ∧ Beyond db table index

instance (db : Database) (table : String) (index : Nat) : Decidable (Beyond db table index) :=
  decidable_of_iff ((db.table? table).any fun t => decide (t.length ≤ index))
    (by simp [Beyond, Option.any_eq_true])

instance (db : Database) (ref : ColumnRef) (index : Nat) : Decidable (Lacks db ref index) :=
  decidable_of_iff
    ((db.table? ref.table).any fun t => t.records[index]?.any fun record =>
      (Fields.get? record ref.column).isNone)
    (by simp only [Lacks, Option.any_eq_true, Option.isNone_iff_eq_none]; grind)

section Sides

variable {db : Database} {ref : ColumnRef} {col : Column} {index : Nat} {e : Failure}

theorem Lacks.not_beyond (h : Lacks db ref index) : ¬Beyond db ref.table index := by
  intro hbeyond
  obtain ⟨t, record, hdb, hrecord, -⟩ := h
  obtain ⟨u, hdb', hlength⟩ := hbeyond
  rw [hdb] at hdb'
  cases hdb'
  rw [List.getElem?_eq_none hlength] at hrecord
  cases hrecord

theorem Column.value_eq_error_iff (h : Column.resolve db ref = .ok col) :
    col.value index = .error e ↔
      Beyond db ref.table index ∧ e = .rowOutOfRange ref.table index := by
  obtain ⟨t, hdb, -, rfl⟩ := Column.resolve_eq_ok_iff.1 h
  cases hrecord : t.records[index]? with
  | none =>
    have hlength : t.length ≤ index := List.getElem?_eq_none_iff.1 hrecord
    simp [Column.value, Beyond, hdb, hrecord, hlength, eq_comm]
  | some record =>
    have hlength : ¬t.length ≤ index := by
      intro hle
      rw [List.getElem?_eq_none hle] at hrecord
      cases hrecord
    simp [Column.value, Beyond, hdb, hrecord, hlength]

theorem Column.value_eq_ok_none_iff (h : Column.resolve db ref = .ok col) :
    col.value index = .ok none ↔ Lacks db ref index := by
  obtain ⟨t, hdb, -, rfl⟩ := Column.resolve_eq_ok_iff.1 h
  cases hrecord : t.records[index]? <;> simp [Column.value, Lacks, hdb, hrecord]

theorem Comparand.value_eq_error_iff {c : Condition} {x : Comparand}
    (h : c.right.bind db = .ok x) :
    x.value index = .error e ↔
      ∃ table, c.rightTable? = some table ∧ Beyond db table index ∧
        e = .rowOutOfRange table index := by
  unfold Condition.rightTable?
  cases hright : c.right with
  | literal v =>
    rw [hright] at h
    cases h
    simp [Comparand.value]
  | column ref =>
    rw [hright] at h
    obtain ⟨col, hcol, h⟩ := bind_eq_ok.1 h
    cases h
    simp [Comparand.value, Column.value_eq_error_iff hcol]

end Sides

namespace Predicate

theorem evaluate_compare_eq_error_iff {left : Column} {op : Operator} {right : Comparand}
    {index : Nat} {e : Failure} :
    (compare left op right).evaluate index = .error e ↔
      left.value index = .error e ∨
        ∃ a, left.value index = .ok (some a) ∧ right.value index = .error e := by
  simp only [evaluate]
  cases hleft : left.value index with
  | error e' => simp
  | ok v =>
    cases v with
    | none => simp
    | some a =>
      cases hright : right.value index with
      | error e' => simp
      | ok w => cases w <;> simp

section Outcomes

variable {db : Database} {c : Condition} {p : Predicate} {index : Nat} {e : Failure}

/-- The left table is the first to end the evaluation. The right one does so only where the left side
has a value. -/
theorem evaluate_eq_error_iff (h : build db (some c) = .ok p) :
    p.evaluate index = .error e ↔
      Beyond db c.left.table index ∧ e = .rowOutOfRange c.left.table index ∨
      ¬Beyond db c.left.table index ∧ ¬Lacks db c.left index ∧
        ∃ table, c.rightTable? = some table ∧ Beyond db table index ∧
          e = .rowOutOfRange table index := by
  obtain ⟨left, right, hleft, hright, rfl⟩ := build_some_eq_ok_iff.1 h
  have hvalue : (∃ a, left.value index = .ok (some a)) ↔
      ¬Beyond db c.left.table index ∧ ¬Lacks db c.left index := by
    rw [← Column.value_eq_ok_none_iff hleft]
    cases hv : left.value index with
    | error e' => simp [((Column.value_eq_error_iff hleft).1 hv).1]
    | ok v =>
      have hin : ¬Beyond db c.left.table index := by
        intro hbeyond
        rw [(Column.value_eq_error_iff hleft).2 ⟨hbeyond, rfl⟩] at hv
        cases hv
      cases v <;> simp [hin]
  rw [evaluate_compare_eq_error_iff, Column.value_eq_error_iff hleft,
    Comparand.value_eq_error_iff hright, exists_and_right, hvalue, and_assoc]

theorem evaluate_eq_ok_true_iff (h : build db (some c) = .ok p) :
    p.evaluate index = .ok true ↔ Satisfies db c index := by
  rw [← keeps_eq_true_iff, keeps_iff_satisfies h]
  simp

theorem exists_evaluate_eq_error_iff (h : build db (some c) = .ok p) :
    (∃ table, p.evaluate index = .error (.rowOutOfRange table index)) ↔
      c.OutOfRange db index ∧ ¬Lacks db c.left index := by
  simp only [evaluate_eq_error_iff h, Condition.OutOfRange]
  constructor
  · intro hfails
    obtain ⟨table, ⟨hleft, -⟩ | ⟨-, hlacks, right, hright, hbeyond, -⟩⟩ := hfails
    · exact ⟨.inl hleft, fun hlacks => hlacks.not_beyond hleft⟩
    · exact ⟨.inr ⟨right, hright, hbeyond⟩, hlacks⟩
  · intro hout
    obtain ⟨hout, hlacks⟩ := hout
    by_cases hleft : Beyond db c.left.table index
    · exact ⟨c.left.table, .inl ⟨hleft, rfl⟩⟩
    · obtain ⟨right, hright, hbeyond⟩ := hout.resolve_left hleft
      exact ⟨right, .inr ⟨hleft, hlacks, right, hright, hbeyond, rfl⟩⟩

/-- Evaluation fails exactly behind the end of the left table and, where the left record has the
column, behind the end of the right one, and the failure names the table and the position. Elsewhere
it tells whether the position satisfies the condition. So a condition fails wherever one of its tables
has ended, except where the left record lacks the column and only the right table has ended. -/
theorem evaluate_outcomes (db : Database) (c : Condition) (p : Predicate) (index : Nat)
    (h : build db (some c) = .ok p) :
    (∀ e, p.evaluate index = .error e ↔
      Beyond db c.left.table index ∧ e = .rowOutOfRange c.left.table index ∨
      ¬Beyond db c.left.table index ∧ ¬Lacks db c.left index ∧
        ∃ table, c.rightTable? = some table ∧ Beyond db table index ∧
          e = .rowOutOfRange table index) ∧
    (p.evaluate index = .ok true ↔ Satisfies db c index) ∧
    (p.evaluate index = .ok false ↔
      (∀ e, p.evaluate index ≠ .error e) ∧ ¬Satisfies db c index) ∧
    (((∃ table, p.evaluate index = .error (.rowOutOfRange table index)) ↔ c.OutOfRange db index) ↔
      ¬(Lacks db c.left index ∧
        ∃ table, c.rightTable? = some table ∧ Beyond db table index)) := by
  refine ⟨fun e => evaluate_eq_error_iff h, evaluate_eq_ok_true_iff h, ?_, ?_⟩
  · rw [← evaluate_eq_ok_true_iff h]
    cases p.evaluate index with
    | error e => simp
    | ok b => cases b <;> simp
  · have hright : Lacks db c.left index → (c.OutOfRange db index ↔
        ∃ table, c.rightTable? = some table ∧ Beyond db table index) :=
      fun hlacks => or_iff_right hlacks.not_beyond
    rw [exists_evaluate_eq_error_iff h, and_iff_left_iff_imp, not_and]
    constructor
    · intro hnever hlacks hbeyond
      exact hnever ((hright hlacks).2 hbeyond) hlacks
    · intro hnever hout hlacks
      exact hnever hlacks ((hright hlacks).1 hout)

def ragged : Condition := ⟨⟨"a", "x"⟩, .eq, .column ⟨"b", "y"⟩⟩

theorem evaluate_outcomes_ragged : ∃ p, build stock (some ragged) = .ok p ∧
    p.evaluate 1 = .ok false ∧ p.evaluate 2 = .error (.rowOutOfRange "b" 2) := by
  obtain ⟨p, hp⟩ : ∃ p, build stock (some ragged) = .ok p := ⟨_, rfl⟩
  refine ⟨p, hp, ?_, ?_⟩
  · obtain ⟨herror, -, hfalse, -⟩ := evaluate_outcomes stock ragged p 1 hp
    have hlacks : Lacks stock ragged.left 1 := by decide +kernel
    have hsatisfies : ¬Satisfies stock ragged 1 := by decide +kernel
    refine hfalse.2 ⟨fun e he => ?_, hsatisfies⟩
    rcases (herror e).1 he with ⟨hbeyond, -⟩ | ⟨-, hhas, -⟩
    · exact hlacks.not_beyond hbeyond
    · exact hhas hlacks
  · obtain ⟨herror, -⟩ := evaluate_outcomes stock ragged p 2 hp
    have hin : ¬Beyond stock "a" 2 := by decide +kernel
    have hhas : ¬Lacks stock ragged.left 2 := by decide +kernel
    have hbeyond : Beyond stock "b" 2 := by decide +kernel
    exact (herror _).2 (.inr ⟨hin, hhas, "b", rfl, hbeyond, rfl⟩)

theorem not_forall_evaluate_eq_error_iff :
    ¬∀ (db : Database) (c : Condition) (p : Predicate) (index : Nat),
      build db (some c) = .ok p →
      ((∃ table, p.evaluate index = .error (.rowOutOfRange table index)) ↔
        c.OutOfRange db index) := by
  intro h
  obtain ⟨table, hfails⟩ := (h stock ragged _ 1 rfl).2 (.inr ⟨"b", rfl, _, rfl, by decide⟩)
  exact nomatch hfails

end Outcomes

end Predicate

end RowSelect.Query
