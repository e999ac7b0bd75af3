import RowSelect.Json.Order
import RowSelect.Proofs.Rounding
import RowSelect.Query.Token

/-!
Comparisons of numbers, taken together. Two integers are compared exactly and every other pair by
the values in the binary format, which keeps the order of the integers but not their differences. So
a comparison carries over from a pair to the next unless two different integers meet in one number
of the binary format.
-/

set_option autoImplicit false

namespace RowSelect

namespace Number

section Integers

variable {i j : Int} {hi : -0x8000000000000000 ≤ i ∧ i < 0x10000000000000000}
  {hj : -0x8000000000000000 ≤ j ∧ j < 0x10000000000000000}

theorem compare?_rounded {a b : Number} (hs : a.signed? = none ∨ b.signed? = none)
    (hu : a.unsigned? = none ∨ b.unsigned? = none) :
    a.compare? b = some (compare a.units b.units) := by
  obtain ⟨x, hx, hxu⟩ := a.toBinary64?_eq_some
  obtain ⟨y, hy, hyu⟩ := b.toBinary64?_eq_some
  unfold compare?
  split
  · simp_all
  · split
    · simp_all
    · rw [hx, hy, ← hxu, ← hyu]
      rfl

theorem compare?_real_left (x : Binary64) (b : Number) :
    (real x).compare? b = some (compare x.units b.units) :=
  compare?_rounded (.inl rfl) (.inl rfl)

theorem compare?_real_right (a : Number) (y : Binary64) :
    a.compare? (real y) = some (compare a.units y.units) :=
  compare?_rounded (.inr rfl) (.inr rfl)

theorem compare_nearest_of_signs (h : i < 0 ∧ 0 ≤ j ∨ 0 ≤ i ∧ j < 0) :
    compare (nearest i) (nearest j) = compare i j := by
  obtain ⟨h, h'⟩ | ⟨h, h'⟩ := h
  · have hlt : nearest i < nearest j := Int.lt_of_lt_of_le (nearest_neg h) (nearest_nonneg h')
    rw [Int.compare_eq_lt.2 hlt, Int.compare_eq_lt.2 (by omega)]
  · have hgt : nearest j < nearest i := Int.lt_of_lt_of_le (nearest_neg h') (nearest_nonneg h)
    rw [Int.compare_eq_gt.2 hgt, Int.compare_eq_gt.2 (by omega)]

/-- Integers are compared exactly. Only a negative one and one past the signed range are compared in
the binary format, and there the signs decide. -/
theorem compare?_integer : (integer i hi).compare? (integer j hj) = some (compare i j) := by
  by_cases hs : i < 0x8000000000000000 ∧ j < 0x8000000000000000
  · simp only [compare?, signed?, if_pos hs.1, if_pos hs.2]
  have hsn : (integer i hi).signed? = none ∨ (integer j hj).signed? = none := by
    simp only [signed?, ite_eq_right_iff, reduceCtorEq]
    omega
  by_cases hu : 0 ≤ i ∧ 0 ≤ j
  · unfold compare?
    split
    · simp_all
    · simp only [unsigned?, if_pos hu.1, if_pos hu.2]
  · have hun : (integer i hi).unsigned? = none ∨ (integer j hj).unsigned? = none := by
      simp only [unsigned?, ite_eq_right_iff, reduceCtorEq]
      omega
    rw [compare?_rounded hsn hun]
    exact congrArg some (compare_nearest_of_signs (by omega))

/-- The number is the one of the binary format to which two different integers are rounded. -/
def Merges : Number → Number → Number → Prop
  | real x, integer i hi, integer j hj =>
    i ≠ j ∧ (integer i hi).toBinary64? = some x ∧ (integer j hj).toBinary64? = some x
  | _, _, _ => False

theorem real_merges_iff {x : Binary64} :
    (real x).Merges (integer i hi) (integer j hj) ↔
      i ≠ j ∧ nearest i = x.units ∧ nearest j = x.units := by
  constructor
  · rintro ⟨hne, hx, hx'⟩
    exact ⟨hne, units_of_toBinary64? hx, units_of_toBinary64? hx'⟩
  · rintro ⟨hne, hx, hx'⟩
    have hx0 : x.units ≠ 0 := by
      intro h
      have := eq_zero_of_nearest (hx.trans h)
      have := eq_zero_of_nearest (hx'.trans h)
      omega
    exact ⟨hne, toBinary64?_of_units hx0 hx, toBinary64?_of_units hx0 hx'⟩

end Integers

end Number

namespace Query

namespace Operator

def Holds (op : Operator) (x y : Json) : Prop := ∃ o, x.compare? y = some o ∧ op.holds o = true

instance (op : Operator) (x y : Json) : Decidable (op.Holds x y) :=
  decidable_of_iff ((x.compare? y).any op.holds) (by simp [Holds, Option.any_eq_true])

def Relates : Operator → Int → Int → Prop
  | eq, i, j => i = j
  | lt, i, j => i < j
  | gt, i, j => j < i
  | le, i, j => i ≤ j
  | ge, i, j => j ≤ i

theorem holds_compare {op : Operator} {i j : Int} :
    op.holds (compare i j) = true ↔ op.Relates i j := by
  obtain h | h | h := Int.lt_trichotomy i j
  · rw [Int.compare_eq_lt.2 h]
    cases op <;> simp [holds, Relates] <;> omega
  · rw [Int.compare_eq_eq.2 h]
    cases op <;> simp [holds, Relates] <;> omega
  · rw [Int.compare_eq_gt.2 h]
    cases op <;> simp [holds, Relates] <;> omega

namespace Relates

theorem trans {op : Operator} {i j k : Int} (h : op.Relates i j) (h' : op.Relates j k) :
    op.Relates i k := by
  cases op <;> simp only [Relates] at * <;> omega

open Number (nearest nearest_mono)

/-- An exact comparison and a rounded one after it. A strict exact one may become an equality, so the
rounded one is what keeps the whole strict. -/
theorem nearest_left {op : Operator} {i j u : Int} (h : op.Relates i j)
    (h' : op.Relates (nearest j) u) : op.Relates (nearest i) u := by
  have hle : i ≤ j → nearest i ≤ nearest j := nearest_mono
  have hge : j ≤ i → nearest j ≤ nearest i := nearest_mono
  cases op <;> simp only [Relates] at * <;> omega

theorem nearest_right {op : Operator} {i j u : Int} (h : op.Relates u (nearest i))
    (h' : op.Relates i j) : op.Relates u (nearest j) := by
  have hle : i ≤ j → nearest i ≤ nearest j := nearest_mono
  have hge : j ≤ i → nearest j ≤ nearest i := nearest_mono
  cases op <;> simp only [Relates] at * <;> omega

theorem of_nearest {op : Operator} {i j u : Int} (h : op.Relates (nearest i) u)
    (h' : op.Relates u (nearest j)) (hne : ¬(i ≠ j ∧ nearest i = u ∧ nearest j = u)) :
    op.Relates i j := by
  have hle : i ≤ j → nearest i ≤ nearest j := nearest_mono
  have hge : j ≤ i → nearest j ≤ nearest i := nearest_mono
  cases op <;> simp only [Relates] at * <;> omega

end Relates

section Numbers

open Number

variable {op : Operator} {i j : Int} {hi : -0x8000000000000000 ≤ i ∧ i < 0x10000000000000000}
  {hj : -0x8000000000000000 ≤ j ∧ j < 0x10000000000000000}

theorem holds_iff {a b : Number} {k l : Int} (h : a.compare? b = some (compare k l)) :
    op.Holds (.number a) (.number b) ↔ op.Relates k l := by
  simp only [Holds, Json.compare?, h, Option.some.injEq, exists_eq_left', holds_compare]

@[simp] theorem holds_integer :
    op.Holds (.number (integer i hi)) (.number (integer j hj)) ↔ op.Relates i j :=
  holds_iff compare?_integer

@[simp] theorem holds_real_left (x : Binary64) (b : Number) :
    op.Holds (.number (real x)) (.number b) ↔ op.Relates x.units b.units :=
  holds_iff (compare?_real_left x b)

@[simp] theorem holds_real_right (a : Number) (y : Binary64) :
    op.Holds (.number a) (.number (real y)) ↔ op.Relates a.units y.units :=
  holds_iff (compare?_real_right a y)

theorem holds_trans {a b c : Number} (h : ¬b.Merges a c) (hab : op.Holds (.number a) (.number b))
    (hbc : op.Holds (.number b) (.number c)) : op.Holds (.number a) (.number c) := by
  cases a with
  | real x =>
    rw [holds_real_left] at hab ⊢
    cases b with
    | real y => exact hab.trans ((holds_real_left y c).1 hbc)
    | integer j hj =>
      cases c with
      | real z => exact hab.trans ((holds_real_right _ z).1 hbc)
      | integer k hk => exact hab.nearest_right (holds_integer.1 hbc)
  | integer i hi =>
    cases b with
    | real y =>
      rw [holds_real_right] at hab
      rw [holds_real_left] at hbc
      cases c with
      | real z => exact (holds_real_right _ z).2 (hab.trans hbc)
      | integer k hk => exact holds_integer.2 (hab.of_nearest hbc (mt real_merges_iff.2 h))
    | integer j hj =>
      rw [holds_integer] at hab
      cases c with
      | real z => exact (holds_real_right _ z).2 (hab.nearest_left ((holds_real_right _ z).1 hbc))
      | integer k hk => exact holds_integer.2 (hab.trans (holds_integer.1 hbc))

theorem not_holds_eq_of_merges {a b c : Number} (h : b.Merges a c) :
    eq.Holds (.number a) (.number b) ∧ eq.Holds (.number b) (.number c) ∧
      ¬eq.Holds (.number a) (.number c) := by
  cases b with
  | integer j hj => exact h.elim
  | real x =>
    cases a with
    | real z => exact h.elim
    | integer i hi =>
      cases c with
      | real z => exact h.elim
      | integer k hk =>
        obtain ⟨hne, hx, hx'⟩ := real_merges_iff.1 h
        exact ⟨(holds_real_right _ x).2 hx, (holds_real_left x _).2 hx'.symm,
          fun heq => hne (holds_integer.1 heq)⟩

/-- Comparisons of three numbers carry over from the first two pairs to the third, whichever the
operator, unless the first and the last are different integers that the one between them merges. -/
theorem forall_holds_trans_iff (a b c : Number) :
    (∀ op : Operator, op.Holds (.number a) (.number b) → op.Holds (.number b) (.number c) →
      op.Holds (.number a) (.number c)) ↔ ¬b.Merges a c := by
  constructor
  · intro h hm
    obtain ⟨hab, hbc, hac⟩ := not_holds_eq_of_merges hm
    exact hac (h eq hab hbc)
  · intro h op hab hbc
    exact holds_trans h hab hbc

theorem not_forall_holds_le_trans :
    ¬∀ a b c : Number, le.Holds (.number a) (.number b) → le.Holds (.number b) (.number c) →
      le.Holds (.number a) (.number c) := by
  intro h
  have hle := h (.integer 0x20000000000001 (by decide))
    (.real ⟨false, 0x10000000000000, 1075, by decide, by decide, by decide⟩)
    (.integer 0x20000000000000 (by decide)) (by decide +kernel) (by decide +kernel)
  exact absurd hle (by decide +kernel)

end Numbers

end Operator

end Query

end RowSelect
