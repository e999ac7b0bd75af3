/-!
Finite numbers of the 64-bit binary floating-point format, held exactly.

A number is `± significand * 2 ^ scale` units of `2 ^ (-1074)`, the smallest positive number of the
format, so every comparison and every rounding here is one of integers. `ofRatio?` rounds a quotient
of natural numbers to the nearest number of the format.
-/

set_option autoImplicit false

namespace RowSelect

/-- A finite number of the format. The significand, below `2 ^ 53`, has all its 53 bits (it is at
least `2 ^ 52`) unless the number is below the normal range, so a number has one representation;
zero has a sign. -/
structure Binary64 where
  negative : Bool
  significand : Nat
  scale : Nat
  significand_lt : significand < 0x20000000000000
  full_or_subnormal : 0x10000000000000 ≤ significand ∨ scale = 0
  scale_le : scale ≤ 2045
  deriving DecidableEq, Repr

namespace Binary64

def zero (negative : Bool) : Binary64 :=
  ⟨negative, 0, 0, by decide, .inr rfl, by decide⟩

/-- The absolute value in units of `2 ^ (-1074)`. -/
def magnitude (x : Binary64) : Nat := x.significand * Nat.pow 2 x.scale

def units (x : Binary64) : Int := if x.negative then -(x.magnitude : Int) else x.magnitude

def compare (x y : Binary64) : Ordering := Ord.compare x.units y.units

def roundHalfEven (a d : Nat) : Nat :=
  if 2 * (a % d) < d then a / d
  else if d < 2 * (a % d) then a / d + 1
  else if a / d % 2 = 0 then a / d
  else a / d + 1

theorem div_le_roundHalfEven (a d : Nat) : a / d ≤ roundHalfEven a d := by
  unfold roundHalfEven; split <;> (try split) <;> (try split) <;> omega

theorem roundHalfEven_le (a d : Nat) : roundHalfEven a d ≤ a / d + 1 := by
  unfold roundHalfEven; split <;> (try split) <;> (try split) <;> omega

def scaleFor (q : Nat) : Nat := q.log2 - 52

theorem div_scaleFor_lt (q : Nat) : q / Nat.pow 2 (scaleFor q) < 0x20000000000000 := by
  simp only [Nat.pow_eq]
  rw [Nat.div_lt_iff_lt_mul (Nat.two_pow_pos _), show 0x20000000000000 = 2 ^ 53 from rfl,
    ← Nat.pow_add]
  refine Nat.lt_of_lt_of_le Nat.lt_log2_self (Nat.pow_le_pow_right (by decide) ?_)
  unfold scaleFor; omega

theorem le_div_scaleFor (q : Nat) (h : scaleFor q ≠ 0) :
    0x10000000000000 ≤ q / Nat.pow 2 (scaleFor q) := by
  have hl : q.log2 = 52 + scaleFor q := by unfold scaleFor at h ⊢; omega
  have hq : q ≠ 0 := by rintro rfl; simp [scaleFor] at h
  simp only [Nat.pow_eq]
  rw [Nat.le_div_iff_mul_le (Nat.two_pow_pos _), show 0x10000000000000 = 2 ^ 52 from rfl,
    ← Nat.pow_add, ← hl]
  exact Nat.log2_self_le hq

/-- The number nearest to `± a / d` units, ties going to the even significand. There is none where
the quotient rounds past the largest number of the format. -/
def ofUnits? (negative : Bool) (a d : Nat) : Option Binary64 :=
  let scale := scaleFor (a / d)
  let m := roundHalfEven a (d * Nat.pow 2 scale)
  if hm : m < 0x20000000000000 then
    if hs : scale ≤ 2045 then
      some ⟨negative, m, scale, hm, by
        by_cases h : scale = 0
        · exact .inr h
        · refine .inl (Nat.le_trans ?_ (div_le_roundHalfEven a _))
          rw [← Nat.div_div_eq_div_mul]
          exact le_div_scaleFor _ h, hs⟩
    else none
  else
    if hs : scale + 1 ≤ 2045 then
      some ⟨negative, 0x10000000000000, scale + 1, by decide, .inl (Nat.le_refl _), hs⟩
    else none

def ofRatio? (negative : Bool) (a d : Nat) : Option Binary64 :=
  ofUnits? negative (a * Nat.pow 2 1074) d

end Binary64

end RowSelect
