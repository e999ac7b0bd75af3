import RowSelect.Proofs.Rounding

/-!
What rounding comes to: no number of the format is nearer to the quotient, and of two as near the
result has the even significand. Rounding gives nothing exactly from the point on that lies half-way
between the largest number of the format and the power of two behind it.
-/

set_option autoImplicit false

namespace RowSelect

namespace Binary64

/-- How far a number of the format is from `a / d` units, in parts of which `d` make a unit. -/
def distance (a d : Nat) (x : Binary64) : Nat := (x.units * d - a).natAbs

/-- The number is one of those nearest to `a / d` units, and has an even significand if there are two
of them. -/
structure IsNearest (a d : Nat) (x : Binary64) : Prop where
  positive : x.negative = false
  nearest : ∀ y, distance a d x ≤ distance a d y
  even : ∀ y, distance a d y = distance a d x → y.units = x.units ∨ x.significand % 2 = 0

def oneUnits : Nat := Nat.pow 2 1074

/-- In units, the least value that is rounded past the largest number of the format. -/
def overflow : Nat := 0x3fffffffffffff * 2 ^ 2044

def gap (a d m : Nat) : Nat := ((m * d : Nat) - (a : Int)).natAbs

section Multiples

variable {a d : Nat}

theorem gap_roundHalfEven (hd : 0 < d) (k : Nat) :
    gap a d (roundHalfEven a d) ≤ gap a d k ∧
      (gap a d k = gap a d (roundHalfEven a d) →
        k = roundHalfEven a d ∨ roundHalfEven a d % 2 = 0) := by
  have hdiv := Nat.div_add_mod a d
  have hmod := Nat.mod_lt a hd
  generalize hq : a / d = q at hdiv
  rw [Nat.mul_comm] at hdiv
  have hnext : (q + 1) * d = q * d + d := Nat.succ_mul q d
  have hround : roundHalfEven a d =
      if 2 * (a % d) < d then q else if d < 2 * (a % d) then q + 1
      else if q % 2 = 0 then q else q + 1 := by
    rw [roundHalfEven, hq]
  unfold gap
  rw [hround]
  obtain hk | rfl | rfl | hk : k + 1 ≤ q ∨ k = q ∨ k = q + 1 ∨ q + 2 ≤ k := by omega
  · have hbelow : k * d + d ≤ q * d := by
      rw [← Nat.succ_mul]
      exact Nat.mul_le_mul_right d hk
    split_ifs <;> omega
  · split_ifs <;> omega
  · split_ifs <;> omega
  · have habove : q * d + d + d ≤ k * d := by
      rw [← Nat.succ_mul, ← Nat.succ_mul]
      exact Nat.mul_le_mul_right d hk
    split_ifs <;> omega

theorem gap_mul_two_pow (k s : Nat) : gap a d (k * 2 ^ s) = gap a (d * 2 ^ s) k := by
  rw [gap, gap, Nat.mul_assoc, Nat.mul_comm (2 ^ s)]

end Multiples

theorem magnitude_on_grid (y : Binary64) (s : Nat) :
    (∃ k, y.magnitude = k * 2 ^ s) ∨ s ≠ 0 ∧ y.magnitude < 2 ^ 52 * 2 ^ s := by
  by_cases h : s ≤ y.scale
  · left
    refine ⟨y.significand * 2 ^ (y.scale - s), ?_⟩
    rw [magnitude, Nat.pow_eq, Nat.mul_assoc, ← Nat.pow_add, Nat.sub_add_cancel h]
  · exact .inr ⟨by omega, magnitude_lt_of_scale_lt (by omega)⟩

section Rounding

variable {a d : Nat} {x : Binary64}

theorem gap_nearest (hd : 0 < d) (y : Binary64) :
    gap a d (nearest a d) ≤ gap a d y.magnitude ∧
      (gap a d y.magnitude = gap a d (nearest a d) → y.magnitude = nearest a d ∨
        roundHalfEven a (d * 2 ^ scaleFor (a / d)) % 2 = 0) := by
  have hpos : 0 < d * 2 ^ scaleFor (a / d) := Nat.mul_pos hd (Nat.two_pow_pos _)
  rw [nearest, gap_mul_two_pow]
  rcases magnitude_on_grid y (scaleFor (a / d)) with ⟨k, hk⟩ | ⟨hs, hlow⟩
  · obtain ⟨hnearest, htie⟩ := gap_roundHalfEven (a := a) hpos k
    rw [hk, gap_mul_two_pow]
    exact ⟨hnearest, fun he => (htie he).imp_left fun hk => by rw [hk]⟩
  · -- the first multiple of this scale is below the quotient and above the number
    have hfull := le_div_scaleFor (a / d) hs
    rw [Nat.pow_eq, Nat.div_div_eq_div_mul, Nat.le_div_iff_mul_le hpos] at hfull
    have hfirst := (gap_roundHalfEven (a := a) hpos (2 ^ 52)).1
    have hbelow : y.magnitude * d < 2 ^ 52 * (d * 2 ^ scaleFor (a / d)) := by
      rw [Nat.mul_comm d, ← Nat.mul_assoc]
      exact Nat.mul_lt_mul_of_pos_right hlow hd
    have hlt : gap a (d * 2 ^ scaleFor (a / d)) (2 ^ 52) < gap a d y.magnitude := by
      unfold gap
      omega
    exact ⟨by omega, by omega⟩

theorem even_of_ofUnits? {negative : Bool} (h : ofUnits? negative a d = some x)
    (heven : roundHalfEven a (d * 2 ^ scaleFor (a / d)) % 2 = 0) : x.significand % 2 = 0 := by
  unfold ofUnits? at h
  simp only [Nat.pow_eq] at h
  split at h
  · split at h
    · cases h
      exact heven
    · cases h
  · split at h
    · cases h
      exact (by decide : 0x10000000000000 % 2 = 0)
    · cases h

theorem distance_of_positive (h : x.negative = false) : distance a d x = gap a d x.magnitude := by
  simp [distance, gap, units, h]

theorem distance_of_negative (h : x.negative = true) : distance a d x = x.magnitude * d + a := by
  have hunits : x.units * d = -((x.magnitude * d : Nat) : Int) := by
    rw [units, if_pos h, Int.neg_mul, Int.natCast_mul]
  rw [distance, hunits]
  omega

theorem gap_le_distance (y : Binary64) : gap a d y.magnitude ≤ distance a d y := by
  cases hy : y.negative with
  | false => exact (distance_of_positive hy).ge
  | true =>
    rw [distance_of_negative hy, gap]
    omega

theorem gap_zero (a d : Nat) : gap a d (zero false).magnitude = a := by
  simp [gap, magnitude, zero]

/-- Of all numbers only the sign is left to tell: with a minus sign nothing but zero is as near as
without one. -/
theorem isNearest_of_gap (hd : 0 < d) (hpositive : x.negative = false)
    (h : ∀ y : Binary64, gap a d x.magnitude ≤ gap a d y.magnitude ∧
      (gap a d y.magnitude = gap a d x.magnitude →
        y.magnitude = x.magnitude ∨ x.significand % 2 = 0)) :
    IsNearest a d x := by
  have hx : distance a d x = gap a d x.magnitude := distance_of_positive hpositive
  refine ⟨hpositive, fun y => ?_, fun y hy => ?_⟩
  · rw [hx]
    exact (h y).1.trans (gap_le_distance y)
  · obtain ⟨hnearest, htie⟩ := h y
    rw [hx] at hy
    rcases htie (Nat.le_antisymm (hy ▸ gap_le_distance y) hnearest) with hsame | heven
    · cases hneg : y.negative with
      | false => exact .inl (by simp [units, hneg, hpositive, hsame])
      | true =>
        have hzero := (h (zero false)).1
        rw [← hy, distance_of_negative hneg, gap_zero] at hzero
        have hnone : y.magnitude * d = 0 := by omega
        have hmag : y.magnitude = 0 := (Nat.mul_eq_zero.1 hnone).resolve_right hd.ne'
        exact .inl (by simp [units, ← hsame, hmag])
    · exact .inr heven

theorem isNearest_of_ofUnits? (hd : 0 < d) (h : ofUnits? false a d = some x) :
    IsNearest a d x := by
  obtain ⟨hpositive, hmagnitude⟩ := ofUnits?_eq_some h
  refine isNearest_of_gap hd hpositive fun y => ?_
  obtain ⟨hnearest, htie⟩ := gap_nearest (a := a) hd y
  rw [hmagnitude]
  exact ⟨hnearest, fun hy => (htie hy).imp_right (even_of_ofUnits? h)⟩

theorem isNearest_zero (h : 2 * a ≤ d) : IsNearest a d (zero false) := by
  have hzero : distance a d (zero false) = a := by
    rw [distance_of_positive rfl, gap_zero]
  refine ⟨rfl, fun y => ?_, fun _ _ => .inr rfl⟩
  rw [hzero]
  refine Nat.le_trans ?_ (gap_le_distance y)
  unfold gap
  rcases Nat.eq_zero_or_pos y.magnitude with hy | hy
  · simp [hy]
  · have hd := Nat.le_mul_of_pos_left d hy
    omega

theorem two_pow_le_roundHalfEven_iff {e : Nat} (he : 0 < e) (h : a / (2 * e) < 2 ^ 53) :
    2 ^ 53 ≤ roundHalfEven a (2 * e) ↔ 0x3fffffffffffff * e ≤ a := by
  have hdiv := Nat.div_add_mod a (2 * e)
  have hmod := Nat.mod_lt a (show 0 < 2 * e by omega)
  obtain hq | hq : a / (2 * e) + 2 ≤ 2 ^ 53 ∨ a / (2 * e) = 0x1fffffffffffff := by omega
  · have hround := roundHalfEven_le a (2 * e)
    have hle := Nat.mul_le_mul_left (2 * e) hq
    rw [Nat.mul_add] at hle
    generalize 2 * e * (a / (2 * e)) = n at hdiv hle
    exact iff_of_false (by omega) (by omega)
  · unfold roundHalfEven
    rw [hq] at hdiv ⊢
    rw [if_neg (show ¬0x1fffffffffffff % 2 = 0 by decide)]
    split_ifs <;> omega

theorem lt_of_scaleFor_le {q e : Nat} (h : scaleFor q ≤ e) : q < 2 ^ 53 * 2 ^ e := by
  have hlt := div_scaleFor_lt q
  rw [Nat.pow_eq, Nat.div_lt_iff_lt_mul (Nat.two_pow_pos _)] at hlt
  exact Nat.lt_of_lt_of_le hlt (Nat.mul_le_mul_left _ (Nat.pow_le_pow_right (by decide) h))

theorem le_of_lt_scaleFor {q e : Nat} (h : e < scaleFor q) : 2 ^ 52 * 2 ^ (e + 1) ≤ q := by
  have hfull := le_div_scaleFor q (by omega)
  rw [Nat.pow_eq, Nat.le_div_iff_mul_le (Nat.two_pow_pos _)] at hfull
  exact Nat.le_trans (Nat.mul_le_mul_left _ (Nat.pow_le_pow_right (by decide) h)) hfull

theorem exceeds_scale_iff {e : Nat} (hd : 0 < d) :
    e + 1 < scaleFor (a / d) ∨
      scaleFor (a / d) = e + 1 ∧ 2 ^ 53 ≤ roundHalfEven a (d * 2 ^ scaleFor (a / d)) ↔
    0x3fffffffffffff * 2 ^ e * d ≤ a := by
  have hpos := Nat.two_pow_pos e
  obtain hs | hs | hs := Nat.lt_trichotomy (scaleFor (a / d)) (e + 1)
  · have hbelow := lt_of_scaleFor_le (Nat.le_of_lt_succ hs)
    rw [← Nat.le_div_iff_mul_le hd]
    exact iff_of_false (by omega) (by omega)
  · have hscale : d * 2 ^ (e + 1) = 2 * (2 ^ e * d) := by
      rw [Nat.pow_succ, ← Nat.mul_assoc, Nat.mul_comm, Nat.mul_comm d]
    have hlt := div_scaleFor_lt (a / d)
    rw [Nat.pow_eq, hs, Nat.div_div_eq_div_mul, hscale] at hlt
    rw [hs, hscale, two_pow_le_roundHalfEven_iff (Nat.mul_pos hpos hd) hlt, Nat.mul_assoc]
    simp
  · have habove := le_of_lt_scaleFor hs
    rw [Nat.pow_succ, Nat.pow_succ] at habove
    rw [← Nat.le_div_iff_mul_le hd]
    exact iff_of_true (.inl hs) (by omega)

theorem ofUnits?_eq_none_iff {negative : Bool} (hd : 0 < d) :
    ofUnits? negative a d = none ↔ overflow * d ≤ a := by
  rw [overflow, ← exceeds_scale_iff hd]
  unfold ofUnits?
  simp only [Nat.pow_eq]
  split_ifs <;> simp <;> omega

end Rounding

theorem ofRatio?_eq (negative : Bool) (a d : Nat) :
    ofRatio? negative a d = ofUnits? negative (a * oneUnits) d := by
  unfold ofRatio? oneUnits
  with_reducible rfl

theorem magnitude_add_le {x y : Binary64} (h : x.magnitude < y.magnitude) :
    x.magnitude + 2 ^ x.scale ≤ y.magnitude := by
  have hle := scale_le_of_magnitude_le h.le
  have hgrid : y.magnitude = y.significand * 2 ^ (y.scale - x.scale) * 2 ^ x.scale := by
    rw [magnitude, Nat.pow_eq, Nat.mul_assoc, ← Nat.pow_add, Nat.sub_add_cancel hle]
  rw [hgrid, magnitude, Nat.pow_eq] at h
  rw [hgrid, magnitude, Nat.pow_eq, ← Nat.succ_mul]
  exact Nat.mul_le_mul_right _ (Nat.lt_of_mul_lt_mul_right h)

theorem exists_next {x : Binary64} (h : x.significand % 2 = 0) :
    ∃ y : Binary64, y.negative = false ∧ y.significand = x.significand + 1 ∧ y.scale = x.scale := by
  have hlt := x.significand_lt
  have hfull := x.full_or_subnormal
  exact ⟨⟨false, x.significand + 1, x.scale, by omega, by omega, x.scale_le⟩, rfl, rfl, rfl⟩

/-- Between two numbers with even significands lies a third one, which is nearer to anything as far
from both. -/
theorem IsNearest.not_lt {a d : Nat} {x y : Binary64} (hd : 0 < d) (hx : IsNearest a d x)
    (hy : IsNearest a d y) : ¬x.magnitude < y.magnitude := by
  intro hlt
  have hunits : x.units = x.magnitude ∧ y.units = y.magnitude := by
    simp [units, hx.positive, hy.positive]
  have hsame := Nat.le_antisymm (hx.nearest y) (hy.nearest x)
  have hxeven := (hx.even y hsame.symm).resolve_left (by omega)
  have hyeven := (hy.even x hsame).resolve_left (by omega)
  obtain ⟨z, hz, hsig, hscale⟩ := exists_next hxeven
  have hzx : z.magnitude = x.magnitude + 2 ^ x.scale := by
    rw [magnitude, magnitude, hsig, hscale, Nat.pow_eq, Nat.succ_mul]
  have hzy : z.magnitude ≤ y.magnitude := hzx ▸ magnitude_add_le hlt
  obtain hbetween | hequal := Nat.lt_or_eq_of_le hzy
  · have hnearest := hx.nearest z
    rw [distance_of_positive hx.positive, distance_of_positive hz] at hnearest
    rw [distance_of_positive hx.positive, distance_of_positive hy.positive] at hsame
    have hpow := Nat.two_pow_pos x.scale
    have hxz := Nat.mul_lt_mul_of_pos_right (show x.magnitude < z.magnitude by omega) hd
    have hzy := Nat.mul_lt_mul_of_pos_right hbetween hd
    unfold gap at hnearest hsame
    omega
  · have heq : z = y := eq_of_magnitude_eq (hz.trans hy.positive.symm) hequal
    rw [← heq] at hyeven
    omega

theorem IsNearest.unique {a d : Nat} {x y : Binary64} (hd : 0 < d) (hx : IsNearest a d x)
    (hy : IsNearest a d y) : x = y := by
  have hxy := hx.not_lt hd hy
  have hyx := hy.not_lt hd hx
  exact eq_of_magnitude_eq (hx.positive.trans hy.positive.symm) (by omega)

end Binary64

end RowSelect
