import RowSelect.Proofs.Numerals

/-!
The shortest decimal of a number reads back as that number: it lies where the number is the nearest
one, and of seventeen digits there is always such a decimal.
-/

set_option autoImplicit false

namespace RowSelect

namespace Binary64

section Basins

variable {a d : Nat} {x : Binary64}

/-- In quarters of a unit, how far below the number the reals go that round to it. -/
def reach (x : Binary64) : Nat :=
  (if x.significand = 0x10000000000000 ∧ x.scale ≠ 0 then 1 else 2) * Nat.pow 2 x.scale

theorem reach_le (x : Binary64) : 2 ^ x.scale ≤ x.reach ∧ x.reach ≤ 2 * 2 ^ x.scale := by
  rw [reach, Nat.pow_eq]
  split <;> omega

theorem add_reach_le {y : Binary64} (h : y.magnitude < x.magnitude) :
    2 * y.magnitude + x.reach ≤ 2 * x.magnitude := by
  have hstep := magnitude_add_le h
  have hmag : x.magnitude = x.significand * 2 ^ x.scale := rfl
  rw [reach, Nat.pow_eq]
  obtain hscale | hscale := (scale_le_of_magnitude_le h.le).eq_or_lt
  · rw [hscale] at hstep
    split <;> omega
  · have hpow : 2 * 2 ^ y.scale ≤ 2 ^ x.scale := by
      rw [← Nat.pow_succ']
      exact Nat.pow_le_pow_right (by decide) hscale
    have hy : y.magnitude + 2 ^ y.scale ≤ 0x20000000000000 * 2 ^ y.scale := by
      rw [magnitude, Nat.pow_eq, ← Nat.succ_mul]
      exact Nat.mul_le_mul_right _ y.significand_lt
    have hfull := x.full_or_subnormal.resolve_right (by omega)
    split
    next hpower =>
      rw [hpower.1] at hmag
      omega
    next hpower =>
      have hx := Nat.mul_le_mul_right (2 ^ x.scale)
        (show 0x10000000000001 ≤ x.significand by omega)
      omega

theorem bounds_of_holds (h : x.basin.holds (4 * a) d = true) :
    4 * (x.magnitude * d) ≤ 4 * a + x.reach * d ∧
    2 * a ≤ 2 * (x.magnitude * d) + 2 ^ x.scale * d ∧
    (x.significand % 2 = 0 ∨ 4 * (x.magnitude * d) < 4 * a + x.reach * d ∧
      2 * a < 2 * (x.magnitude * d) + 2 ^ x.scale * d) := by
  have hlower : 4 * (x.magnitude * d) ≤ x.basin.lower * d + x.reach * d := by
    rw [← Nat.add_mul, ← Nat.mul_assoc]
    exact Nat.mul_le_mul_right d (Nat.sub_le_iff_le_add.1 (Nat.le_refl _))
  have hupper : x.basin.upper * d = 4 * (x.magnitude * d) + 2 * (2 ^ x.scale * d) := by
    rw [basin, Nat.pow_eq, Nat.add_mul, Nat.mul_assoc, Nat.mul_assoc]
  have hclosed : x.basin.closed = (x.significand % 2 == 0) := rfl
  unfold Basin.holds at h
  cases hc : x.basin.closed with
  | true =>
    rw [if_pos hc, Bool.and_eq_true, decide_eq_true_eq, decide_eq_true_eq, hupper] at h
    rw [hc] at hclosed
    exact ⟨by omega, by omega, .inl (by simpa using hclosed.symm)⟩
  | false =>
    rw [if_neg (by simp [hc]), Bool.and_eq_true, decide_eq_true_eq, decide_eq_true_eq, hupper] at h
    exact ⟨by omega, by omega, .inr ⟨by omega, by omega⟩⟩

theorem gap_of_holds (hd : 0 < d) (h : x.basin.holds (4 * a) d = true) (y : Binary64) :
    gap a d x.magnitude ≤ gap a d y.magnitude ∧
      (gap a d y.magnitude = gap a d x.magnitude →
        y.magnitude = x.magnitude ∨ x.significand % 2 = 0) := by
  obtain ⟨hbelow, habove, hodd⟩ := bounds_of_holds h
  have hpow : 0 < 2 ^ x.scale * d := Nat.mul_pos (Nat.two_pow_pos _) hd
  have hreach := Nat.mul_le_mul_right d x.reach_le.1
  obtain hlt | heq | hgt := Nat.lt_trichotomy y.magnitude x.magnitude
  · have hstep := Nat.mul_le_mul_right d (add_reach_le hlt)
    rw [Nat.add_mul, Nat.mul_assoc, Nat.mul_assoc] at hstep
    unfold gap
    omega
  · rw [heq]
    exact ⟨Nat.le_refl _, fun _ => .inl rfl⟩
  · have hstep := Nat.mul_le_mul_right d (magnitude_add_le hgt)
    rw [Nat.add_mul] at hstep
    unfold gap
    omega

theorem lt_overflow_of_holds (hd : 0 < d) (h : x.basin.holds (4 * a) d = true) :
    a < overflow * d := by
  obtain ⟨-, habove, hodd⟩ := bounds_of_holds h
  have hmag : x.magnitude * d = x.significand * (2 ^ x.scale * d) := Nat.mul_assoc ..
  have hscale : ∀ e, x.scale ≤ e + 1 → 2 ^ x.scale * d ≤ 2 * (2 ^ e * d) := by
    intro e he
    rw [← Nat.mul_assoc, ← Nat.pow_succ']
    exact Nat.mul_le_mul_right d (Nat.pow_le_pow_right (by decide) he)
  have hlimit := hscale 2044 x.scale_le
  have hpow : 0 < 2 ^ x.scale * d := Nat.mul_pos (Nat.two_pow_pos _) hd
  rw [overflow, Nat.mul_assoc]
  generalize 2 ^ 2044 * d = limit at hlimit ⊢
  -- The largest significand is odd, and the half-way point behind an odd one is not held.
  rcases hodd with heven | ⟨-, hlt⟩
  · have hsig : x.significand ≤ 0x1ffffffffffffe := by
      have := x.significand_lt
      omega
    have hle := Nat.mul_le_mul_right (2 ^ x.scale * d) hsig
    omega
  · have hsig : x.significand ≤ 0x1fffffffffffff := Nat.le_of_lt_succ x.significand_lt
    have hle := Nat.mul_le_mul_right (2 ^ x.scale * d) hsig
    omega

/-- Rounding inside the basin of a number gives that number. -/
theorem ofUnits?_of_holds (hd : 0 < d) (h : x.basin.holds (4 * a) d = true) :
    ofUnits? x.negative a d = some x := by
  have hfinite : ∀ negative, ∃ y, ofUnits? negative a d = some y := fun negative =>
    Option.ne_none_iff_exists'.1 fun hnone =>
      Nat.not_le.2 (lt_overflow_of_holds hd h) ((ofUnits?_eq_none_iff hd).1 hnone)
  obtain ⟨y, hy⟩ := hfinite x.negative
  obtain ⟨z, hz⟩ := hfinite false
  obtain ⟨hneg, hmag⟩ := ofUnits?_eq_some hy
  have hx : IsNearest a d { x with negative := false } := isNearest_of_gap hd rfl (gap_of_holds hd h)
  have hsame := congrArg magnitude ((isNearest_of_ofUnits? hd hz).unique hd hx)
  rw [(ofUnits?_eq_some hz).2, ← hmag] at hsame
  rw [hy, eq_of_magnitude_eq hneg hsame]

theorem le_of_holds (hx : x.significand ≠ 0) (h : x.basin.holds (4 * a) d = true) : d ≤ 2 * a := by
  obtain ⟨hbelow, -, -⟩ := bounds_of_holds h
  have hreach := Nat.mul_le_mul_right d x.reach_le.2
  have hmag : x.magnitude * d = x.significand * (2 ^ x.scale * d) := Nat.mul_assoc ..
  have hsig := Nat.mul_le_mul_right (2 ^ x.scale * d) (Nat.pos_of_ne_zero hx)
  have hpow := Nat.mul_le_mul_right d (Nat.two_pow_pos x.scale)
  rw [Nat.mul_assoc] at hreach
  omega

end Basins

section Grids

variable {x : Binary64} {power : Int} {n : Nat}

/-- The reals that round to the number take in `n * 10 ^ power`. -/
def Covers (x : Binary64) (n : Nat) (power : Int) : Prop :=
  x.basin.holds (4 * (n * 10 ^ power.toNat * oneUnits)) (10 ^ (-power).toNat) = true

theorem gridPoint_eq (n : Nat) (power : Int) :
    gridPoint n power = (4 * (n * 10 ^ power.toNat * oneUnits), 10 ^ (-power).toNat) := by
  have hunits : Nat.pow 2 1076 = 4 * oneUnits := by decide +kernel
  cases power with
  | ofNat p =>
    simp only [gridPoint, hunits, Nat.pow_eq, Int.ofNat_eq_natCast, Int.toNat_natCast,
      Int.toNat_neg_natCast, Nat.pow_zero, Nat.mul_left_comm]
  | negSucc p =>
    simp only [gridPoint, hunits, Nat.pow_eq, Int.toNat_negSucc, Int.neg_negSucc,
      Int.toNat_natCast, Nat.pow_zero, Nat.mul_one, Nat.mul_left_comm]

theorem floorOnGrid_eq (x : Binary64) (power : Int) :
    x.floorOnGrid power =
      x.magnitude * 10 ^ (-power).toNat / (10 ^ power.toNat * oneUnits) := by
  unfold floorOnGrid oneUnits
  generalize 1074 = e
  cases power with
  | ofNat p => simp
  | negSucc p => simp

theorem covers_of_nearestOnGrid? (h : x.nearestOnGrid? power = some n) : x.Covers n power := by
  unfold nearestOnGrid? at h
  simp only [gridPoint_eq] at h
  split at h
  next => cases h
  next hbelow _ =>
    obtain rfl := Option.some.inj h
    exact hbelow
  next _ habove =>
    obtain rfl := Option.some.inj h
    exact habove
  next hbelow habove =>
    split_ifs at h
    · exact Option.some.inj h ▸ hbelow
    · exact Option.some.inj h ▸ habove
    · exact Option.some.inj h ▸ hbelow
    · exact Option.some.inj h ▸ habove

theorem isSome_nearestOnGrid? (h : x.Covers (x.floorOnGrid power) power ∨
    x.Covers (x.floorOnGrid power + 1) power) : (x.nearestOnGrid? power).isSome := by
  unfold nearestOnGrid?
  simp only [gridPoint_eq]
  split
  next hbelow habove =>
    unfold Covers at h
    rw [hbelow, habove] at h
    exact absurd h (by decide)
  next => rfl
  next => rfl
  next => split_ifs <;> rfl

theorem holds_of_lt {b : Basin} {a d : Nat} (hlower : b.lower * d < a) (hupper : a < b.upper * d) :
    b.holds a d = true := by
  unfold Basin.holds
  split
  · simp [hlower.le, hupper.le]
  · simp [hlower, hupper]

/-- Of multiples of a step so fine that the number has `10 ^ 16` of them, the last one that is not
above the number or the one after it reads back: together they are closer than the ends of the
basin. -/
theorem holds_multiple_or {step d : Nat} (hd : 0 < d) (hstep : 0 < step) (hx : x.significand ≠ 0)
    (hfine : 10 ^ 16 * step ≤ x.magnitude * d) :
    x.basin.holds (4 * (x.magnitude * d / step * step)) d = true ∨
      x.basin.holds (4 * ((x.magnitude * d / step + 1) * step)) d = true := by
  have hpow : 0 < 2 ^ x.scale * d := Nat.mul_pos (Nat.two_pow_pos _) hd
  have hmag : x.magnitude * d = x.significand * (2 ^ x.scale * d) := Nat.mul_assoc ..
  have hsig := Nat.mul_le_mul_right (2 ^ x.scale * d) (Nat.pos_of_ne_zero hx)
  have hlt := Nat.mul_lt_mul_of_pos_right x.significand_lt hpow
  have hlower : x.basin.lower * d + x.reach * d = 4 * (x.magnitude * d) := by
    have hle : x.reach ≤ 4 * x.magnitude := by
      have := x.reach_le.2
      have : 1 * 2 ^ x.scale ≤ x.magnitude := Nat.mul_le_mul_right _ (Nat.pos_of_ne_zero hx)
      omega
    rw [← Nat.add_mul, ← Nat.mul_assoc]
    exact congrArg (· * d) (Nat.sub_add_cancel hle)
  have hupper : x.basin.upper * d = 4 * (x.magnitude * d) + 2 * (2 ^ x.scale * d) := by
    rw [basin, Nat.pow_eq, Nat.add_mul, Nat.mul_assoc, Nat.mul_assoc]
  have hwide : 4 * step < x.reach * d + 2 * (2 ^ x.scale * d) := by
    by_cases hpower : x.significand = 0x10000000000000 ∧ x.scale ≠ 0
    · have hreach : x.reach = 1 * 2 ^ x.scale := by rw [reach, if_pos hpower, Nat.pow_eq]
      rw [hpower.1] at hmag
      rw [hreach, Nat.mul_assoc]
      omega
    · have hreach : x.reach = 2 * 2 ^ x.scale := by rw [reach, if_neg hpower, Nat.pow_eq]
      rw [hreach, Nat.mul_assoc]
      omega
  have hfloor := Nat.div_add_mod' (x.magnitude * d) step
  have hrest := Nat.mod_lt (x.magnitude * d) hstep
  have hnext := Nat.succ_mul (x.magnitude * d / step) step
  rw [Nat.succ_eq_add_one] at hnext
  rw [hnext]
  generalize x.magnitude * d / step * step = below at hfloor ⊢
  -- The two multiples lie on both sides of the number, and the basin is wider than a step.
  by_cases hbelow : x.basin.lower * d < 4 * below
  · exact .inl (holds_of_lt hbelow (by omega))
  · exact .inr (holds_of_lt (by omega) (by omega))

theorem isSome_nearestOnGrid?_of_fine (hx : x.significand ≠ 0)
    (hfine : 10 ^ 16 * (10 ^ power.toNat * oneUnits) ≤ x.magnitude * 10 ^ (-power).toNat) :
    (x.nearestOnGrid? power).isSome := by
  have hten : ∀ k, 0 < 10 ^ k := fun k => Nat.pow_pos (by decide)
  have hstep : 0 < 10 ^ power.toNat * oneUnits := Nat.mul_pos (hten _) (by decide +kernel)
  refine isSome_nearestOnGrid? ?_
  unfold Covers
  rw [floorOnGrid_eq, Nat.mul_assoc, Nat.mul_assoc]
  exact holds_multiple_or (hten _) hstep hx hfine

theorem pow_length_toDigits_le {n : Nat} (h : 0 < n) :
    10 ^ ((Nat.toDigits 10 n).length - 1) ≤ n := by
  obtain hlength | hlength := Nat.eq_zero_or_pos ((Nat.toDigits 10 n).length - 1)
  · rwa [hlength, Nat.pow_zero]
  · have hiff := Nat.length_toDigits_le_iff (n := n) (show 1 < 10 by decide) hlength
    exact Nat.not_lt.1 fun hlt => absurd (hiff.2 hlt) (by omega)

theorem exists_decimalExponent (hx : x.significand ≠ 0) :
    ∃ k : Nat, x.decimalExponent = (k : Int) - 340 ∧
      10 ^ k * oneUnits ≤ x.magnitude * 10 ^ 340 := by
  have hunits : oneUnits ≤ 10 ^ 340 ∧ 0 < oneUnits := by decide +kernel
  have hmag : 1 * 1 ≤ x.magnitude := Nat.mul_le_mul (Nat.pos_of_ne_zero hx) (Nat.two_pow_pos _)
  have hexponent : x.decimalExponent =
      (Nat.toDigits 10 (x.magnitude * 10 ^ 340 / oneUnits)).length - 341 := by
    unfold decimalExponent oneUnits
    generalize 340 = scale
    rw [Nat.pow_eq]
  have hpos : 0 < x.magnitude * 10 ^ 340 / oneUnits :=
    Nat.div_pos (hunits.1.trans (Nat.le_mul_of_pos_left _ hmag)) hunits.2
  have hlength := Nat.length_toDigits_pos (b := 10) (n := x.magnitude * 10 ^ 340 / oneUnits)
  exact ⟨_, by omega, (Nat.le_div_iff_mul_le hunits.2).1 (pow_length_toDigits_le hpos)⟩

theorem exists_shortestFrom {left : Nat}
    (h : ∃ k : Nat, k < left ∧ (x.nearestOnGrid? (power - k)).isSome) :
    ∃ n p, x.shortestFrom power left = decimalOf n p ∧ x.Covers n p := by
  induction left generalizing power with
  | zero =>
    obtain ⟨k, hk, -⟩ := h
    exact absurd hk (Nat.not_lt_zero k)
  | succ left ih =>
    rw [shortestFrom]
    cases hgrid : x.nearestOnGrid? power with
    | some n => exact ⟨n, power, rfl, covers_of_nearestOnGrid? hgrid⟩
    | none =>
      obtain ⟨k, hk, hsome⟩ := h
      cases k with
      | zero => simp [hgrid] at hsome
      | succ k =>
        refine ih ⟨k, Nat.lt_of_succ_lt_succ hk, ?_⟩
        rwa [Int.sub_sub, Int.add_comm, ← Int.natCast_succ]

theorem exists_shortest (hx : x.significand ≠ 0) :
    ∃ n p, x.shortest = decimalOf n p ∧ x.Covers n p := by
  refine exists_shortestFrom ⟨16, by decide, isSome_nearestOnGrid?_of_fine hx ?_⟩
  obtain ⟨k, hk, hle⟩ := exists_decimalExponent hx
  -- Sixteen digits behind the first one make the grid fine enough. The power is kept a variable, so
  -- that it is not computed.
  generalize hscale : 340 = scale at hle
  have hten : 0 < 10 ^ scale := Nat.pow_pos (by decide)
  have hpowers : 16 + (x.decimalExponent - 16).toNat + scale =
      k + (-(x.decimalExponent - 16)).toNat := by omega
  refine Nat.le_of_mul_le_mul_right ?_ hten
  calc 10 ^ 16 * (10 ^ (x.decimalExponent - 16).toNat * oneUnits) * 10 ^ scale
      = 10 ^ (16 + (x.decimalExponent - 16).toNat + scale) * oneUnits := by
        rw [Nat.pow_add, Nat.pow_add, ← Nat.mul_assoc, Nat.mul_right_comm]
    _ = 10 ^ k * oneUnits * 10 ^ (-(x.decimalExponent - 16)).toNat := by
        rw [hpowers, Nat.pow_add, Nat.mul_right_comm]
    _ ≤ x.magnitude * 10 ^ scale * 10 ^ (-(x.decimalExponent - 16)).toNat :=
        Nat.mul_le_mul_right _ hle
    _ = x.magnitude * 10 ^ (-(x.decimalExponent - 16)).toNat * 10 ^ scale :=
        Nat.mul_right_comm ..

end Grids

theorem Basin.holds_congr (b : Basin) {a d a' d' : Nat} (hd : 0 < d) (hd' : 0 < d')
    (h : a * d' = a' * d) : b.holds a d = b.holds a' d' := by
  have hbelow : ∀ k, k * d < a ↔ k * d' < a' := fun k => by
    rw [← Nat.mul_lt_mul_right hd', h, Nat.mul_right_comm, Nat.mul_lt_mul_right hd]
  have habove : ∀ k, a < k * d ↔ a' < k * d' := fun k => by
    rw [← Nat.mul_lt_mul_right hd', h, Nat.mul_right_comm, Nat.mul_lt_mul_right hd]
  unfold Basin.holds
  simp only [← Nat.not_lt, hbelow, habove]

section Values

variable {x : Binary64}

theorem Covers.pos (hx : x.significand ≠ 0) {n : Nat} {power : Int} (h : x.Covers n power) :
    0 < n := by
  refine Nat.pos_of_ne_zero fun hn => ?_
  have hle := le_of_holds hx h
  have hpos : 0 < 10 ^ (-power).toNat := Nat.pow_pos (by decide)
  rw [hn, Nat.zero_mul, Nat.zero_mul] at hle
  omega

theorem covers_mul_pow_iff {n k : Nat} {p q : Int} (h : p + k = q) :
    x.Covers (n * 10 ^ k) p ↔ x.Covers n q := by
  have hten : ∀ i, 0 < 10 ^ i := fun i => Nat.pow_pos (by decide)
  have hpowers : k + p.toNat + (-q).toNat = q.toNat + (-p).toNat := by omega
  have hvalue : n * 10 ^ k * 10 ^ p.toNat * 10 ^ (-q).toNat =
      n * 10 ^ q.toNat * 10 ^ (-p).toNat := by
    rw [Nat.mul_assoc, Nat.mul_assoc, Nat.mul_assoc, ← Nat.pow_add, ← Nat.pow_add, ← Nat.pow_add,
      ← Nat.add_assoc, hpowers]
  unfold Covers
  rw [x.basin.holds_congr (hten _) (hten _) ?_]
  rw [Nat.mul_assoc, Nat.mul_assoc 4, Nat.mul_right_comm, Nat.mul_right_comm _ oneUnits, hvalue]

end Values

end Binary64

namespace Numeral

variable {n : Numeral} {x : Binary64}

theorem toBinary64?_of_covers (hdigits : ∀ c ∈ n.whole ++ n.fraction.getD [], c.isDigit = true)
    (hsign : n.negative = x.negative) (hx : x.significand ≠ 0)
    (h : x.Covers n.value n.lastPower) : n.toBinary64? = some x := by
  have hlow : ¬(n.significant = [] ∨ n.lastPower + n.significant.length < -330) := fun hlow =>
    Nat.not_le.2 (two_mul_value_lt hdigits hlow) (Binary64.le_of_holds hx h)
  have hhigh : ¬310 < n.lastPower + n.significant.length := fun hhigh =>
    Nat.not_le.2 (Binary64.lt_overflow_of_holds n.denominator_pos h)
      (overflow_le_value hdigits hhigh fun hnil => hlow (.inl hnil))
  rw [toBinary64?_eq, if_neg hlow, if_neg hhigh, hsign]
  exact Binary64.ofUnits?_of_holds n.denominator_pos h

end Numeral

end RowSelect
