import Mathlib.Algebra.Group.Nat.Defs
import Mathlib.Data.Nat.Basic
import Mathlib.Order.Basic
import Mathlib.Tactic.SplitIfs
import RowSelect.Number

/-!
Rounding to the binary format keeps the order: of two integers, the smaller one never becomes the
larger number. An integer of 64 bits is far from the end of the range, so it always has a rounding,
and the rounding has its sign.
-/

set_option autoImplicit false

namespace RowSelect

namespace Binary64

section Quotients

theorem roundHalfEven_mono {a b d : Nat} (h : a ≤ b) :
    roundHalfEven a d ≤ roundHalfEven b d := by
  obtain hq | hq := (Nat.div_le_div_right (c := d) h).lt_or_eq
  · calc roundHalfEven a d ≤ a / d + 1 := roundHalfEven_le a d
      _ ≤ b / d := hq
      _ ≤ roundHalfEven b d := div_le_roundHalfEven b d
  · have ha := Nat.div_add_mod a d
    have hb := Nat.div_add_mod b d
    rw [hq] at ha
    unfold roundHalfEven
    rw [hq]
    split_ifs <;> omega

theorem scaleFor_mono {q r : Nat} (h : q ≤ r) : scaleFor q ≤ scaleFor r := by
  by_cases hq : q = 0
  · subst hq
    exact Nat.zero_le _
  · exact Nat.sub_le_sub_right ((Nat.le_log2 (by omega)).2 ((Nat.log2_self_le hq).trans h)) 52

theorem div_scaleFor_pos {q : Nat} (h : 0 < q) : 0 < q / 2 ^ scaleFor q := by
  by_cases hs : scaleFor q = 0
  · simpa [hs] using h
  · exact Nat.lt_of_lt_of_le (by decide) (le_div_scaleFor q hs)

def nearest (a d : Nat) : Nat :=
  roundHalfEven a (d * 2 ^ scaleFor (a / d)) * 2 ^ scaleFor (a / d)

theorem nearest_le (a d : Nat) : nearest a d ≤ 2 ^ 53 * 2 ^ scaleFor (a / d) := by
  refine Nat.mul_le_mul_right _ ((roundHalfEven_le _ _).trans ?_)
  rw [← Nat.div_div_eq_div_mul]
  exact div_scaleFor_lt (a / d)

theorem le_nearest (a d : Nat) :
    a / d / 2 ^ scaleFor (a / d) * 2 ^ scaleFor (a / d) ≤ nearest a d := by
  rw [Nat.div_div_eq_div_mul]
  exact Nat.mul_le_mul_right _ (div_le_roundHalfEven _ _)

/-- At one scale this is the order of the significands. A number of a smaller scale is at most the
power of two at which the next scale begins. -/
theorem nearest_mono {a b : Nat} (d : Nat) (h : a ≤ b) : nearest a d ≤ nearest b d := by
  have hq : a / d ≤ b / d := Nat.div_le_div_right h
  obtain hs | hs := (scaleFor_mono hq).lt_or_eq
  · have hfull := le_div_scaleFor (b / d) (by omega)
    calc nearest a d ≤ 2 ^ 53 * 2 ^ scaleFor (a / d) := nearest_le a d
      _ = 2 ^ (53 + scaleFor (a / d)) := (Nat.pow_add ..).symm
      _ ≤ 2 ^ (52 + scaleFor (b / d)) := Nat.pow_le_pow_right (by decide) (by omega)
      _ = 2 ^ 52 * 2 ^ scaleFor (b / d) := Nat.pow_add ..
      _ ≤ b / d / 2 ^ scaleFor (b / d) * 2 ^ scaleFor (b / d) := Nat.mul_le_mul_right _ hfull
      _ ≤ nearest b d := le_nearest b d
  · unfold nearest
    rw [hs]
    exact Nat.mul_le_mul_right _ (roundHalfEven_mono h)

theorem nearest_pos {a d : Nat} (h : 0 < a / d) : 0 < nearest a d :=
  Nat.lt_of_lt_of_le (Nat.mul_pos (div_scaleFor_pos h) (Nat.two_pow_pos _)) (le_nearest a d)

theorem ofUnits?_eq_some {negative : Bool} {a d : Nat} {x : Binary64}
    (h : ofUnits? negative a d = some x) : x.negative = negative ∧ x.magnitude = nearest a d := by
  have hle := nearest_le a d
  unfold ofUnits? at h
  simp only [Nat.pow_eq] at h
  split at h
  · split at h
    · cases h
      exact ⟨rfl, rfl⟩
    · cases h
  · rename_i hm
    split at h
    · cases h
      -- the significand is rounded up to `2 ^ 53`, which the next scale writes as `2 ^ 52`
      have hcarry : roundHalfEven a (d * 2 ^ scaleFor (a / d)) = 2 ^ 53 :=
        Nat.le_antisymm (Nat.le_of_mul_le_mul_right hle (Nat.two_pow_pos _)) (Nat.not_lt.1 hm)
      refine ⟨rfl, ?_⟩
      rw [magnitude, nearest, hcarry, Nat.pow_eq, Nat.pow_succ']
      exact (Nat.mul_assoc (2 ^ 52) 2 _).symm
    · cases h

theorem ofUnits?_isSome {negative : Bool} {a d : Nat} (h : scaleFor (a / d) < 2045) :
    (ofUnits? negative a d).isSome := by
  unfold ofUnits?
  dsimp only
  split
  · rw [dif_pos (by omega)]
    rfl
  · rw [dif_pos (by omega)]
    rfl

theorem scaleFor_mul_two_pow {n k : Nat} (e : Nat) (h : n < 2 ^ k) :
    scaleFor (n * 2 ^ e) ≤ k + e := by
  by_cases h0 : n * 2 ^ e = 0
  · simp [h0, scaleFor]
  · have hlt : n * 2 ^ e < 2 ^ (k + e) := by
      rw [Nat.pow_add]
      exact Nat.mul_lt_mul_of_pos_right h (Nat.two_pow_pos e)
    have := (Nat.log2_lt h0).2 hlt
    unfold scaleFor
    omega

end Quotients

section Values

theorem magnitude_lt_of_scale_lt {y : Binary64} {s : Nat} (h : y.scale < s) :
    y.magnitude < 2 ^ 52 * 2 ^ s := by
  rw [magnitude, Nat.pow_eq]
  calc y.significand * 2 ^ y.scale
      < 2 ^ 53 * 2 ^ y.scale := Nat.mul_lt_mul_of_pos_right y.significand_lt (Nat.two_pow_pos _)
    _ = 2 ^ (53 + y.scale) := (Nat.pow_add ..).symm
    _ ≤ 2 ^ (52 + s) := Nat.pow_le_pow_right (by decide) (by omega)
    _ = 2 ^ 52 * 2 ^ s := Nat.pow_add ..

theorem scale_le_of_magnitude_le {x y : Binary64} (h : x.magnitude ≤ y.magnitude) :
    x.scale ≤ y.scale := by
  refine Nat.not_lt.1 fun hs => absurd h (Nat.not_le.2 ?_)
  have hfull := x.full_or_subnormal.resolve_right (by omega)
  exact (magnitude_lt_of_scale_lt hs).trans_le (Nat.mul_le_mul_right _ hfull)

theorem eq_of_magnitude_eq {x y : Binary64} (hneg : x.negative = y.negative)
    (hmag : x.magnitude = y.magnitude) : x = y := by
  have hscale : x.scale = y.scale :=
    Nat.le_antisymm (scale_le_of_magnitude_le hmag.le) (scale_le_of_magnitude_le hmag.ge)
  have hsig : x.significand = y.significand := by
    simp only [magnitude, hscale] at hmag
    exact Nat.eq_of_mul_eq_mul_right (Nat.two_pow_pos y.scale) hmag
  cases x
  cases y
  simp_all

theorem eq_of_units_eq {x y : Binary64} (hx : x.units ≠ 0) (h : x.units = y.units) : x = y := by
  have hneg : x.negative = y.negative := by
    unfold units at hx h
    cases hxn : x.negative <;> cases hyn : y.negative <;>
      simp only [hxn, hyn, if_true, if_false, Bool.false_eq_true] at hx h ⊢ <;> omega
  refine eq_of_magnitude_eq hneg ?_
  unfold units at h
  cases hyn : y.negative <;>
    simp only [hneg, hyn, if_true, if_false, Bool.false_eq_true] at h <;> omega

end Values

end Binary64

namespace Number

def nearestAbs (n : Nat) : Nat := Binary64.nearest (n * 2 ^ 1074) 1

theorem nearestAbs_mono {m n : Nat} (h : m ≤ n) : nearestAbs m ≤ nearestAbs n :=
  Binary64.nearest_mono 1 (Nat.mul_le_mul_right _ h)

theorem nearestAbs_pos {n : Nat} (h : 0 < n) : 0 < nearestAbs n := by
  have hpos := Nat.mul_pos h (Nat.two_pow_pos 1074)
  exact Binary64.nearest_pos (by rwa [Nat.div_one])

def nearest (i : Int) : Int := if i < 0 then -nearestAbs i.natAbs else nearestAbs i.natAbs

theorem nearest_mono {i j : Int} (h : i ≤ j) : nearest i ≤ nearest j := by
  unfold nearest
  split_ifs with hi hj hj
  · have := nearestAbs_mono (show j.natAbs ≤ i.natAbs by omega)
    omega
  · omega
  · omega
  · have := nearestAbs_mono (show i.natAbs ≤ j.natAbs by omega)
    omega

theorem nearest_neg {i : Int} (h : i < 0) : nearest i < 0 := by
  have := nearestAbs_pos (show 0 < i.natAbs by omega)
  rw [nearest, if_pos h]
  omega

theorem nearest_pos {i : Int} (h : 0 < i) : 0 < nearest i := by
  have := nearestAbs_pos (show 0 < i.natAbs by omega)
  rw [nearest, if_neg (by omega)]
  omega

theorem nearest_nonneg {i : Int} (h : 0 ≤ i) : 0 ≤ nearest i := by
  rw [nearest, if_neg (by omega)]
  omega

theorem eq_zero_of_nearest {i : Int} (h : nearest i = 0) : i = 0 := by
  obtain hi | hi | hi := Int.lt_trichotomy i 0
  · have := nearest_neg hi
    omega
  · exact hi
  · have := nearest_pos hi
    omega

def units : Number → Int
  | .integer i _ => nearest i
  | .real x => x.units

/-- Every number has a value in the format: an integer of 64 bits is far inside its range. -/
theorem toBinary64?_eq_some (a : Number) : ∃ x, a.toBinary64? = some x ∧ x.units = a.units := by
  cases a with
  | real x => exact ⟨x, rfl, rfl⟩
  | integer i hi =>
    have hscale : Binary64.scaleFor (i.natAbs * 2 ^ 1074 / 1) < 2045 := by
      rw [Nat.div_one]
      have hn : i.natAbs < 2 ^ 65 := by omega
      exact Nat.lt_of_le_of_lt (Binary64.scaleFor_mul_two_pow 1074 hn) (by decide)
    have hsome : (Binary64.ofUnits? (decide (i < 0)) (i.natAbs * 2 ^ 1074) 1).isSome :=
      Binary64.ofUnits?_isSome hscale
    obtain ⟨x, hx⟩ := Option.isSome_iff_exists.1 hsome
    obtain ⟨hneg, hmag⟩ := Binary64.ofUnits?_eq_some hx
    refine ⟨x, ?_, ?_⟩
    · unfold toBinary64? Binary64.ofRatio?
      generalize 1074 = e at hx ⊢
      exact hx
    · simp only [Binary64.units, hneg, hmag, units, nearest, nearestAbs, decide_eq_true_eq]

theorem units_of_toBinary64? {a : Number} {x : Binary64} (h : a.toBinary64? = some x) :
    a.units = x.units := by
  obtain ⟨y, hy, hyu⟩ := a.toBinary64?_eq_some
  cases h.symm.trans hy
  exact hyu.symm

theorem toBinary64?_of_units {a : Number} {x : Binary64} (hx : x.units ≠ 0)
    (h : a.units = x.units) : a.toBinary64? = some x := by
  obtain ⟨y, hy, hyu⟩ := a.toBinary64?_eq_some
  rw [hy, Binary64.eq_of_units_eq hx (h.symm.trans hyu.symm)]

end Number

end RowSelect
