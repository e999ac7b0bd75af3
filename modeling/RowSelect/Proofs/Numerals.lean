import RowSelect.Proofs.Characters
import RowSelect.Proofs.Cutting
import RowSelect.Proofs.Nearest

/-!
The values of numerals: digits taken together are one natural number, and reading a numeral gives
that number itself or the nearest one of the format.
-/

set_option autoImplicit false

namespace RowSelect

theorem digitsValue_cons (c : Char) (cs : List Char) :
    digitsValue (c :: cs) = 10 ^ cs.length * (c.toNat - '0'.toNat) + digitsValue cs := by
  have h : digitsValue (c :: cs) = Nat.ofDigitChars 10 cs (10 * 0 + (c.toNat - '0'.toNat)) := rfl
  rw [h, Nat.mul_zero, Nat.zero_add, Nat.ofDigitChars_eq_ofDigitChars_zero]
  rfl

theorem digitsValue_lt_pow {cs : List Char} (h : ∀ c ∈ cs, c.isDigit = true) :
    digitsValue cs < 10 ^ cs.length := by
  induction cs with
  | nil => decide
  | cons c cs ih =>
    have hc := (Query.toNat_of_isDigit (h c (List.mem_cons_self ..))).2
    have hrest := ih fun d hd => h d (List.mem_cons_of_mem _ hd)
    have hdigit : c.toNat - '0'.toNat ≤ 9 := by
      have hzero : '0'.toNat = 0x30 := rfl
      omega
    have hle := Nat.mul_le_mul_left (10 ^ cs.length) hdigit
    rw [digitsValue_cons, List.length_cons, Nat.pow_succ]
    omega

theorem pow_le_digitsValue {c : Char} {cs : List Char} (hc : c.isDigit = true) (hne : c ≠ '0') :
    10 ^ cs.length ≤ digitsValue (c :: cs) := by
  have hlow := (Query.toNat_of_isDigit hc).1
  have hzero : '0'.toNat = 0x30 := rfl
  have hdigit : 1 ≤ c.toNat - '0'.toNat := by
    have hval : c.toNat ≠ '0'.toNat := fun he => hne (Char.toNat_inj.1 he)
    omega
  have hle := Nat.mul_le_mul_left (10 ^ cs.length) hdigit
  rw [digitsValue_cons]
  omega

theorem digitsValue_dropWhile_zero (cs : List Char) :
    digitsValue (cs.dropWhile (· == '0')) = digitsValue cs := by
  induction cs with
  | nil => rfl
  | cons c cs ih =>
    by_cases hc : c = '0'
    · subst hc
      rw [List.dropWhile_cons_of_pos (by decide), ih, digitsValue_cons]
      simp
    · rw [List.dropWhile_cons_of_neg (by simpa using hc)]

theorem digitsValue_append (xs ys : List Char) :
    digitsValue (xs ++ ys) = 10 ^ ys.length * digitsValue xs + digitsValue ys := by
  have h : digitsValue (xs ++ ys) = Nat.ofDigitChars 10 ys (digitsValue xs) := List.foldl_append
  rw [h, Nat.ofDigitChars_eq_ofDigitChars_zero]
  rfl

theorem digitsValue_zeros (k : Nat) : digitsValue (List.replicate k '0') = 0 := by
  have h : digitsValue (List.replicate k '0') = 10 ^ k * 0 := Nat.ofDigitChars_replicate_zero
  rw [h, Nat.mul_zero]

theorem digitsValue_append_zeros (ds : List Char) (k : Nat) :
    digitsValue (ds ++ List.replicate k '0') = digitsValue ds * 10 ^ k := by
  rw [digitsValue_append, digitsValue_zeros, List.length_replicate, Nat.add_zero, Nat.mul_comm]

theorem digitsValue_zeros_append (k : Nat) (ds : List Char) :
    digitsValue (List.replicate k '0' ++ ds) = digitsValue ds := by
  rw [digitsValue_append, digitsValue_zeros, Nat.mul_zero, Nat.zero_add]

theorem isDigit_toDigits (n : Nat) : ∀ c ∈ Nat.toDigits 10 n, c.isDigit = true :=
  fun _ hc => Nat.isDigit_of_mem_toDigits (by decide) (by decide) hc

theorem digitsValue_toDigits (n : Nat) : digitsValue (Nat.toDigits 10 n) = n :=
  Nat.ofDigitChars_ten_toDigits

namespace Numeral

def value (n : Numeral) : Nat := digitsValue (n.whole ++ n.fraction.getD [])

def divisor (n : Numeral) : Nat := 10 ^ (n.fraction.getD []).length

def multiplier (n : Numeral) : Nat := 10 ^ n.lastPower.toNat

def denominator (n : Numeral) : Nat := 10 ^ (-n.lastPower).toNat

structure IsPlain (n : Numeral) : Prop where
  positive : n.negative = false
  exponent : n.exponent = none
  digits : ∀ c ∈ n.whole ++ n.fraction.getD [], c.isDigit = true

/-- What the reader does not compute is next to zero or past the end of the range. -/
theorem powers_bound :
    2 * Binary64.oneUnits ≤ 10 ^ 330 ∧ Binary64.overflow ≤ 10 ^ 310 * Binary64.oneUnits := by
  decide +kernel

variable {n : Numeral}

theorem divisor_pos (n : Numeral) : 0 < n.divisor := Nat.pow_pos (by decide)

theorem multiplier_pos (n : Numeral) : 0 < n.multiplier := Nat.pow_pos (by decide)

theorem denominator_pos (n : Numeral) : 0 < n.denominator := Nat.pow_pos (by decide)

theorem digitsValue_significant (n : Numeral) : digitsValue n.significant = n.value :=
  digitsValue_dropWhile_zero _

theorem toBinary64?_eq (n : Numeral) :
    n.toBinary64? =
      if n.significant = [] ∨ n.lastPower + n.significant.length < -330 then
        some (.zero n.negative)
      else if 310 < n.lastPower + n.significant.length then none
      else Binary64.ofUnits? n.negative (n.value * n.multiplier * Binary64.oneUnits)
        n.denominator := by
  unfold toBinary64? multiplier denominator
  simp only [digitsValue_significant, Binary64.ofRatio?_eq, Nat.pow_eq]
  cases n.lastPower with
  | ofNat p => simp
  | negSucc p => simp

section Bounds

variable (h : ∀ c ∈ n.whole ++ n.fraction.getD [], c.isDigit = true)

include h

theorem isDigit_significant : ∀ c ∈ n.significant, c.isDigit = true :=
  fun c hc => h c ((List.dropWhile_sublist _).mem hc)

theorem value_lt : n.value < 10 ^ n.significant.length := by
  rw [← digitsValue_significant]
  exact digitsValue_lt_pow (isDigit_significant h)

theorem le_value (hne : n.significant ≠ []) : 10 ^ (n.significant.length - 1) ≤ n.value := by
  rw [← digitsValue_significant]
  obtain ⟨c, cs, hcs⟩ := List.exists_cons_of_ne_nil hne
  have hc : c.isDigit = true := isDigit_significant h c (by simp [hcs])
  obtain ⟨-, -, hstop⟩ := cut_of_dropWhile hcs
  rw [hcs]
  exact pow_le_digitsValue hc (by simpa using hstop)

theorem two_mul_value_lt
    (hlow : n.significant = [] ∨ n.lastPower + n.significant.length < -330) :
    2 * (n.value * n.multiplier * Binary64.oneUnits) < n.denominator := by
  have hsmall : 10 ^ 330 * (n.value * n.multiplier) < n.denominator := by
    rcases hlow with hnil | hlow
    · have hvalue : n.value = 0 := by
        rw [← digitsValue_significant, hnil]
        rfl
      rw [hvalue, Nat.zero_mul, Nat.mul_zero]
      exact n.denominator_pos
    · have hlt : n.value * n.multiplier < 10 ^ (n.significant.length + n.lastPower.toNat) := by
        rw [Nat.pow_add]
        exact Nat.mul_lt_mul_of_pos_right (value_lt h) n.multiplier_pos
      have hpow : ∀ k, 0 < 10 ^ k := fun k => Nat.pow_pos (by decide)
      refine (Nat.mul_lt_mul_of_pos_left hlt (hpow 330)).trans_le ?_
      rw [← Nat.pow_add]
      exact Nat.pow_le_pow_right (by decide) (by omega)
  calc 2 * (n.value * n.multiplier * Binary64.oneUnits)
      = 2 * Binary64.oneUnits * (n.value * n.multiplier) := by
        rw [Nat.mul_comm (n.value * n.multiplier), Nat.mul_assoc]
    _ ≤ 10 ^ 330 * (n.value * n.multiplier) := Nat.mul_le_mul_right _ powers_bound.1
    _ < n.denominator := hsmall

theorem overflow_le_value (hhigh : 310 < n.lastPower + n.significant.length)
    (hne : n.significant ≠ []) :
    Binary64.overflow * n.denominator ≤ n.value * n.multiplier * Binary64.oneUnits :=
  calc Binary64.overflow * n.denominator
      ≤ 10 ^ 310 * Binary64.oneUnits * n.denominator := Nat.mul_le_mul_right _ powers_bound.2
    _ = 10 ^ 310 * n.denominator * Binary64.oneUnits := Nat.mul_right_comm ..
    _ = 10 ^ (310 + (-n.lastPower).toNat) * Binary64.oneUnits := by
        rw [denominator, ← Nat.pow_add]
    _ ≤ 10 ^ (n.significant.length - 1 + n.lastPower.toNat) * Binary64.oneUnits :=
        Nat.mul_le_mul_right _ (Nat.pow_le_pow_right (by decide) (by omega))
    _ = 10 ^ (n.significant.length - 1) * n.multiplier * Binary64.oneUnits := by
        rw [multiplier, Nat.pow_add]
    _ ≤ n.value * n.multiplier * Binary64.oneUnits :=
        Nat.mul_le_mul_right _ (Nat.mul_le_mul_right _ (le_value h hne))

end Bounds

theorem IsPlain.scale (h : n.IsPlain) : n.multiplier = 1 ∧ n.denominator = n.divisor := by
  simp [multiplier, denominator, divisor, lastPower, h.exponent]

/-- Reading a numeral gives the nearest number, and nothing exactly where that is past the end of the
range. -/
theorem toBinary64?_spec (h : n.IsPlain) :
    (n.toBinary64? = none ↔ Binary64.overflow * n.divisor ≤ n.value * Binary64.oneUnits) ∧
    ∀ x, n.toBinary64? = some x → x.IsNearest (n.value * Binary64.oneUnits) n.divisor := by
  have hpos := n.divisor_pos
  have htiny := two_mul_value_lt h.digits
  have hover := overflow_le_value h.digits
  rw [toBinary64?_eq, h.positive]
  rw [h.scale.1, h.scale.2, Nat.mul_one] at *
  split_ifs with hlow hhigh
  · have hsmall := htiny hlow
    have hlarge : 1 * n.divisor ≤ Binary64.overflow * n.divisor :=
      Nat.mul_le_mul_right _ (by decide +kernel)
    refine ⟨iff_of_false (by simp) (by omega), fun x hx => ?_⟩
    cases hx
    exact Binary64.isNearest_zero hsmall.le
  · exact ⟨iff_of_true rfl (hover hhigh fun hnil => hlow (.inl hnil)), by simp⟩
  · exact ⟨Binary64.ofUnits?_eq_none_iff hpos, fun x hx => Binary64.isNearest_of_ofUnits? hpos hx⟩

/-- What a plain numeral denotes: the integer that is written, if it is below `2 ^ 64`, else the
nearest number of the format, if the value is in its range. -/
inductive Denotes (n : Numeral) : Option Number → Prop where
  | integer (hwhole : n.fraction = none) (hlt : n.value < 0x10000000000000000) :
      Denotes n (some (.integer n.value (by omega)))
  | real {x : Binary64} (hother : n.fraction = none → 0x10000000000000000 ≤ n.value)
      (hlt : n.value * Binary64.oneUnits < Binary64.overflow * n.divisor)
      (hx : x.IsNearest (n.value * Binary64.oneUnits) n.divisor) : Denotes n (some (.real x))
  | beyond (hother : n.fraction = none → 0x10000000000000000 ≤ n.value)
      (hge : Binary64.overflow * n.divisor ≤ n.value * Binary64.oneUnits) : Denotes n none

theorem Denotes.of_value {v : Nat} (hwhole : n.fraction = none) (hv : n.value = v)
    (hlt : v < 0x10000000000000000) : n.Denotes (some (.integer v (by omega))) := by
  subst hv
  exact .integer hwhole hlt

theorem ofNumeral?_of_integer (h : n.IsPlain) (hwhole : n.fraction = none)
    (hlt : n.value < 0x10000000000000000) :
    Number.ofNumeral? n = some (.integer n.value (by omega)) := by
  have hvalue : digitsValue n.whole = n.value := by simp [value, hwhole]
  have hint : n.isWhole = true := by simp [isWhole, hwhole, h.exponent]
  have hrange : -0x8000000000000000 ≤ (n.value : Int) ∧ (n.value : Int) < 0x10000000000000000 := by
    omega
  simp [Number.ofNumeral?, Number.ofNumeralBy?, hvalue, hint, h.positive, hlt, Number.ofInt?, hrange]

theorem ofNumeral?_of_real (h : n.IsPlain)
    (hother : n.fraction = none → 0x10000000000000000 ≤ n.value) :
    Number.ofNumeral? n = n.toBinary64?.map .real := by
  have hnot : ¬(n.isWhole = true ∧ ¬n.negative = true ∧
      digitsValue n.whole < 0x10000000000000000) := by
    intro hall
    obtain ⟨hint, -, hlt⟩ := hall
    have hwhole : n.fraction = none := by
      simp only [isWhole, Bool.and_eq_true, Option.isNone_iff_eq_none] at hint
      exact hint.1
    have hle := hother hwhole
    simp only [value, hwhole, Option.getD_none, List.append_nil] at hle
    omega
  rw [Number.ofNumeral?, Number.ofNumeralBy?, if_neg hnot, if_neg (by simp [h.positive])]

theorem ofNumeral?_eq_of_denotes (h : n.IsPlain) {r : Option Number} (hr : n.Denotes r) :
    Number.ofNumeral? n = r := by
  obtain ⟨hnone, hsome⟩ := toBinary64?_spec h
  cases hr with
  | integer hwhole hlt => exact ofNumeral?_of_integer h hwhole hlt
  | @real x hother hlt hx =>
    rw [ofNumeral?_of_real h hother]
    cases hy : n.toBinary64? with
    | none => exact absurd (hnone.1 hy) (Nat.not_le.2 hlt)
    | some y => rw [(hsome y hy).unique n.divisor_pos hx, Option.map_some]
  | beyond hother hge => rw [ofNumeral?_of_real h hother, hnone.2 hge, Option.map_none]

theorem denotes_ofNumeral? (h : n.IsPlain) : n.Denotes (Number.ofNumeral? n) := by
  obtain ⟨hnone, hsome⟩ := toBinary64?_spec h
  by_cases hint : n.fraction = none ∧ n.value < 0x10000000000000000
  · rw [ofNumeral?_of_integer h hint.1 hint.2]
    exact .integer hint.1 hint.2
  · have hother : n.fraction = none → 0x10000000000000000 ≤ n.value :=
      fun hwhole => Nat.not_lt.1 fun hlt => hint ⟨hwhole, hlt⟩
    rw [ofNumeral?_of_real h hother]
    cases hx : n.toBinary64? with
    | none => exact .beyond hother (hnone.1 hx)
    | some x =>
      have hlt : n.value * Binary64.oneUnits < Binary64.overflow * n.divisor := by
        refine Nat.not_le.1 fun hge => ?_
        rw [hnone.2 hge] at hx
        cases hx
      exact .real hother hlt (hsome x hx)

theorem denotes_iff (h : n.IsPlain) {r : Option Number} :
    n.Denotes r ↔ r = Number.ofNumeral? n := by
  constructor
  · intro hr
    exact (ofNumeral?_eq_of_denotes h hr).symm
  · rintro rfl
    exact denotes_ofNumeral? h

end Numeral

end RowSelect
