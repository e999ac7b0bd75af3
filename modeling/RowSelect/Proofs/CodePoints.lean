import Mathlib.Tactic.MkIffOfInductiveProp
import RowSelect.Query.CaseFolding

/-!
What the tables of characters say of one another. A set of code points is written as the bits of a
number, so that an equation between numbers tells whether one set lies in another or apart from it.
-/

set_option autoImplicit false

namespace RowSelect.Text

theorem exists_interval_of_inIntervals {is : List (Nat × Nat)} {n : Nat}
    (h : inIntervals is n = true) : ∃ i ∈ is, i.1 ≤ n ∧ n ≤ i.2 := by
  induction is with
  | nil => simp [inIntervals] at h
  | cons i rest ih =>
    simp only [inIntervals, Bool.and_eq_true, Bool.or_eq_true, decide_eq_true_eq] at h
    obtain ⟨hlo, hhi | hrest⟩ := h
    · exact ⟨i, List.mem_cons_self .., hlo, hhi⟩
    · obtain ⟨j, hj, hn⟩ := ih hrest
      exact ⟨j, List.mem_cons_of_mem _ hj, hn⟩

def ascending : List (Nat × Nat) → Bool
  | i :: j :: rest => Nat.ble i.1 j.1 && ascending (j :: rest)
  | _ => true

theorem ascending_cons {i : Nat × Nat} {rest : List (Nat × Nat)}
    (h : ascending (i :: rest) = true) :
    (∀ j ∈ rest, i.1 ≤ j.1) ∧ ascending rest = true := by
  induction rest generalizing i with
  | nil => exact ⟨by simp, rfl⟩
  | cons j more ih =>
    obtain ⟨hij, hrest⟩ := Bool.and_eq_true_iff.1 h
    refine ⟨fun k hk => ?_, hrest⟩
    rcases List.mem_cons.1 hk with rfl | hmore
    · exact Nat.le_of_ble_eq_true hij
    · exact Nat.le_trans (Nat.le_of_ble_eq_true hij) ((ih hrest).1 k hmore)

theorem inIntervals_of_mem {is : List (Nat × Nat)} (hsorted : ascending is = true)
    {i : Nat × Nat} (hi : i ∈ is) {n : Nat} (hlo : i.1 ≤ n) (hhi : n ≤ i.2) :
    inIntervals is n = true := by
  induction is with
  | nil => simp at hi
  | cons j rest ih =>
    -- The search ends at an interval that starts above `n`, so `j` has to start below `i`.
    obtain ⟨hj, hrest⟩ := ascending_cons hsorted
    simp only [inIntervals, Bool.and_eq_true, Bool.or_eq_true, decide_eq_true_eq]
    rcases List.mem_cons.1 hi with rfl | hmem
    · exact ⟨hlo, .inl hhi⟩
    · exact ⟨Nat.le_trans (hj i hmem) hlo, .inr (ih hrest hmem)⟩

/-- The numbers in the intervals, as the bits that are set in one number. -/
def bits : List (Nat × Nat) → Nat
  | [] => 0
  | i :: rest => (1 <<< (i.2 + 1 - i.1) - 1) <<< i.1 ||| bits rest

theorem testBit_bits_iff {is : List (Nat × Nat)} {n : Nat} :
    (bits is).testBit n = true ↔ ∃ i ∈ is, i.1 ≤ n ∧ n ≤ i.2 := by
  induction is with
  | nil => simp [bits]
  | cons i rest ih =>
    have hhead : ((1 <<< (i.2 + 1 - i.1) - 1) <<< i.1).testBit n = true ↔ i.1 ≤ n ∧ n ≤ i.2 := by
      rw [Nat.one_shiftLeft, Nat.testBit_shiftLeft, Nat.testBit_two_pow_sub_one, Bool.and_eq_true,
        decide_eq_true_eq, decide_eq_true_eq]
      omega
    simp only [bits, Nat.testBit_or, Bool.or_eq_true, hhead, ih, List.mem_cons, exists_eq_or_imp]

theorem testBit_of_inIntervals {is : List (Nat × Nat)} {n : Nat} (h : inIntervals is n = true) :
    (bits is).testBit n = true :=
  testBit_bits_iff.2 (exists_interval_of_inIntervals h)

theorem inIntervals_of_testBit {is : List (Nat × Nat)} {n : Nat} (hsorted : ascending is = true)
    (h : (bits is).testBit n = true) : inIntervals is n = true := by
  obtain ⟨i, hi, hlo, hhi⟩ := testBit_bits_iff.1 h
  exact inIntervals_of_mem hsorted hi hlo hhi

theorem testBit_of_subset {a b n : Nat} (h : a &&& b = a) (ha : a.testBit n = true) :
    b.testBit n = true := by
  rw [← h, Nat.testBit_and, Bool.and_eq_true] at ha
  exact ha.2

theorem testBit_of_disjoint {a b n : Nat} (h : a &&& b = 0) (ha : a.testBit n = true) :
    b.testBit n = false := by
  have hand : (a &&& b).testBit n = false := by rw [h, Nat.zero_testBit]
  rwa [Nat.testBit_and, ha, Bool.true_and] at hand

theorem not_inIntervals_of_disjoint {is js : List (Nat × Nat)} (h : bits is &&& bits js = 0)
    {n : Nat} (hn : inIntervals is n = true) : inIntervals js n = false := by
  have hbit := testBit_of_disjoint h (testBit_of_inIntervals hn)
  cases hj : inIntervals js n with
  | false => rfl
  | true => exact absurd (testBit_of_inIntervals hj) (ne_true_of_eq_false hbit)

/-- The bits of the first `count` multiples of `step`. -/
def comb (step : Nat) : Nat → Nat
  | 0 => 0
  | count + 1 => comb step count <<< step ||| 1

theorem testBit_comb {step count i : Nat} (h : i < count) :
    (comb step count).testBit (step * i) = true := by
  induction count generalizing i with
  | zero => exact absurd h (Nat.not_lt_zero i)
  | succ count ih =>
    rw [comb, Nat.testBit_or, Bool.or_eq_true]
    cases i with
    | zero => exact .inr (by simp)
    | succ i =>
      left
      rw [Nat.mul_succ, Nat.testBit_shiftLeft, Nat.add_sub_cancel, ih (Nat.lt_of_succ_lt_succ h)]
      simp

/-- The characters of a run, moved to another start. -/
def CaseRun.bitsFrom (r : CaseRun) (start : Nat) : Nat :=
  comb r.step ((r.last - r.first) / r.step + 1) <<< start

theorem CaseRun.testBit_bitsFrom {r : CaseRun} {n : Nat} (h : r.covers n = true) (start : Nat) :
    (r.bitsFrom start).testBit (start + (n - r.first)) = true := by
  simp only [covers, Bool.and_eq_true, decide_eq_true_eq, beq_iff_eq] at h
  obtain ⟨⟨-, hhi⟩, hmod⟩ := h
  have hdiv : r.step * ((n - r.first) / r.step) = n - r.first :=
    Nat.mul_div_cancel' (Nat.dvd_of_mod_eq_zero hmod)
  have hle : (n - r.first) / r.step ≤ (r.last - r.first) / r.step :=
    Nat.div_le_div_right (Nat.sub_le_sub_right hhi _)
  have hbit : (comb r.step ((r.last - r.first) / r.step + 1)).testBit (n - r.first) = true := by
    rw [← hdiv]
    exact testBit_comb (Nat.lt_succ_of_le hle)
  rw [bitsFrom, Nat.testBit_shiftLeft, Nat.add_sub_cancel_left, hbit]
  simp

def unite (f : CaseRun → Nat) : List CaseRun → Nat
  | [] => 0
  | r :: rest => f r ||| unite f rest

theorem testBit_unite {f : CaseRun → Nat} {runs : List CaseRun} {r : CaseRun} (hr : r ∈ runs)
    {n : Nat} (h : (f r).testBit n = true) : (unite f runs).testBit n = true := by
  induction runs with
  | nil => cases hr
  | cons s rest ih =>
    rw [unite, Nat.testBit_or, Bool.or_eq_true]
    rcases List.mem_cons.1 hr with rfl | hrest
    · exact .inl h
    · exact .inr (ih hrest)

/-- The characters with another lower case. -/
def capitals : Nat := 1 <<< 0x130 ||| unite (fun r => r.bitsFrom r.first) caseRuns

/-- The characters that are the lower case of one in a run. -/
def smalls : Nat := unite (fun r => r.bitsFrom (r.first + r.shift).toNat) caseRuns

def validIntervals : List (Nat × Nat) := [(0, 0xD7FF), (0xE000, 0x10FFFF)]

def signIntervals : List (Nat × Nat) := (1, 0x40) :: blankIntervals

/-- What the tables of characters say of each other. -/
@[mk_iff]
structure TablesAgree : Prop where
  ascending_alphabetic : ascending alphabeticIntervals = true
  alphabetic_valid : bits alphabeticIntervals &&& bits validIntervals = bits alphabeticIntervals
  alphabetic_sign : bits alphabeticIntervals &&& bits signIntervals = 0
  numeric_blank : bits numericIntervals &&& bits blankIntervals = 0
  shift_nonneg : (caseRuns.all fun r => decide (0 ≤ r.first + r.shift)) = true
  capitals_alphabetic : capitals &&& bits alphabeticIntervals = capitals
  smalls_alphabetic : smalls &&& bits alphabeticIntervals = smalls
  smalls_capitals : smalls &&& capitals = 0

theorem tablesAgree : TablesAgree := tablesAgree_iff.2 (by decide +kernel)

theorem toNat_ofNat_of_alphabetic {n : Nat} (h : inIntervals alphabeticIntervals n = true) :
    (Char.ofNat n).toNat = n := by
  have hvalid : (bits validIntervals).testBit n = true :=
    testBit_of_subset tablesAgree.alphabetic_valid (testBit_of_inIntervals h)
  obtain ⟨i, hi, hlo, hhi⟩ := testBit_bits_iff.1 hvalid
  have hn : n.isValidChar := by
    simp only [validIntervals, List.mem_cons, List.not_mem_nil, or_false] at hi
    simp only [Nat.isValidChar]
    rcases hi with rfl | rfl <;> omega
  rw [Char.ofNat, dif_pos hn]
  rfl

theorem isAlphabetic_of_testBit {c : Char} (h : capitals.testBit c.toNat = true) :
    isAlphabetic c = true :=
  inIntervals_of_testBit tablesAgree.ascending_alphabetic
    (testBit_of_subset tablesAgree.capitals_alphabetic h)

theorem testBit_capitals_of_covers {r : CaseRun} (hr : r ∈ caseRuns) {n : Nat}
    (h : r.covers n = true) : capitals.testBit n = true := by
  have hlo : r.first ≤ n := by
    simp only [CaseRun.covers, Bool.and_eq_true, decide_eq_true_eq] at h
    exact h.1.1
  have hbit := CaseRun.testBit_bitsFrom h r.first
  rw [Nat.add_sub_cancel' hlo] at hbit
  rw [capitals, Nat.testBit_or, testBit_unite hr hbit, Bool.or_true]

theorem caseShift?_eq_none {runs : List CaseRun} {n : Nat} (h : ∀ r ∈ runs, r.covers n = false) :
    caseShift? runs n = none := by
  induction runs with
  | nil => rfl
  | cons r rest ih =>
    have hr := h r (List.mem_cons_self ..)
    have hrest := ih fun r' hr' => h r' (List.mem_cons_of_mem _ hr')
    by_cases hn : n < r.first <;> simp [caseShift?, hn, hr, hrest]

theorem exists_run_of_caseShift? {runs : List CaseRun} {n : Nat} {shift : Int}
    (h : caseShift? runs n = some shift) : ∃ r ∈ runs, r.covers n = true ∧ r.shift = shift := by
  induction runs with
  | nil => cases h
  | cons r rest ih =>
    rw [caseShift?] at h
    split at h
    · cases h
    · split at h
      · next hcovers => exact ⟨r, List.mem_cons_self .., hcovers, Option.some.inj h⟩
      · obtain ⟨s, hs, hshift⟩ := ih h
        exact ⟨s, List.mem_cons_of_mem _ hs, hshift⟩

theorem lowerChar_of_not_capital {c : Char} (h : capitals.testBit c.toNat = false) :
    lowerChar c = [c] := by
  have hdot : c ≠ '\u0130' := by
    rintro rfl
    have hbit : capitals.testBit '\u0130'.toNat = true := by
      rw [capitals, Nat.testBit_or, Bool.or_eq_true]
      exact .inl rfl
    exact absurd hbit (ne_true_of_eq_false h)
  have hruns : ∀ r ∈ caseRuns, r.covers c.toNat = false := by
    intro r hr
    cases hcovers : r.covers c.toNat with
    | false => rfl
    | true => exact absurd (testBit_capitals_of_covers hr hcovers) (ne_true_of_eq_false h)
  rw [lowerChar, if_neg hdot, caseShift?_eq_none hruns]

theorem lowerChar_of_not_alphabetic {c : Char} (h : isAlphabetic c = false) :
    lowerChar c = [c] := by
  cases hbit : capitals.testBit c.toNat with
  | false => exact lowerChar_of_not_capital hbit
  | true => exact absurd (isAlphabetic_of_testBit hbit) (ne_true_of_eq_false h)

/-- But for the dotted capital I, a character that lower-casing changes is a letter and becomes
another one, which lower-casing leaves as it is. -/
theorem lowerChar_cases {c : Char} (hdot : c ≠ '\u0130') :
    lowerChar c = [c] ∨ isAlphabetic c = true ∧
      ∃ d, lowerChar c = [d] ∧ isAlphabetic d = true ∧ lowerChar d = [d] := by
  unfold lowerChar
  rw [if_neg hdot]
  cases hshift : caseShift? caseRuns c.toNat with
  | none => exact .inl rfl
  | some shift =>
    obtain ⟨r, hr, hcovers, rfl⟩ := exists_run_of_caseShift? hshift
    have hnonneg : 0 ≤ r.first + r.shift :=
      of_decide_eq_true (List.all_eq_true.1 tablesAgree.shift_nonneg r hr)
    have hlo : r.first ≤ c.toNat := by
      simp only [CaseRun.covers, Bool.and_eq_true, decide_eq_true_eq] at hcovers
      exact hcovers.1.1
    have hmoved : (c.toNat + r.shift).toNat =
        (r.first + r.shift).toNat + (c.toNat - r.first) := by omega
    have hsmall : smalls.testBit (c.toNat + r.shift).toNat = true := by
      rw [hmoved]
      exact testBit_unite hr (CaseRun.testBit_bitsFrom hcovers _)
    have halphabetic : inIntervals alphabeticIntervals (c.toNat + r.shift).toNat = true :=
      inIntervals_of_testBit tablesAgree.ascending_alphabetic
        (testBit_of_subset tablesAgree.smalls_alphabetic hsmall)
    have hvalue := toNat_ofNat_of_alphabetic halphabetic
    refine .inr ⟨isAlphabetic_of_testBit (testBit_capitals_of_covers hr hcovers), _, rfl, ?_, ?_⟩
    · rwa [isAlphabetic, hvalue]
    · refine lowerChar_of_not_capital ?_
      rw [hvalue]
      exact testBit_of_disjoint tablesAgree.smalls_capitals hsmall

end RowSelect.Text
