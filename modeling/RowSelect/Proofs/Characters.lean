import Mathlib.Data.List.TakeWhile
import RowSelect.Proofs.CodePoints

/-!
How the classes of characters lie to one another: letters, digits, quotes, white space and the other
signs.
-/

set_option autoImplicit false

namespace RowSelect.Text

def isSign (c : Char) : Bool := inIntervals signIntervals c.toNat

theorem inIntervals_sign (n : Nat) :
    inIntervals signIntervals n =
      (decide (1 ≤ n) && (decide (n ≤ 0x40) || inIntervals blankIntervals n)) :=
  rfl

theorem isSign_of_isBlank {c : Char} (h : isBlank c = true) : isSign c = true := by
  have hpos : 1 ≤ c.toNat := by
    refine Nat.one_le_iff_ne_zero.2 fun hzero => ?_
    rw [isBlank, hzero] at h
    exact absurd h (by decide)
  rw [isSign, inIntervals_sign, decide_eq_true hpos, ← isBlank, h, Bool.or_true, Bool.and_true]

theorem not_isSign_of_isAlphabetic {c : Char} (h : isAlphabetic c = true) : isSign c = false :=
  not_inIntervals_of_disjoint tablesAgree.alphabetic_sign h

theorem not_isBlank_of_isAlphabetic {c : Char} (h : isAlphabetic c = true) : isBlank c = false := by
  cases hc : isBlank c with
  | false => rfl
  | true => rw [← isSign_of_isBlank hc, not_isSign_of_isAlphabetic h]

theorem lt_toNat_of_isAlphabetic {c : Char} (h : isAlphabetic c = true) : 0x40 < c.toNat := by
  have hpos : c.toNat ≠ 0 := by
    intro hzero
    rw [isAlphabetic, hzero] at h
    cases h
  have hsign := not_isSign_of_isAlphabetic h
  simp only [isSign, inIntervals_sign, Bool.and_eq_false_iff, Bool.or_eq_false_iff,
    decide_eq_false_iff_not] at hsign
  omega

theorem lowerChar_sign (c : Char) :
    lowerChar c = [c] ∨ lowerChar c ≠ [] ∧ ∀ d ∈ lowerChar c, isSign d = false := by
  by_cases hdot : c = '\u0130'
  · rw [hdot]
    exact .inr ⟨List.cons_ne_nil _ _, List.forall_mem_cons.2
      ⟨by decide, List.forall_mem_singleton.2 (by decide)⟩⟩
  · rcases lowerChar_cases hdot with hsame | ⟨-, d, hd, halphabetic, -⟩
    · exact .inl hsame
    · rw [hd]
      exact .inr ⟨List.cons_ne_nil _ _,
        List.forall_mem_singleton.2 (not_isSign_of_isAlphabetic halphabetic)⟩

theorem not_isAlphabetic_of_isBlank {c : Char} (h : isBlank c = true) : isAlphabetic c = false := by
  cases hc : isAlphabetic c with
  | false => rfl
  | true =>
    rw [not_isBlank_of_isAlphabetic hc] at h
    cases h

theorem toNat_of_isUpper {c : Char} (h : c.isUpper = true) : 0x41 ≤ c.toNat ∧ c.toNat ≤ 0x5A := by
  obtain ⟨hlo, hhi⟩ : c.val ≥ 'A'.val ∧ c.val ≤ 'Z'.val := of_decide_eq_true h
  exact ⟨UInt32.le_iff_toNat_le.1 hlo, UInt32.le_iff_toNat_le.1 hhi⟩

theorem isAlphabetic_of_isUpper {c : Char} (h : c.isUpper = true) : isAlphabetic c = true := by
  obtain ⟨hlo, hhi⟩ := toNat_of_isUpper h
  have hletters : (0x41, 0x5A) ∈ alphabeticIntervals := List.mem_cons_self ..
  exact inIntervals_of_mem tablesAgree.ascending_alphabetic hletters hlo hhi

theorem toLower_of_not_isUpper {c : Char} (h : c.isUpper = false) : c.toLower = c := by
  unfold Char.toLower
  rw [dif_neg (of_decide_eq_false h)]

theorem lowerChar_ascii :
    ∀ n ∈ List.range' 0x41 26, lowerChar (.ofNat n) = [(Char.ofNat n).toLower] := by
  decide

theorem lowerChar_eq_toLower {c : Char} (h : lowerChar c.toLower = [c.toLower]) :
    lowerChar c = [c.toLower] := by
  cases hc : c.isUpper with
  | false =>
    rw [toLower_of_not_isUpper hc] at h ⊢
    exact h
  | true =>
    obtain ⟨hlo, hhi⟩ := toNat_of_isUpper hc
    have hascii := lowerChar_ascii c.toNat (List.mem_range'_1.2 ⟨hlo, by omega⟩)
    rwa [Char.ofNat_toNat] at hascii

end RowSelect.Text

namespace RowSelect.Query

open RowSelect.Text

theorem toNat_of_isDigit {c : Char} (h : c.isDigit = true) : 0x30 ≤ c.toNat ∧ c.toNat ≤ 0x39 := by
  simpa [Char.isDigit, UInt32.le_iff_toNat_le] using h

theorem isWordChar_of_isWordStart {c : Char} (h : isWordStart c = true) : isWordChar c = true := by
  simp only [isWordStart, isWordChar, Bool.or_eq_true, beq_iff_eq] at h ⊢
  rcases h with h | h <;> simp [h]

theorem not_isBlank_of_isWordChar {c : Char} (h : isWordChar c = true) : isBlank c = false := by
  simp only [isWordChar, Bool.or_eq_true, beq_iff_eq] at h
  rcases h with ((h | h) | rfl) | rfl
  · exact not_isBlank_of_isAlphabetic h
  · exact not_inIntervals_of_disjoint tablesAgree.numeric_blank h
  · decide
  · decide

theorem not_isQuote_of_isWordChar {c : Char} (h : isWordChar c = true) : isQuote c = false := by
  cases hquote : isQuote c with
  | false => rfl
  | true =>
    simp only [isQuote, Bool.or_eq_true, beq_iff_eq] at hquote
    rcases hquote with rfl | rfl <;> exact absurd h (by decide)

theorem not_isBlank_of_isQuote {c : Char} (h : isQuote c = true) : isBlank c = false := by
  simp only [isQuote, Bool.or_eq_true, beq_iff_eq] at h
  rcases h with rfl | rfl <;> decide

theorem isSign_of_isQuote {c : Char} (h : isQuote c = true) : isSign c = true := by
  simp only [isQuote, Bool.or_eq_true, beq_iff_eq] at h
  rcases h with rfl | rfl <;> decide

theorem lt_toNat_of_isWordStart {c : Char} (h : isWordStart c = true) : 0x40 < c.toNat := by
  simp only [isWordStart, Bool.or_eq_true, beq_iff_eq] at h
  rcases h with h | rfl
  · exact lt_toNat_of_isAlphabetic h
  · decide

theorem not_isBlank_of_isDigit {c : Char} (h : c.isDigit = true) : isBlank c = false := by
  have hdigit : inIntervals [(0x30, 0x39)] c.toNat = true := by
    simpa [inIntervals] using toNat_of_isDigit h
  have hapart : bits [(0x30, 0x39)] &&& bits blankIntervals = 0 := by decide
  exact not_inIntervals_of_disjoint hapart hdigit

theorem isWordChar_of_toLower {c : Char} (h : isWordChar c.toLower = true) :
    isWordChar c = true := by
  cases hc : c.isUpper with
  | false => rwa [toLower_of_not_isUpper hc] at h
  | true => simp [isWordChar, isAlphabetic_of_isUpper hc]

end RowSelect.Query
