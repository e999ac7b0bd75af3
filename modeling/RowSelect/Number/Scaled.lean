import RowSelect.Number.Numeral

/-!
Numerals read into the binary format by way of their first digits. As many digits are taken as fit
64 bits, and the number nearest to them is multiplied or divided by a power of ten of the format.
Each step rounds, so the result is near the value of the numeral but not always nearest to it.
-/

set_option autoImplicit false

namespace RowSelect

namespace Binary64

def mul? (x y : Binary64) : Option Binary64 :=
  ofUnits? (x.negative != y.negative) (x.magnitude * y.magnitude) (Nat.pow 2 1074)

def div? (x y : Binary64) : Option Binary64 :=
  ofUnits? (x.negative != y.negative) (x.magnitude * Nat.pow 2 1074) y.magnitude

def maxPower : Nat := 308

def powerOfTen? (e : Nat) : Option Binary64 := ofRatio? false (Nat.pow 10 e) 1

def scaleUp? (x : Binary64) (e : Nat) : Option Binary64 :=
  if e ≤ maxPower then do x.mul? (← powerOfTen? e)
  else if x.significand = 0 then some x
  else none

def scaleDown? (x : Binary64) (e : Nat) : Option Binary64 :=
  if e ≤ maxPower then do x.div? (← powerOfTen? e)
  else if x.significand = 0 then some x
  else do (← x.div? (← powerOfTen? maxPower)).scaleDown? (e - maxPower)
termination_by e
decreasing_by unfold maxPower at *; omega

end Binary64

namespace Numeral

/-- Takes digits on to a number while it stays below `2 ^ 64`, and what is left of them. -/
def takeDigits (v : Nat) : List Char → Nat × List Char
  | [] => (v, [])
  | c :: cs =>
    let next := 10 * v + (c.toNat - '0'.toNat)
    if next < 0x10000000000000000 then takeDigits next cs else (v, c :: cs)

/-- The number of the format that the numeral is read as. A digit that is left over counts as a zero
before the point, and not at all behind it. -/
def scaled? (n : Numeral) : Option Binary64 := do
  let fraction := n.fraction.getD []
  let (v, wholeLeft) := takeDigits 0 n.whole
  let (v, fractionLeft) := takeDigits v fraction
  let x ← Binary64.ofRatio? n.negative v 1
  match n.exponent.getD 0 + wholeLeft.length - (fraction.length - fractionLeft.length : Int) with
  | .ofNat e => x.scaleUp? e
  | .negSucc e => x.scaleDown? (e + 1)

end Numeral

end RowSelect
