import RowSelect.Number.Binary64
import RowSelect.Number.Digits

/-!
Decimal numerals and the values they stand for.
-/

set_option autoImplicit false

namespace RowSelect

/-- A decimal numeral: digits, the digits after a point if there is one, and a power of ten if one
is written. -/
structure Numeral where
  negative : Bool
  whole : List Char
  fraction : Option (List Char)
  exponent : Option Int
  deriving DecidableEq, Repr

namespace Numeral

def isWhole (n : Numeral) : Bool := n.fraction.isNone && n.exponent.isNone

def significant (n : Numeral) : List Char :=
  (n.whole ++ n.fraction.getD []).dropWhile (· == '0')

def lastPower (n : Numeral) : Int := n.exponent.getD 0 - (n.fraction.getD []).length

/-- The nearest number of the binary format. There is none above its range; below its range the
nearest is zero. Powers of ten that put the numeral far outside the range are not computed. -/
def toBinary64? (n : Numeral) : Option Binary64 :=
  let ds := n.significant
  let top := n.lastPower + ds.length
  if ds = [] ∨ top < -330 then some (.zero n.negative)
  else if 310 < top then none
  else
    match n.lastPower with
    | .ofNat p => Binary64.ofRatio? n.negative (digitsValue ds * Nat.pow 10 p) 1
    | .negSucc p => Binary64.ofRatio? n.negative (digitsValue ds) (Nat.pow 10 (p + 1))

end Numeral

end RowSelect
