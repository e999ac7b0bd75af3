import RowSelect.Number.Scaled
import RowSelect.Number.Shortest

/-!
Numbers of a JSON document: an integer of at most 64 bits, signed or unsigned, or a finite number of
the 64-bit binary format.
-/

set_option autoImplicit false

namespace RowSelect

/-- A number. An integer is at least `-2 ^ 63` and less than `2 ^ 64`. -/
inductive Number where
  | integer (value : Int) (inRange : -0x8000000000000000 ≤ value ∧ value < 0x10000000000000000)
  | real (value : Binary64)
  deriving DecidableEq, Repr

namespace Number

def ofInt? (i : Int) : Option Number :=
  if h : -0x8000000000000000 ≤ i ∧ i < 0x10000000000000000 then some (.integer i h) else none

/-- The number that a numeral stands for: an integer if it is written as one and fits, else the
number of the binary format that `real?` gives. A minus sign before zero makes the negative zero,
which is no integer. -/
def ofNumeralBy? (real? : Numeral → Option Binary64) (n : Numeral) : Option Number :=
  let v := digitsValue n.whole
  if n.isWhole ∧ ¬n.negative ∧ v < 0x10000000000000000 then ofInt? v
  else if n.isWhole ∧ n.negative ∧ 0 < v ∧ v ≤ 0x8000000000000000 then ofInt? (-v)
  else (real? n).map .real

def ofNumeral? (n : Numeral) : Option Number := ofNumeralBy? Numeral.toBinary64? n

def ofScaled? (n : Numeral) : Option Number := ofNumeralBy? Numeral.scaled? n

def signed? : Number → Option Int
  | .integer i _ => if i < 0x8000000000000000 then some i else none
  | .real _ => none

def unsigned? : Number → Option Int
  | .integer i _ => if 0 ≤ i then some i else none
  | .real _ => none

def toBinary64? : Number → Option Binary64
  | .integer i _ => Binary64.ofRatio? (decide (i < 0)) i.natAbs 1
  | .real x => some x

/-- The order of two numbers: exact if both are signed integers or both unsigned ones, else that of
their values in the binary format. -/
def compare? (a b : Number) : Option Ordering :=
  match a.signed?, b.signed? with
  | some i, some j => some (compare i j)
  | _, _ =>
    match a.unsigned?, b.unsigned? with
    | some i, some j => some (compare i j)
    | _, _ =>
      match a.toBinary64?, b.toBinary64? with
      | some x, some y => some (x.compare y)
      | _, _ => none

end Number

/-- Writes a decimal in positional notation, with at least one digit after the point, if its
exponent is from -5 to 15, and otherwise in scientific notation with a signed exponent. -/
def Decimal.text (d : Decimal) : List Char :=
  match d.exponent with
  | .ofNat e =>
    if e ≤ 15 then
      let whole := d.digits.take (e + 1)
      let rest := d.digits.drop (e + 1)
      whole ++ List.replicate (e + 1 - whole.length) '0' ++
        '.' :: (if rest = [] then ['0'] else rest)
    else scientific '+' e
  | .negSucc e =>
    if e ≤ 4 then '0' :: '.' :: List.replicate e '0' ++ d.digits
    else scientific '-' (e + 1)
where
  scientific (sign : Char) (e : Nat) : List Char :=
    d.digits.take 1 ++ (if d.digits.length ≤ 1 then [] else '.' :: d.digits.drop 1) ++
      'e' :: sign :: Nat.toDigits 10 e

def Number.text : Number → List Char
  | .integer i _ => if i < 0 then '-' :: Nat.toDigits 10 i.natAbs else Nat.toDigits 10 i.natAbs
  | .real x =>
    let sign := if x.negative then ['-'] else []
    sign ++ if x.significand = 0 then ['0', '.', '0'] else x.shortest.text

end RowSelect
