import RowSelect.Number.Binary64

/-!
The shortest decimal that reads back as a given number of the binary format.

A number stands for every real that rounds to it: those closer to it than to its neighbours, and the
two halfway points when its significand is even. Grids of one decimal digit, two digits and so on
are tried in turn; on each, only the two points around the number can be the nearest. Seventeen
digits always suffice.
-/

set_option autoImplicit false

namespace RowSelect

/-- A positive decimal `0.d₁d₂... * 10 ^ (exponent + 1)` whose first digit, like its last, is not
zero; `exponent` is that of scientific notation. -/
structure Decimal where
  digits : List Char
  exponent : Int
  deriving DecidableEq, Repr

namespace Binary64

/-- The interval of reals that round to `x`, in quarters of a unit, and whether its ends belong to
it. Below a power of two the neighbour is only half as far. -/
structure Basin where
  lower : Nat
  upper : Nat
  closed : Bool
  deriving DecidableEq, Repr

def basin (x : Binary64) : Basin where
  lower :=
    4 * x.magnitude - (if x.significand = 0x10000000000000 ∧ x.scale ≠ 0 then 1 else 2) *
      Nat.pow 2 x.scale
  upper := 4 * x.magnitude + 2 * Nat.pow 2 x.scale
  closed := x.significand % 2 == 0

def Basin.holds (b : Basin) (a d : Nat) : Bool :=
  if b.closed then b.lower * d ≤ a && a ≤ b.upper * d else b.lower * d < a && a < b.upper * d

def gridPoint (n : Nat) (power : Int) : Nat × Nat :=
  match power with
  | .ofNat p => (n * Nat.pow 10 p * Nat.pow 2 1076, 1)
  | .negSucc p => (n * Nat.pow 2 1076, Nat.pow 10 (p + 1))

def floorOnGrid (x : Binary64) (power : Int) : Nat :=
  match power with
  | .ofNat p => x.magnitude / (Nat.pow 10 p * Nat.pow 2 1074)
  | .negSucc p => x.magnitude * Nat.pow 10 (p + 1) / Nat.pow 2 1074

def nearestOnGrid? (x : Binary64) (power : Int) : Option Nat :=
  let n := x.floorOnGrid power
  let (below, d) := gridPoint n power
  let (above, _) := gridPoint (n + 1) power
  let v := 4 * x.magnitude * d
  match x.basin.holds below d, x.basin.holds above d with
  | false, false => none
  | true, false => some n
  | false, true => some (n + 1)
  | true, true =>
    if v - below < above - v then some n
    else if above - v < v - below then some (n + 1)
    else if n % 2 = 0 then some n else some (n + 1)

def decimalExponent (x : Binary64) : Int :=
  (Nat.toDigits 10 (x.magnitude * Nat.pow 10 340 / Nat.pow 2 1074)).length - 341

def decimalOf (n : Nat) (power : Int) : Decimal :=
  let digits := Nat.toDigits 10 n
  ⟨(digits.reverse.dropWhile (· == '0')).reverse, power + digits.length - 1⟩

def shortestFrom (x : Binary64) (power : Int) : Nat → Decimal
  | 0 => decimalOf (x.floorOnGrid power) power
  | left + 1 =>
    match x.nearestOnGrid? power with
    | some n => decimalOf n power
    | none => shortestFrom x (power - 1) left

/-- The shortest decimal that reads back as the absolute value of `x`, which is not zero, and of
those the nearest. -/
def shortest (x : Binary64) : Decimal := x.shortestFrom x.decimalExponent 17

end Binary64

end RowSelect
