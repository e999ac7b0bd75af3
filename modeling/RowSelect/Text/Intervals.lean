/-!
Sets of code points, given as closed intervals in increasing order.
-/

set_option autoImplicit false

namespace RowSelect.Text

/-- Whether `n` lies in one of the intervals. They stand in increasing order, so the search ends
at the first one that starts above `n`. -/
def inIntervals : List (Nat × Nat) → Nat → Bool
  | [], _ => false
  | (lo, hi) :: rest, n => lo ≤ n && (n ≤ hi || inIntervals rest n)

end RowSelect.Text
