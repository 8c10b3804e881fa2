/-! Sets of code points written as increasing lists of closed ranges. -/
namespace GoFront.Text

/-- `n` lies in one of the ranges. The list is in increasing order, so the search ends at the
first range above `n`. -/
def inRanges : List (Nat × Nat) → Nat → Bool
  | [], _ => false
  | (low, high) :: rest, n => if n < low then false else n ≤ high || inRanges rest n

end GoFront.Text
