/-!
# Sets of code points as sorted ranges
-/

namespace DocScaffold.Text

/-- The inclusive ranges of a set of code points, in ascending order. -/
abbrev Ranges := List (Nat × Nat)

/-- Membership; the search stops at the first range that begins behind `n`. -/
def Ranges.has (n : Nat) : Ranges → Bool
  | [] => false
  | (lo, hi) :: rest => if n < lo then false else n ≤ hi || has n rest

end DocScaffold.Text
