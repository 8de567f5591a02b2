import ProseLint.Text.Basic

/-! Sets of characters given by ranges of code points. -/

namespace ProseLint

/-- A set of characters as inclusive ranges of code points, in increasing order. -/
structure CharSet where
  ranges : List (Nat × Nat)

namespace CharSet

/-- Whether some range holds the number. Later ranges start higher, so the walk ends at
the first range that starts above it. -/
def within (n : Nat) : List (Nat × Nat) → Bool
  | [] => false
  | (low, high) :: rest => if n < low then false else if n ≤ high then true else within n rest

def contains (s : CharSet) (c : Char) : Bool := within c.toNat s.ranges

end CharSet

end ProseLint
