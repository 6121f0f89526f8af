/-!
# Ranges of code points

A set of characters given by ranges of code points, as the tables of character properties give it.
-/

namespace ResourceEngine.Text

/-- The character lies in one of the ranges, given by their first and last code points. -/
def inRanges (ranges : Array (Nat × Nat)) (c : Char) : Bool :=
  ranges.any fun (first, last) => decide (first ≤ c.toNat ∧ c.toNat ≤ last)

end ResourceEngine.Text
