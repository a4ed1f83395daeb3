/-! # Classes of code points

    A class of characters is given by the ranges its code points fill. -/

namespace ByteTape.Text

/-- Whether a code point lies in one of the ranges, ends included. -/
def inRanges (ranges : List (Nat × Nat)) (n : Nat) : Bool :=
  ranges.any fun r => r.1 ≤ n && n ≤ r.2

end ByteTape.Text
