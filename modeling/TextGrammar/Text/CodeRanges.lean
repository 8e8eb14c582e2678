set_option autoImplicit false

/-! # Properties of characters as ranges

A property of characters is kept as the list of the ranges of code points that have it. -/

namespace TextGrammar.Text

/-- Inclusive ranges of code points. -/
abbrev CodeRanges := List (Nat × Nat)

namespace CodeRanges

/-- The code point lies in one of the ranges. -/
def contains (ranges : CodeRanges) (code : Nat) : Bool :=
  ranges.any fun r => r.1 ≤ code && code ≤ r.2

end CodeRanges

end TextGrammar.Text
