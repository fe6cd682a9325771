set_option autoImplicit false

/-!
# Character ranges

A Unicode class as a sorted list of ranges of code points, both ends included, and the test whether
a code point lies in one of them.
-/

namespace SheetBuild.Text

/-- The first and the last code point of a range. -/
abbrev Range : Type := Nat × Nat

/-- Whether a code point lies in one of the ranges. -/
def inRanges (table : List Range) (n : Nat) : Bool :=
  table.any fun r => r.1 ≤ n && n ≤ r.2

end SheetBuild.Text
