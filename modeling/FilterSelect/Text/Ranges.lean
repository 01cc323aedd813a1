/-!
# Ranges of characters

A property of characters is given by the ranges of code points that have it.
-/

namespace FilterSelect.Text

/-- Closed ranges of code points, each as its first and last. -/
abbrev Ranges := List (Nat × Nat)

/-- Whether the code point of `c` lies in one of the ranges. -/
def Ranges.contains (ranges : Ranges) (c : Char) : Bool :=
  ranges.any fun (first, last) => first ≤ c.toNat && c.toNat ≤ last

end FilterSelect.Text
