/-!
# Ranges of characters

A class of characters is given by the ranges of their code points, both ends included.
-/

namespace Fitting.Text

/-- a character of one of the ranges -/
def isWithin (ranges : List (Nat × Nat)) (c : Char) : Bool :=
  ranges.any (fun r => r.1 ≤ c.toNat && c.toNat ≤ r.2)

end Fitting.Text
