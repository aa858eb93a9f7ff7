import Mathlib.Algebra.Order.Field.Rat
import Mathlib.Algebra.BigOperators.Group.List.Basic
import Mathlib.Algebra.Order.Group.Abs
import Fitting.Stack

/-!
# The value rules over exact numbers

The rules are written once for every `Scalar`.  Read over the rationals they are free of rounding,
so what they compute can be said by an equation.

* `larger_eq`, `smaller_eq`, `sum_eq`   the operations that are chosen with care for doubles are the
                                        plain ones;
* `exactWeight`                         the weights of the stacking penalty, from the decimals of
                                        its factor.
-/

namespace Fitting

instance : Scalar ℚ where
  zero := 0
  one := 1
  hundred := 100
  magnitude := abs
  less a b := decide (a < b)
  outranks a b := decide (|b| ≤ |a|)

namespace Scalar

@[simp] theorem zero_eq : (zero : ℚ) = 0 := rfl

@[simp] theorem one_eq : (one : ℚ) = 1 := rfl

@[simp] theorem hundred_eq : (hundred : ℚ) = 100 := rfl

@[simp] theorem less_eq (a b : ℚ) : less a b = decide (a < b) := rfl

theorem larger_eq (a b : ℚ) : larger a b = max a b := by
  unfold larger
  by_cases h : b < a
  · simp [h, h.le]
  · simp [h, not_lt.mp h]

theorem smaller_eq (a b : ℚ) : smaller a b = min a b := by
  unfold smaller
  by_cases h : a < b
  · simp [h, h.le]
  · simp [h, not_lt.mp h]

theorem sum_eq (l : List ℚ) : sum l = l.sum := by
  cases l with
  | nil => rfl
  | cons x l =>
    show l.foldl (· + ·) x = _
    rw [List.sum_eq_foldl, List.foldl_cons, zero_add]

end Scalar

/-- the decimals of `penaltyFactor` -/
def exactPenaltyFactor : ℚ := 0.8691199808003974

/-- the weight of the delta at `rank` of a series: the factor to the square of the rank -/
def exactWeight (rank : ℕ) : ℚ := exactPenaltyFactor ^ (rank * rank)

end Fitting
