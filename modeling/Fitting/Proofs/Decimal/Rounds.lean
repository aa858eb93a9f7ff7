import Mathlib.Algebra.Order.Field.Power
import Mathlib.Algebra.Order.Ring.Rat
import Mathlib.Tactic.Linarith
import Mathlib.Tactic.NormNum
import Mathlib.Tactic.Positivity
import Mathlib.Tactic.Ring
import Fitting.Decimal.Shortest
import Fitting.Proofs.DoubleParts

/-!
# The numbers that round to a double

Around the double `m * 2 ^ e` lies the interval of the numbers that round to it, its ends half a
place away, or a quarter below a power of two.  No number lies in two of these intervals: where two
of them touch, the end belongs to the even mantissa.

* `Rounds m e q`      `q` lies in the interval;
* `Rounds.unique`     and in no other one.
-/

namespace Fitting.Decimal

open Double

/-- a number lies between the ends, and apart from them unless the mantissa is even -/
structure Rounds (m : Nat) (e : Int) (q : ℚ) : Prop where
  low_le : lowerEnd m e * (2 : ℚ) ^ (e - 2) ≤ q
  le_high : q ≤ upperEnd m * (2 : ℚ) ^ (e - 2)
  inside : m % 2 = 1 → lowerEnd m e * (2 : ℚ) ^ (e - 2) ≠ q ∧ q ≠ upperEnd m * (2 : ℚ) ^ (e - 2)

theorem two_zpow_pos (e : Int) : (0 : ℚ) < 2 ^ e := zpow_pos (by norm_num) e

theorem lowerEnd_eq (m : Nat) (e : Int) :
    lowerEnd m e = if m = 2 ^ 52 ∧ -1074 < e then 4 * m - 1 else 4 * m - 2 := by
  rw [lowerEnd, Nat.one_shiftLeft]

namespace Rounds
variable {m m' : Nat} {e e' : Int} {q : ℚ}

theorem between (low : lowerEnd m e * (2 : ℚ) ^ (e - 2) < q)
    (high : q < upperEnd m * (2 : ℚ) ^ (e - 2)) :
    Rounds m e q :=
  ⟨low.le, high.le, fun _ => ⟨low.ne, high.ne⟩⟩

/-! ### no number rounds to two doubles -/

/-- a larger exponent puts the interval above those with smaller exponents.  Two of them touch in a
power of two, which is no number of the lower one. -/
theorem exponent_le (h : Regular m e) (h' : Regular m' e') (r : Rounds m e q)
    (r' : Rounds m' e' q) : e' ≤ e := by
  by_contra above
  have less : e < e' := Int.not_le.mp above
  have unit : (0 : ℚ) < 2 ^ (e - 2) := two_zpow_pos _
  have scale : 2 * (2 : ℚ) ^ (e - 2) ≤ 2 ^ (e' - 2) := by
    calc 2 * (2 : ℚ) ^ (e - 2) = 2 ^ (e - 2 + 1) := by rw [zpow_add_one₀ (by norm_num), mul_comm]
      _ ≤ 2 ^ (e' - 2) := zpow_le_zpow_right₀ (by norm_num) (by omega)
  have least : -1074 < e' := Int.lt_of_le_of_lt h.least_le less
  have leading : 2 ^ 52 ≤ m' := h'.leading least
  have low : ((2 ^ 54 - 1 : ℕ) : ℚ) ≤ lowerEnd m' e' := by
    refine Nat.cast_le.mpr ?_
    rw [lowerEnd_eq]
    split <;> omega
  have top : ((2 ^ 55 - 2 : ℕ) : ℚ) * 2 ^ (e - 2) ≤ q := by
    calc ((2 ^ 55 - 2 : ℕ) : ℚ) * 2 ^ (e - 2) =
      (2 ^ 54 - 1 : ℕ) * (2 * 2 ^ (e - 2)) := by norm_num; ring
      _ ≤ lowerEnd m' e' * 2 ^ (e' - 2) := mul_le_mul low scale (by positivity) (Nat.cast_nonneg _)
      _ ≤ q := r'.low_le
  have bound : ((2 ^ 55 - 2 : ℕ) : ℚ) ≤ upperEnd m :=
    le_of_mul_le_mul_right (top.trans r.le_high) unit
  have odd : m = 2 ^ 53 - 1 := by
    have lt := h.mantissa_lt
    have le : 2 ^ 55 - 2 ≤ upperEnd m := Nat.cast_le.mp bound
    unfold upperEnd at le
    omega
  subst odd
  exact (r.inside (by norm_num)).2 (le_antisymm r.le_high top)

/-- with one exponent a larger mantissa does so.  Neighbours touch in an end that belongs to one of
them. -/
theorem mantissa_le (r : Rounds m e q) (r' : Rounds m' e q) : m' ≤ m := by
  by_contra above
  have unit : (0 : ℚ) < 2 ^ (e - 2) := two_zpow_pos _
  have le : lowerEnd m' e ≤ upperEnd m :=
    Nat.cast_le.mp (le_of_mul_le_mul_right (r'.low_le.trans r.le_high) unit)
  have touch : lowerEnd m' e = upperEnd m ∧ m' = m + 1 := by
    rw [lowerEnd_eq] at le ⊢
    unfold upperEnd at le ⊢
    split at le <;> split <;> omega
  have ends : q = upperEnd m * (2 : ℚ) ^ (e - 2) := le_antisymm r.le_high (touch.1 ▸ r'.low_le)
  rcases Nat.mod_two_eq_zero_or_one m with even | odd
  · exact (r'.inside (by omega)).1 (touch.1 ▸ ends.symm)
  · exact (r.inside odd).2 ends

theorem unique (h : Regular m e) (h' : Regular m' e') (r : Rounds m e q) (r' : Rounds m' e' q) :
    m = m' ∧ e = e' := by
  obtain rfl : e = e' := le_antisymm (exponent_le h' h r' r) (exponent_le h h' r r')
  exact ⟨le_antisymm (mantissa_le r' r) (mantissa_le r r'), rfl⟩

end Rounds

end Fitting.Decimal
