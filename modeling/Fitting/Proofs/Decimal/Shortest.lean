import Mathlib.Tactic.FieldSimp
import Fitting.Proofs.Decimal.Rounds

/-!
# The shortest decimal rounds to its double

`shortest` compares multiples of a common unit.  Read as rationals, what it asks of a decimal is
that it rounds to the double, and on the grid of seventeen digits there always is one that does.

* `readsBack_iff`       a point of the grid is accepted if it rounds to the double;
* `onGrid?_rounds`      so does the point that is found on a grid;
* `pow_magnitude_le`    the first digit of a double stands where `magnitude` says;
* `exists_onGrid`       seventeen digits are enough;
* `shortest_rounds`     the shortest decimal rounds to the double.
-/

namespace Fitting.Decimal

open Double

/-! ### the common unit -/

/-- what the double unit is divided by -/
def commonUnit (e k : Int) : ℚ := 10 ^ (-k).toNat * 2 ^ (2 - e).toNat

theorem commonUnit_pos (e k : Int) : 0 < commonUnit e k := by
  unfold commonUnit
  positivity

theorem pow_toNat {b : ℚ} (hb : b ≠ 0) (k : Int) : b ^ k.toNat = b ^ k * b ^ (-k).toNat := by
  rw [← zpow_natCast, ← zpow_natCast, ← zpow_add₀ hb]
  congr 1
  omega

theorem gridUnit_eq (e k : Int) : (gridUnit e k : ℚ) = 10 ^ k * commonUnit e k := by
  unfold gridUnit commonUnit
  rw [Nat.shiftLeft_eq, Nat.pow_eq]
  push_cast
  rw [pow_toNat (by norm_num) k, mul_assoc]

theorem quarterUnit_eq (e k : Int) : (quarterUnit e k : ℚ) = 2 ^ (e - 2) * commonUnit e k := by
  unfold quarterUnit commonUnit
  rw [Nat.shiftLeft_eq, Nat.pow_eq]
  push_cast
  rw [pow_toNat (by norm_num) (e - 2), neg_sub]
  ring

theorem quarter_le_grid {e k : Int} {x d : Nat} :
    x * quarterUnit e k ≤ d * gridUnit e k ↔ x * (2 : ℚ) ^ (e - 2) ≤ d * 10 ^ k := by
  rw [← Nat.cast_le (α := ℚ), Nat.cast_mul, Nat.cast_mul, gridUnit_eq, quarterUnit_eq, ← mul_assoc,
    ← mul_assoc]
  exact mul_le_mul_iff_of_pos_right (commonUnit_pos e k)

theorem grid_le_quarter {e k : Int} {x d : Nat} :
    d * gridUnit e k ≤ x * quarterUnit e k ↔ d * (10 : ℚ) ^ k ≤ x * 2 ^ (e - 2) := by
  rw [← Nat.cast_le (α := ℚ), Nat.cast_mul, Nat.cast_mul, gridUnit_eq, quarterUnit_eq, ← mul_assoc,
    ← mul_assoc]
  exact mul_le_mul_iff_of_pos_right (commonUnit_pos e k)

theorem readsBack_iff {m d : Nat} {e k : Int} :
    readsBack m e k d = true ↔ Rounds m e (d * 10 ^ k) := by
  unfold readsBack
  dsimp only
  split
  · next even =>
    rw [Bool.and_eq_true, decide_eq_true_iff, decide_eq_true_iff, quarter_le_grid, grid_le_quarter]
    exact ⟨fun h => ⟨h.1, h.2, fun odd => by omega⟩, fun r => ⟨r.low_le, r.le_high⟩⟩
  · next odd =>
    rw [Bool.and_eq_true, decide_eq_true_iff, decide_eq_true_iff, ← not_le, ← not_le,
      quarter_le_grid, grid_le_quarter, not_le, not_le]
    constructor
    · rintro ⟨low, high⟩
      exact ⟨low.le, high.le, fun _ => ⟨low.ne, high.ne⟩⟩
    · intro r
      have inside := r.inside (Nat.mod_two_ne_zero.mp odd)
      exact ⟨lt_of_le_of_ne r.low_le inside.1, lt_of_le_of_ne r.le_high inside.2⟩

/-! ### one grid -/

theorem gridNearest_eq (m : Nat) (e k : Int) :
    gridNearest m e k = gridBelow m e k ∨ gridNearest m e k = gridBelow m e k + 1 := by
  unfold gridNearest
  dsimp only
  split
  · exact .inl rfl
  · split
    · exact .inr rfl
    · omega

theorem onGrid?_rounds {m d : Nat} {e k : Int} (h : onGrid? m e k = some d) :
    Rounds m e (d * 10 ^ k) := by
  unfold onGrid? at h
  dsimp only at h
  apply readsBack_iff.mp
  split at h
  · next low high =>
    obtain rfl := Option.some.inj h
    rcases gridNearest_eq m e k with same | same <;> rw [same] <;> assumption
  · next low _ =>
    obtain rfl := Option.some.inj h
    exact low
  · next _ high =>
    obtain rfl := Option.some.inj h
    exact high
  · cases h

/-- the double lies between two points of the grid -/
theorem gridBelow_bounds (m : Nat) (e k : Int) :
    (gridBelow m e k : ℚ) * 10 ^ k ≤ (4 * m : ℕ) * 2 ^ (e - 2) ∧
      ((4 * m : ℕ) : ℚ) * 2 ^ (e - 2) < (gridBelow m e k + 1 : ℕ) * 10 ^ k := by
  have pos : 0 < gridUnit e k := by
    unfold gridUnit
    rw [Nat.shiftLeft_eq, Nat.pow_eq]
    positivity
  constructor
  · exact grid_le_quarter.mp (Nat.div_mul_le_self _ _)
  · refine not_le.mp fun le => ?_
    have past :=
      Nat.lt_mul_of_div_lt (Nat.lt_succ_self (4 * m * quarterUnit e k / gridUnit e k)) pos
    exact absurd (grid_le_quarter.mpr le) (Nat.not_le.mpr past)

/-- a grid that is finer than the interval has a point in it -/
theorem exists_onGrid
    {m : Nat} {e k : Int} (fine : (10 : ℚ) ^ k < (upperEnd m - lowerEnd m e) * 2 ^ (e - 2)) :
    ∃ d, onGrid? m e k = some d := by
  obtain ⟨below, above⟩ := gridBelow_bounds m e k
  have unit : (0 : ℚ) < 2 ^ (e - 2) := two_zpow_pos _
  have low : (lowerEnd m e : ℚ) * 2 ^ (e - 2) ≤ (4 * m : ℕ) * 2 ^ (e - 2) := by
    refine mul_le_mul_of_nonneg_right (Nat.cast_le.mpr ?_) unit.le
    rw [lowerEnd_eq]
    split <;> omega
  have high : ((4 * m : ℕ) : ℚ) * 2 ^ (e - 2) < upperEnd m * 2 ^ (e - 2) := by
    refine mul_lt_mul_of_pos_right (Nat.cast_lt.mpr ?_) unit
    unfold upperEnd
    omega
  have either : readsBack m e k (gridBelow m e k) = true ∨
      readsBack m e k (gridBelow m e k + 1) = true := by
    by_contra neither
    obtain ⟨first, second⟩ := not_or.mp neither
    rw [readsBack_iff] at first second
    have outside : (gridBelow m e k : ℚ) * 10 ^ k ≤ lowerEnd m e * 2 ^ (e - 2) :=
      not_lt.mp fun inside => first (.between inside (below.trans_lt high))
    have beyond : (upperEnd m : ℚ) * 2 ^ (e - 2) ≤ (gridBelow m e k + 1 : ℕ) * 10 ^ k :=
      not_lt.mp fun inside => second (.between (low.trans_lt above) inside)
    rw [sub_mul] at fine
    push_cast at beyond
    linarith
  unfold onGrid?
  dsimp only
  split
  · exact ⟨_, rfl⟩
  · exact ⟨_, rfl⟩
  · exact ⟨_, rfl⟩
  · next first second =>
    rw [first, second] at either
    simp at either

/-! ### seventeen digits -/

theorem pow_length_le {n : Nat} (pos : 0 < n) : (10 : ℚ) ^ ((length n : Int) - 1) ≤ n := by
  have digits : 0 < length n := Nat.length_toDigits_pos
  have le : 10 ^ (length n - 1) ≤ n := by
    rcases Nat.eq_zero_or_pos (length n - 1) with one | more
    · rw [one]
      exact pos
    · refine Nat.not_lt.mp fun lt => ?_
      have short : length n ≤ length n - 1 := (Nat.length_toDigits_le_iff (by decide) more).mpr lt
      omega
  have exponent : (length n : Int) - 1 = (length n - 1 : ℕ) := by omega
  rw [exponent, zpow_natCast]
  exact_mod_cast le

/-- the same of a quotient, from which a factor keeps all digits from being cut off -/
theorem pow_length_shiftRight_le (m s j : Nat) (large : 2 ^ s ≤ m * 10 ^ j) :
    (10 : ℚ) ^ ((length ((m * Nat.pow 10 j) >>> s) : Int) - (j + 1)) ≤ m / 2 ^ s := by
  rw [Nat.pow_eq, Nat.shiftRight_eq_div_pow]
  have pos : 0 < m * 10 ^ j / 2 ^ s := Nat.div_pos large (by positivity)
  have exponent : (length (m * 10 ^ j / 2 ^ s) : Int) - (j + 1) =
      (length (m * 10 ^ j / 2 ^ s) : Int) - 1 - j := by ring
  rw [exponent, zpow_sub₀ (by norm_num), zpow_natCast, div_le_iff₀ (by positivity)]
  calc (10 : ℚ) ^ ((length (m * 10 ^ j / 2 ^ s) : Int) - 1) ≤ (m * 10 ^ j / 2 ^ s : ℕ) :=
    pow_length_le pos
    _ ≤ m * 10 ^ j / 2 ^ s := by
      rw [le_div_iff₀ (by positivity)]
      exact_mod_cast Nat.div_mul_le_self (m * 10 ^ j) (2 ^ s)
    _ = m / 2 ^ s * 10 ^ j := by ring

/-- four decimal digits hold more than thirteen binary ones -/
theorem two_pow_le_ten_pow (n s j : Nat) (hs : s ≤ 13 * n) (hj : 4 * n ≤ j) : 2 ^ s ≤ 10 ^ j := by
  calc 2 ^ s ≤ 2 ^ (13 * n) := Nat.pow_le_pow_right (by norm_num) hs
    _ = (2 ^ 13) ^ n := pow_mul 2 13 n
    _ ≤ (10 ^ 4) ^ n := Nat.pow_le_pow_left (by norm_num) n
    _ = 10 ^ (4 * n) := (pow_mul 10 4 n).symm
    _ ≤ 10 ^ j := Nat.pow_le_pow_right (by norm_num) hj

theorem pow_magnitude_le {m : Nat} {e : Int} (pos : 0 < m) (least : -1074 ≤ e) :
    (10 : ℚ) ^ magnitude m e ≤ m * 2 ^ e := by
  unfold magnitude
  -- the power is too large to be worked out
  generalize places : 350 = j
  split
  · next nonneg =>
    have shifted : 0 < m <<< e.toNat := by
      rw [Nat.shiftLeft_eq]
      positivity
    refine (pow_length_le shifted).trans_eq ?_
    rw [Nat.shiftLeft_eq]
    push_cast
    rw [← zpow_natCast, Int.toNat_of_nonneg nonneg]
  · next negative =>
    have large : 2 ^ (-e).toNat ≤ 10 ^ j := two_pow_le_ten_pow 83 _ j (by omega) (by omega)
    have cut := pow_length_shiftRight_le m (-e).toNat j (large.trans (Nat.le_mul_of_pos_left _ pos))
    have exponent : (j : Int) + 1 = 351 := by omega
    rw [exponent] at cut
    refine cut.trans_eq ?_
    rw [← zpow_natCast, Int.toNat_of_nonneg (by omega), zpow_neg, div_inv_eq_mul]

/-- a grid of seventeen digits is finer than the interval of the double -/
theorem grid_fine {m : Nat} {e : Int} (h : Regular m e) (pos : 0 < m) :
    (10 : ℚ) ^ (magnitude m e - 16) < (upperEnd m - lowerEnd m e) * 2 ^ (e - 2) := by
  have size := h.mantissa_lt
  have wide : 4 * m + 10 ^ 16 * lowerEnd m e < 10 ^ 16 * upperEnd m := by
    rw [lowerEnd_eq]
    unfold upperEnd
    split <;> omega
  have wide' : (4 * m : ℚ) < (upperEnd m - lowerEnd m e) * 10 ^ 16 := by
    have := (Nat.cast_lt (α := ℚ)).mpr wide
    push_cast at this
    linarith
  rw [zpow_sub₀ (by norm_num), div_lt_iff₀ (by norm_num)]
  calc (10 : ℚ) ^ magnitude m e ≤ m * 2 ^ e := pow_magnitude_le pos h.least_le
    _ = 4 * m * 2 ^ (e - 2) := by rw [zpow_sub₀ (by norm_num)]; ring
    _ < (upperEnd m - lowerEnd m e) * 10 ^ 16 * 2 ^ (e - 2) :=
      mul_lt_mul_of_pos_right wide' (two_zpow_pos _)
    _ = (upperEnd m - lowerEnd m e) * 2 ^ (e - 2) * 10 ^ (16 : Int) := by norm_num; ring

theorem shortestPoint_rounds {m : Nat} {e : Int} (h : Regular m e) (pos : 0 < m) :
    Rounds m e ((shortestPoint m e).1 * 10 ^ (shortestPoint m e).2) := by
  unfold shortestPoint
  dsimp only
  obtain ⟨d, last⟩ := exists_onGrid (grid_fine h pos)
  cases found : (List.range 17).findSome? fun (i : Nat) =>
    (onGrid? m e (magnitude m e - i)).map (fun d => (d, magnitude m e - (i : Int))) with
  | some p =>
    obtain ⟨i, -, here⟩ := List.exists_of_findSome?_eq_some found
    obtain ⟨d, point, rfl⟩ := Option.map_eq_some_iff.mp here
    exact onGrid?_rounds point
  | none =>
    have missed := List.findSome?_eq_none_iff.mp found 16 (List.mem_range.mpr (by norm_num))
    cases (Option.map_eq_none_iff.mp missed).symm.trans last

theorem stripZeros_value (fuel d : Nat) (k : Int) :
    ((stripZeros fuel d k).1 : ℚ) * 10 ^ (stripZeros fuel d k).2 = d * 10 ^ k := by
  induction fuel generalizing d k with
  | zero => rfl
  | succ fuel ih =>
    unfold stripZeros
    split
    · next zero =>
      have tens : (d : ℚ) = (d / 10 : ℕ) * 10 := by
        exact_mod_cast (Nat.div_mul_cancel (Nat.dvd_of_mod_eq_zero zero)).symm
      rw [ih, zpow_add_one₀ (by norm_num)]
      rw [tens]
      ring
    · rfl

theorem shortest_rounds {m : Nat} {e : Int} (h : Regular m e) (pos : 0 < m) :
    Rounds m e ((shortest m e).1 * 10 ^ (shortest m e).2) := by
  show Rounds m e ((stripZeros 17 (shortestPoint m e).1 (shortestPoint m e).2).1 *
    10 ^ (stripZeros 17 (shortestPoint m e).1 (shortestPoint m e).2).2)
  rw [stripZeros_value]
  exact shortestPoint_rounds h pos

theorem shortest_pos {m : Nat} {e : Int} (h : Regular m e) (pos : 0 < m) :
    0 < (shortest m e).1 := by
  have low := (shortest_rounds h pos).low_le
  have end_pos : 0 < lowerEnd m e := by
    rw [lowerEnd_eq]
    split <;> omega
  refine Nat.pos_of_ne_zero fun zero => ?_
  rw [zero, Nat.cast_zero, zero_mul] at low
  exact absurd low (not_le.mpr (mul_pos (Nat.cast_pos.mpr end_pos) (two_zpow_pos _)))

end Fitting.Decimal
