import Mathlib.Tactic.Linarith
import Mathlib.Tactic.Ring
import Fitting.Proofs.Stack.Series

/-!
# Fading weights

The weights of the stacking penalty fall from rank to rank, but never to zero.  All that is said of
a penalized series follows from that, and it is said of gains and losses at once: `s * x ≤ s * y`
compares two factors by how far they are to the side `s`, which is `1` for gains and `-1` for
losses.

* `Fading`                   weights that fall and stay above zero, such as the exact ones;
* `ranked_cons`              the first delta has the first weight, and the others have the weights
                             after it;
* `Sided`                    deltas that all go to one side;
* `side_mul_le`, `side_mul_lt`   products are compared factor by factor;
* `Sided.pairwise_sorted`    such deltas are sorted by how far they go.
-/

namespace Fitting

/-! ### weights -/

/-- weights that start from one at most and fall from rank to rank, but stay above zero -/
structure Fading (w : ℕ → ℚ) : Prop where
  start : w 0 ≤ 1
  falls : ∀ r, w (r + 1) < w r
  pos : ∀ r, 0 < w r

theorem fading_exactWeight : Fading exactWeight where
  start := by norm_num [exactWeight]
  falls r := by
    refine pow_lt_pow_right_of_lt_one₀ (by norm_num [exactPenaltyFactor])
      (by norm_num [exactPenaltyFactor]) ?_
    exact Nat.mul_self_lt_mul_self (Nat.lt_succ_self r)
  pos r := pow_pos (by norm_num [exactPenaltyFactor]) _

namespace Fading
variable {w : ℕ → ℚ} (fading : Fading w)
include fading

theorem next : Fading fun r => w (r + 1) where
  start := (fading.falls 0).le.trans fading.start
  falls r := fading.falls (r + 1)
  pos r := fading.pos (r + 1)

theorem le_one (r : ℕ) : w r ≤ 1 := by
  induction r with
  | zero => exact fading.start
  | succ r ih => exact (fading.falls r).le.trans ih

theorem factor_pos {d : ℚ} (above : -1 < d) (r : ℕ) : 0 < 1 + d * w r := by
  have weighted : -1 * w r < d * w r := mul_lt_mul_of_pos_right above (fading.pos r)
  linarith [fading.le_one r]

end Fading

/-! ### the first delta and the others -/

theorem ranked_nil (w : ℕ → ℚ) : ranked w [] = 1 := rfl

theorem ranked_cons (w : ℕ → ℚ) (d : ℚ) (deltas : List ℚ) :
    ranked w (d :: deltas) = (1 + d * w 0) * ranked (fun r => w (r + 1)) deltas := by
  unfold ranked
  rw [List.zipIdx_cons, Nat.zero_add, List.zipIdx_succ, List.map_cons, List.prod_cons, List.map_map]
  rfl

theorem ranked_pos {w : ℕ → ℚ} {deltas : List ℚ} (fading : Fading w)
    (above : ∀ d ∈ deltas, -1 < d) :
    0 < ranked w deltas := by
  induction deltas generalizing w with
  | nil => exact one_pos
  | cons d deltas ih =>
    obtain ⟨first, others⟩ := List.forall_mem_cons.mp above
    rw [ranked_cons]
    exact mul_pos (fading.factor_pos first 0) (ih fading.next others)

/-- the factor of a penalized series -/
def seriesFactor (deltas : List ℚ) : ℚ := applySeries exactWeight 1 deltas

theorem seriesFactor_eq (deltas : List ℚ) :
    seriesFactor deltas = ranked exactWeight (sortedBy abs deltas) :=
  (applySeries_eq exactWeight 1 deltas).trans (one_mul _)

/-! ### sides -/

/-- deltas that all go to the side `s`, and that leave a factor above zero -/
structure Sided (s : ℚ) (deltas : List ℚ) : Prop where
  abs_eq : ∀ d ∈ deltas, |d| = s * d
  pos : ∀ d ∈ deltas, 0 < s * d
  above : ∀ d ∈ deltas, -1 < d

theorem sided_gains {deltas : List ℚ} (gains : ∀ d ∈ deltas, 0 < d) : Sided 1 deltas where
  abs_eq d h := by rw [one_mul, abs_of_pos (gains d h)]
  pos d h := by simpa using gains d h
  above d h := by linarith [gains d h]

theorem sided_losses {deltas : List ℚ} (losses : ∀ d ∈ deltas, -1 < d ∧ d < 0) :
    Sided (-1) deltas where
  abs_eq d h := by rw [neg_one_mul, abs_of_neg (losses d h).2]
  pos d h := by simpa using (losses d h).2
  above d h := (losses d h).1

section
variable {s a b x y : ℚ}

/-- what is at least as far to one side in both factors is so in their product -/
theorem side_mul_le (hx : 0 < x) (hb : 0 < b) (first : s * a ≤ s * b) (rest : s * x ≤ s * y) :
    s * (a * x) ≤ s * (b * y) := calc
  s * (a * x) = s * a * x := (mul_assoc s a x).symm
  _ ≤ s * b * x := mul_le_mul_of_nonneg_right first hx.le
  _ = b * (s * x) := by ring
  _ ≤ b * (s * y) := mul_le_mul_of_nonneg_left rest hb.le
  _ = s * (b * y) := by ring

theorem side_mul_lt (hx : 0 < x) (hb : 0 < b) (first : s * a ≤ s * b) (rest : s * x < s * y) :
    s * (a * x) < s * (b * y) := calc
  s * (a * x) = s * a * x := (mul_assoc s a x).symm
  _ ≤ s * b * x := mul_le_mul_of_nonneg_right first hx.le
  _ = b * (s * x) := by ring
  _ < b * (s * y) := mul_lt_mul_of_pos_left rest hb
  _ = s * (b * y) := by ring

/-- a delta that goes farther has a factor that is farther out -/
theorem side_factor_le {w : ℚ} (hw : 0 < w) (h : s * a ≤ s * b) :
    s * (1 + a * w) ≤ s * (1 + b * w) := by
  have weighted : s * a * w ≤ s * b * w := mul_le_mul_of_nonneg_right h hw.le
  linarith

end

namespace Sided
variable {s : ℚ} {deltas deltas' : List ℚ} (sided : Sided s deltas)
include sided

theorem mono (sub : ∀ d ∈ deltas', d ∈ deltas) : Sided s deltas' where
  abs_eq d h := sided.abs_eq d (sub d h)
  pos d h := sided.pos d (sub d h)
  above d h := sided.above d (sub d h)

omit sided in
theorem of_cons {d : ℚ} (sided : Sided s (d :: deltas)) : Sided s deltas :=
  sided.mono fun _ h => List.mem_cons_of_mem d h

theorem perm (perm : deltas'.Perm deltas) :
    Sided s deltas' := sided.mono fun _ h => perm.mem_iff.mp h

theorem tellsApart : TellsApart abs deltas := by
  intro a ha b hb same
  rw [sided.abs_eq a ha, sided.abs_eq b hb] at same
  have side : s ≠ 0 := left_ne_zero_of_mul (sided.pos a ha).ne'
  exact mul_left_cancel₀ side same

theorem sorted : Sided s (sortedBy abs deltas) := sided.perm (perm_sortedBy abs deltas)

theorem pairwise_sorted : (sortedBy abs deltas).Pairwise fun a b => s * b ≤ s * a := by
  refine (pairwise_sortedBy abs deltas).imp_of_mem fun {a b} ha hb order => ?_
  rwa [sided.sorted.abs_eq a ha, sided.sorted.abs_eq b hb] at order

end Sided

end Fitting
