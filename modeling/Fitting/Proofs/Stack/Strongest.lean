import Mathlib.Algebra.BigOperators.Fin
import Mathlib.Data.Fin.Tuple.Sort
import Mathlib.Order.Bounds.Basic
import Fitting.Proofs.Stack.Fading

/-!
# Strongest first

A penalized series ranks its deltas by their magnitude.  No other way to give out the ranks makes
more of them: of two neighbours the stronger one is better off with the larger weight, so the
strongest delta may be moved to the front step by step, and then the others are ranked in the same
way.

* `ranked_swap_le`            two neighbours, the stronger one first;
* `ranked_front_le`           a delta that is moved before weaker ones;
* `ranked_perm_le`            deltas that are sorted, against any other order of them;
* `assignedFactor`            the factor of deltas that are given their ranks by hand;
* `strongest_first_extreme`   the series is the extreme one among all such assignments.
-/

namespace Fitting

/-! ### orders -/

section
variable {w : ℕ → ℚ} {s : ℚ}

theorem ranked_cons_cons (w : ℕ → ℚ) (a b : ℚ) (deltas : List ℚ) :
    ranked w (a :: b :: deltas) = (1 + a * w 0) * (1 + b * w 1) *
      ranked (fun r => w (r + 2)) deltas := by
  rw [ranked_cons, ranked_cons, ← mul_assoc]

theorem ranked_swap_le (fading : Fading w) {a b : ℚ} {deltas : List ℚ}
    (above : ∀ d ∈ a :: b :: deltas, -1 < d) (stronger : s * b ≤ s * a) :
    s * ranked w (b :: a :: deltas) ≤ s * ranked w (a :: b :: deltas) := by
  obtain ⟨above_a, others⟩ := List.forall_mem_cons.mp above
  obtain ⟨above_b, rest⟩ := List.forall_mem_cons.mp others
  have exchange : s * ((1 + b * w 0) * (1 + a * w 1)) ≤ s * ((1 + a * w 0) * (1 + b * w 1)) := by
    have gap : 0 ≤ (s * a - s * b) * (w 0 - w 1) :=
      mul_nonneg (sub_nonneg.mpr stronger) (sub_nonneg.mpr (fading.falls 0).le)
    linarith
  rw [ranked_cons_cons, ranked_cons_cons]
  exact side_mul_le (ranked_pos fading.next.next rest)
    (mul_pos (fading.factor_pos above_a 0) (fading.factor_pos above_b 1)) exchange le_rfl

theorem ranked_front_le (fading : Fading w) {before after : List ℚ} {d : ℚ}
    (above : ∀ e ∈ before ++ d :: after, -1 < e) (stronger : ∀ e ∈ before, s * e ≤ s * d) :
    s * ranked w (before ++ d :: after) ≤ s * ranked w (d :: (before ++ after)) := by
  induction before generalizing w with
  | nil => exact le_rfl
  | cons e before ih =>
    obtain ⟨first, others⟩ := List.forall_mem_cons.mp above
    obtain ⟨weaker, rest⟩ := List.forall_mem_cons.mp stronger
    have moved : ∀ a ∈ d :: e :: (before ++ after), -1 < a := fun a ha =>
      above a (((List.perm_middle.cons e).trans (.swap d e _)).mem_iff.mpr ha)
    -- `d` comes right after `e`, and then the two change places
    have step : s * ranked w (e :: (before ++ d :: after)) ≤
        s * ranked w (e :: d :: (before ++ after)) := by
      rw [ranked_cons w e, ranked_cons w e]
      exact side_mul_le (ranked_pos fading.next others) (fading.factor_pos first 0) le_rfl
        (ih fading.next others rest)
    exact step.trans (ranked_swap_le fading moved weaker)

/-- the order of how far they go is the one in which deltas go farthest -/
theorem ranked_perm_le (fading : Fading w) {deltas other : List ℚ} (above : ∀ d ∈ deltas, -1 < d)
    (sorted : deltas.Pairwise fun a b => s * b ≤ s * a) (perm : other.Perm deltas) :
    s * ranked w other ≤ s * ranked w deltas := by
  induction deltas generalizing w other with
  | nil => rw [perm.eq_nil]
  | cons d deltas ih =>
    obtain ⟨before, after, rfl⟩ := List.append_of_mem (perm.mem_iff.mpr List.mem_cons_self)
    have others : (before ++ after).Perm deltas := (List.perm_middle.symm.trans perm).cons_inv
    obtain ⟨first, rest⟩ := List.forall_mem_cons.mp above
    have strongest : ∀ e ∈ before, s * e ≤ s * d := fun e he =>
      List.rel_of_pairwise_cons sorted (others.mem_iff.mp (List.mem_append_left after he))
    refine (ranked_front_le fading (fun e he => above e (perm.mem_iff.mp he)) strongest).trans ?_
    rw [ranked_cons, ranked_cons]
    have pos := ranked_pos fading.next fun e he => rest e (others.mem_iff.mp he)
    exact side_mul_le pos (fading.factor_pos first 0) le_rfl
      (ih fading.next rest sorted.of_cons others)

end

/-! ### ranks -/

/-- the factor of deltas that are given their ranks by hand -/
def assignedFactor (w : ℕ → ℚ) (deltas : List ℚ) (rank : Equiv.Perm (Fin deltas.length)) : ℚ :=
  ∏ i, (1 + deltas.get i * w (rank i))

theorem ranked_ofFn (w : ℕ → ℚ) {n : ℕ} (f : Fin n → ℚ) :
    ranked w (List.ofFn f) = ∏ i, (1 + f i * w i) := by
  induction n generalizing w with
  | zero => rfl
  | succ n ih =>
    rw [List.ofFn_succ, ranked_cons, ih, Fin.prod_univ_succ]
    rfl

/-- to give out ranks is to list the deltas in the order of their ranks -/
theorem assignedFactor_eq (w : ℕ → ℚ) (deltas : List ℚ) (rank : Equiv.Perm (Fin deltas.length)) :
    assignedFactor w deltas rank = ranked w (List.ofFn (deltas.get ∘ rank.symm)) := by
  rw [ranked_ofFn, ← Equiv.prod_comp rank]
  simp only [Function.comp_apply, Equiv.symm_apply_apply]
  rfl

theorem ofFn_perm (deltas : List ℚ) (order : Equiv.Perm (Fin deltas.length)) :
    (List.ofFn (deltas.get ∘ order)).Perm deltas := by
  have perm := order.ofFn_comp_perm deltas.get
  rwa [List.ofFn_get] at perm

namespace Sided
variable {s : ℚ} {deltas : List ℚ} (sided : Sided s deltas)
include sided

theorem assignedFactor_le (rank : Equiv.Perm (Fin deltas.length)) :
    s * assignedFactor exactWeight deltas rank ≤ s * seriesFactor deltas := by
  rw [assignedFactor_eq, seriesFactor_eq]
  exact ranked_perm_le fading_exactWeight sided.sorted.above sided.pairwise_sorted
    ((ofFn_perm deltas rank.symm).trans (perm_sortedBy abs deltas).symm)

/-- the series is itself such an assignment -/
theorem exists_assignedFactor :
    ∃ rank, assignedFactor exactWeight deltas rank = seriesFactor deltas := by
  let weakness : Fin deltas.length → ℚ := fun i => -|deltas.get i|
  let order := Tuple.sort weakness
  have sorted : (List.ofFn (deltas.get ∘ order)).Pairwise fun a b => |b| ≤ |a| := by
    rw [List.pairwise_ofFn]
    exact fun i j earlier => neg_le_neg_iff.mp (Tuple.monotone_sort weakness earlier.le)
  refine ⟨order.symm, ?_⟩
  rw [assignedFactor_eq, Equiv.symm_symm, seriesFactor_eq,
    sortedBy_eq sided.tellsApart (ofFn_perm deltas order) sorted]

end Sided

/-- of all ways to give the ranks to gains the order of their magnitudes makes the largest factor,
and of all ways to give them to losses it makes the smallest one -/
theorem strongest_first_extreme :
    (∀ gains : List ℚ, (∀ d ∈ gains, 0 < d) →
      IsGreatest (Set.range (assignedFactor exactWeight gains)) (seriesFactor gains)) ∧
    ∀ losses : List ℚ, (∀ d ∈ losses, -1 < d ∧ d < 0) →
      IsLeast (Set.range (assignedFactor exactWeight losses)) (seriesFactor losses) := by
  refine ⟨fun gains all => ⟨(sided_gains all).exists_assignedFactor, ?_⟩,
    fun losses all => ⟨(sided_losses all).exists_assignedFactor, ?_⟩⟩
  · rintro _ ⟨rank, rfl⟩
    have bound := (sided_gains all).assignedFactor_le rank
    rwa [one_mul, one_mul] at bound
  · rintro _ ⟨rank, rfl⟩
    have bound := (sided_losses all).assignedFactor_le rank
    rwa [neg_one_mul, neg_one_mul, neg_le_neg_iff] at bound

/-- ranks that are given out in the wrong order -/
theorem strongest_first_extreme_weak_first :
    assignedFactor exactWeight [1 / 10, 3 / 10] (Equiv.refl _) ≤ seriesFactor [1 / 10, 3 / 10] ∧
    seriesFactor [-1 / 10, -3 / 10] ≤ assignedFactor exactWeight [-1 / 10,
      -3 / 10] (Equiv.refl _) := by
  obtain ⟨gains, losses⟩ := strongest_first_extreme
  exact ⟨(gains [1 / 10, 3 / 10] (by norm_num)).2 ⟨Equiv.refl _, rfl⟩,
    (losses [-1 / 10, -3 / 10] (by norm_num)).2 ⟨Equiv.refl _, rfl⟩⟩

end Fitting
