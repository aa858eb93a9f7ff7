import Mathlib.Algebra.Order.Field.Basic
import Fitting.Proofs.Stack.Fading

/-!
# Diminishing returns

A penalized series is worth more than nothing and less than its deltas without a penalty, and one
more delta always counts.  That it does is not plain: a delta in the middle of the series pushes the
weaker ones to lower weights.  But the delta that comes to a rank is never weaker than the one that
leaves it, so the longer series goes farther rank by rank.

* `one_lt_ranked`        a series goes to the side of its deltas;
* `ranked_lt_plain`      from the second rank on it does not go as far as they do;
* `ranked_lt_cons`       a delta before weaker ones makes the series go farther,
* `ranked_lt_insert`     and so does one between stronger and weaker ones;
* `gained_eq`            what one more copy of a delta is worth;
* `penalty_diminishes`   the bounds of a penalized series, what a delta adds to it, and what copies
                         of one add.
-/

namespace Fitting

/-! ### bounds -/

/-- the factor of deltas that are not penalized -/
def plainFactor (deltas : List ℚ) : ℚ := (deltas.map fun d => 1 + d).prod

theorem plainFactor_cons (d : ℚ) (deltas : List ℚ) :
    plainFactor (d :: deltas) = (1 + d) * plainFactor deltas :=
  List.prod_cons

section
variable {w : ℕ → ℚ} {s : ℚ} {deltas : List ℚ}

theorem plainFactor_pos (above : ∀ d ∈ deltas, -1 < d) : 0 < plainFactor deltas := by
  induction deltas with
  | nil => exact one_pos
  | cons d deltas ih =>
    obtain ⟨first, others⟩ := List.forall_mem_cons.mp above
    rw [plainFactor_cons]
    exact mul_pos (by linarith) (ih others)

theorem one_lt_factor (fading : Fading w) {d : ℚ} (far : 0 < s * d) :
    s * 1 < s * (1 + d * w 0) := by
  have weighted : 0 < s * d * w 0 := mul_pos far (fading.pos 0)
  linarith

theorem one_lt_ranked (fading : Fading w) {d : ℚ} (sided : Sided s (d :: deltas)) :
    s * 1 < s * ranked w (d :: deltas) := by
  have first : s * 1 < s * (1 + d * w 0) := one_lt_factor fading (sided.pos d List.mem_cons_self)
  induction deltas generalizing w d with
  | nil => rwa [ranked_cons, ranked_nil, mul_one (1 + d * w 0)]
  | cons e deltas ih =>
    have rest : s * 1 < s * ranked (fun r => w (r + 1)) (e :: deltas) :=
      ih fading.next sided.of_cons
        (one_lt_factor fading.next (sided.of_cons.pos e List.mem_cons_self))
    have both :=
      side_mul_lt one_pos (fading.factor_pos (sided.above d List.mem_cons_self) 0) first.le rest
    rwa [one_mul, ← ranked_cons] at both

theorem factor_le_plain (fading : Fading w) {d : ℚ} (far : 0 < s * d) :
    s * (1 + d * w 0) ≤ s * (1 + d) := by
  have weighted : s * d * w 0 ≤ s * d * 1 := mul_le_mul_of_nonneg_left fading.start far.le
  linarith

theorem ranked_le_plain (fading : Fading w) (sided : Sided s deltas) :
    s * ranked w deltas ≤ s * plainFactor deltas := by
  induction deltas generalizing w with
  | nil => exact le_rfl
  | cons d deltas ih =>
    have above : -1 < d := sided.above d List.mem_cons_self
    rw [ranked_cons, plainFactor_cons]
    exact side_mul_le (ranked_pos fading.next sided.of_cons.above) (by linarith)
      (factor_le_plain fading (sided.pos d List.mem_cons_self)) (ih fading.next sided.of_cons)

/-- the first delta may have its full weight, the second one has not -/
theorem ranked_lt_plain (fading : Fading w) {d e : ℚ} (sided : Sided s (d :: e :: deltas)) :
    s * ranked w (d :: e :: deltas) < s * plainFactor (d :: e :: deltas) := by
  have others : Sided s (e :: deltas) := sided.of_cons
  have above : -1 < d := sided.above d List.mem_cons_self
  have cut : s * (1 + e * w 1) < s * (1 + e) := by
    have weighted : s * e * w 1 < s * e * 1 :=
      mul_lt_mul_of_pos_left ((fading.falls 0).trans_le fading.start)
        (others.pos e List.mem_cons_self)
    linarith
  have second : s * ranked (fun r => w (r + 1)) (e :: deltas) < s * plainFactor (e :: deltas) := by
    rw [ranked_cons, plainFactor_cons, mul_comm (1 + e * _), mul_comm (1 + e)]
    exact side_mul_lt (fading.factor_pos (others.above e List.mem_cons_self) 1)
      (plainFactor_pos others.of_cons.above)
      (ranked_le_plain fading.next.next others.of_cons) cut
  rw [ranked_cons, plainFactor_cons]
  exact side_mul_lt (ranked_pos fading.next others.above) (by linarith)
    (factor_le_plain fading (sided.pos d List.mem_cons_self)) second

/-! ### one more delta -/

/-- each delta that moves on leaves its rank to one that is no weaker, and the last one comes to a
rank of its own -/
theorem ranked_lt_cons (fading : Fading w) {d : ℚ} (sided : Sided s (d :: deltas))
    (sorted : (d :: deltas).Pairwise fun a b => s * b ≤ s * a) :
    s * ranked w deltas < s * ranked w (d :: deltas) := by
  induction deltas generalizing w d with
  | nil => exact one_lt_ranked fading sided
  | cons e deltas ih =>
    have stronger : s * e ≤ s * d := List.rel_of_pairwise_cons sorted List.mem_cons_self
    rw [ranked_cons w d, ranked_cons w e]
    -- `d` comes to the rank of `e`, and what comes after `d` is the series of `e` at lower weights
    exact side_mul_lt (ranked_pos fading.next sided.of_cons.of_cons.above)
      (fading.factor_pos (sided.above d List.mem_cons_self) 0)
      (side_factor_le (fading.pos 0) stronger) (ih fading.next sided.of_cons sorted.of_cons)

theorem ranked_lt_insert (fading : Fading w) {stronger weaker : List ℚ} {d : ℚ}
    (sided : Sided s (stronger ++ d :: weaker))
    (sorted : (stronger ++ d :: weaker).Pairwise fun a b => s * b ≤ s * a) :
    s * ranked w (stronger ++ weaker) < s * ranked w (stronger ++ d :: weaker) := by
  induction stronger generalizing w with
  | nil => exact ranked_lt_cons fading sided sorted
  | cons e stronger ih =>
    have others : Sided s (stronger ++ d :: weaker) := sided.of_cons
    have fewer : ∀ a ∈ stronger ++ weaker, -1 < a := fun a ha =>
      others.above a (((List.sublist_cons_self d weaker).append_left stronger).subset ha)
    rw [List.cons_append, List.cons_append, ranked_cons, ranked_cons]
    exact side_mul_lt (ranked_pos fading.next fewer)
      (fading.factor_pos (sided.above e List.mem_cons_self) 0) le_rfl
      (ih fading.next others sorted.of_cons)

end

/-! ### a penalized series -/

namespace Sided
variable {s : ℚ} {deltas : List ℚ} (sided : Sided s deltas)
include sided

theorem seriesFactor_perm {more : List ℚ} (perm : more.Perm deltas) :
    seriesFactor more = seriesFactor deltas := by
  rw [seriesFactor_eq, seriesFactor_eq, sortedBy_perm (sided.perm perm).tellsApart perm]

theorem seriesFactor_bounds (two : 2 ≤ deltas.length) :
    s * 1 < s * seriesFactor deltas ∧ s * seriesFactor deltas < s * plainFactor deltas := by
  have perm := perm_sortedBy abs deltas
  have sorted := sided.sorted
  have length : 2 ≤ (sortedBy abs deltas).length := perm.length_eq ▸ two
  have total : plainFactor deltas = plainFactor (sortedBy abs deltas) := (perm.map _).prod_eq.symm
  rw [seriesFactor_eq, total]
  match sortedBy abs deltas, sorted, length with
  | d :: e :: rest, sorted, _ =>
    exact ⟨one_lt_ranked fading_exactWeight sorted, ranked_lt_plain fading_exactWeight sorted⟩

end Sided

/-- sorting puts one more delta somewhere between the others -/
theorem exists_between (key : ℚ → ℚ) (d : ℚ) (deltas : List ℚ) : ∃ before after,
    sortedBy key (d :: deltas) = before ++ d :: after ∧ sortedBy key deltas = before ++ after := by
  let stronger : ℚ → ℚ → Bool := fun a b => decide (key b ≤ key a)
  have trans : ∀ a b c, stronger a b = true → stronger b c = true → stronger a c = true :=
    fun a b c hab hbc =>
    decide_eq_true (le_trans (of_decide_eq_true hbc) (of_decide_eq_true hab))
  have total : ∀ a b, (stronger a b || stronger b a) = true := fun a b => by
    simpa [stronger] using le_total (key b) (key a)
  obtain ⟨before, after, longer, shorter, -⟩ := List.mergeSort_cons trans total d deltas
  exact ⟨before, after, longer, shorter⟩

theorem seriesFactor_lt {s d : ℚ} {deltas : List ℚ} (sided : Sided s (d :: deltas)) :
    s * seriesFactor deltas < s * seriesFactor (d :: deltas) := by
  have all := sided.sorted
  have order := sided.pairwise_sorted
  obtain ⟨before, after, longer, shorter⟩ := exists_between abs d deltas
  rw [longer] at all order
  rw [seriesFactor_eq, seriesFactor_eq, longer, shorter]
  exact ranked_lt_insert fading_exactWeight all order

/-! ### copies of a delta -/

/-- the factor that one more copy of a delta brings to a series of `n` copies -/
def gained (d : ℚ) (n : ℕ) : ℚ :=
  seriesFactor (List.replicate (n + 1) d) / seriesFactor (List.replicate n d)

theorem ranked_concat (w : ℕ → ℚ) (deltas : List ℚ) (d : ℚ) :
    ranked w (deltas ++ [d]) = ranked w deltas * (1 + d * w deltas.length) := by
  unfold ranked
  rw [List.zipIdx_append, List.map_append, List.prod_append]
  simp

theorem sortedBy_replicate (key : ℚ → ℚ) (n : ℕ) (d : ℚ) :
    sortedBy key (List.replicate n d) = List.replicate n d :=
  List.perm_replicate.mp (perm_sortedBy key _)

theorem gained_eq {d : ℚ} (above : -1 < d) (n : ℕ) : gained d n = 1 + d * exactWeight n := by
  have pos : 0 < ranked exactWeight (List.replicate n d) :=
    ranked_pos fading_exactWeight fun e he => (List.eq_of_mem_replicate he) ▸ above
  unfold gained
  rw [seriesFactor_eq, seriesFactor_eq, sortedBy_replicate, sortedBy_replicate,
    List.replicate_succ', ranked_concat, List.length_replicate, mul_div_cancel_left₀ _ pos.ne']

theorem gained_closer {d : ℚ} (above : -1 < d) (effective : d ≠ 0) (n : ℕ) :
    |gained d (n + 1) - 1| < |gained d n - 1| := by
  have weight : ∀ r, |gained d r - 1| = |d| * exactWeight r := by
    intro r
    rw [gained_eq above, add_sub_cancel_left, abs_mul, abs_of_pos (fading_exactWeight.pos r)]
  rw [weight, weight]
  exact mul_lt_mul_of_pos_left (fading_exactWeight.falls n) (abs_pos.mpr effective)

/-! ### gains and losses -/

/-- a penalized series of gains is above one and below its deltas without a penalty, and every
further gain raises it, wherever it comes in the order; with losses it is the other way round; and
of equal deltas each brings less than the one before it -/
theorem penalty_diminishes :
    (∀ gains : List ℚ, (∀ d ∈ gains, 0 < d) →
      (2 ≤ gains.length → 1 < seriesFactor gains ∧ seriesFactor gains < plainFactor gains) ∧
      ∀ d, 0 < d → ∀ more : List ℚ, more.Perm (d :: gains) →
        seriesFactor gains < seriesFactor more) ∧
    (∀ losses : List ℚ, (∀ d ∈ losses, -1 < d ∧ d < 0) →
      (2 ≤ losses.length → plainFactor losses < seriesFactor losses ∧ seriesFactor losses < 1) ∧
      ∀ d, -1 < d → d < 0 → ∀ more : List ℚ, more.Perm (d :: losses) →
        seriesFactor more < seriesFactor losses) ∧
    ∀ d : ℚ, 0 < d ∨ (-1 < d ∧ d < 0) → ∀ n, |gained d (n + 1) - 1| < |gained d n - 1| := by
  refine ⟨fun gains all => ⟨fun two => ?_, fun d far more perm => ?_⟩,
    fun losses all => ⟨fun two => ?_, fun d above below more perm => ?_⟩, fun d sided n => ?_⟩
  · have bounds := (sided_gains all).seriesFactor_bounds two
    simpa only [one_mul] using bounds
  · have sided : Sided 1 (d :: gains) := sided_gains (List.forall_mem_cons.mpr ⟨far, all⟩)
    have farther := seriesFactor_lt sided
    rwa [one_mul, one_mul, ← sided.seriesFactor_perm perm] at farther
  · have bounds := (sided_losses all).seriesFactor_bounds two
    simp only [neg_one_mul, neg_lt_neg_iff] at bounds
    exact ⟨bounds.2, bounds.1⟩
  · have sided : Sided (-1) (d :: losses) :=
      sided_losses (List.forall_mem_cons.mpr ⟨⟨above, below⟩, all⟩)
    have farther := seriesFactor_lt sided
    rwa [neg_one_mul, neg_one_mul, neg_lt_neg_iff, ← sided.seriesFactor_perm perm] at farther
  · obtain gain | ⟨above, below⟩ := sided
    · exact gained_closer (by linarith) gain.ne' n
    · exact gained_closer above below.ne n

/-- a delta between two others, on either side, and a third copy of a loss -/
theorem penalty_diminishes_between :
    (1 < seriesFactor [3 / 10, 1 / 10] ∧
      seriesFactor [3 / 10, 1 / 10] < plainFactor [3 / 10, 1 / 10]) ∧
    seriesFactor [3 / 10, 1 / 10] < seriesFactor [3 / 10, 1 / 5, 1 / 10] ∧
    (plainFactor [-3 / 10, -1 / 10] < seriesFactor [-3 / 10, -1 / 10] ∧
      seriesFactor [-3 / 10, -1 / 10] < 1) ∧
    seriesFactor [-3 / 10, -1 / 5, -1 / 10] < seriesFactor [-3 / 10, -1 / 10] ∧
    |gained (-1 / 2) 2 - 1| < |gained (-1 / 2) 1 - 1| := by
  obtain ⟨gains, losses, copies⟩ := penalty_diminishes
  obtain ⟨gain_bounds, gain_more⟩ := gains [3 / 10, 1 / 10] (by norm_num)
  obtain ⟨loss_bounds, loss_more⟩ := losses [-3 / 10, -1 / 10] (by norm_num)
  exact ⟨gain_bounds le_rfl, gain_more (1 / 5) (by norm_num) _ (.swap _ _ _), loss_bounds le_rfl,
    loss_more (-1 / 5) (by norm_num) (by norm_num) _ (.swap _ _ _),
    copies (-1 / 2) (.inr (by norm_num)) 1⟩

end Fitting
