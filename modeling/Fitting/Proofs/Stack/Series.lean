import Fitting.Proofs.Exact

/-!
# Penalized series

A penalized series takes its deltas by decreasing magnitude and weights each by its rank.  Which of
two deltas of one magnitude comes first is left to the order in which they were added, so the series
is settled by its deltas only if no two of them differ in their sign alone.

* `ranked`                the factor of deltas that are in order already;
* `gainsOf`, `lossesOf`   the two series of a group, each of one sign;
* `applySeries_eq`        a series multiplies a value by the factor of its sorted deltas;
* `TellsApart`            a key by which no two different deltas are equal;
* `sortedBy_eq`           with such a key there is one sorted list, in whatever order the deltas
                          were added;
* `sortedBy_gains`        gains are in the order of their values.
-/

namespace Fitting

/-- the factor of deltas that are in order: each is weighted by its rank, the first one by the rank
zero -/
def ranked (w : ℕ → ℚ) (deltas : List ℚ) : ℚ :=
  (deltas.zipIdx.map fun (delta, rank) => 1 + delta * w rank).prod

/-- the delta with the largest key first, and so on -/
def sortedBy (key : ℚ → ℚ) (deltas : List ℚ) : List ℚ := deltas.mergeSort fun a b => key b ≤ key a

/-- the deltas that are no losses -/
def gainsOf (deltas : List ℚ) : List ℚ := deltas.filter fun d => 0 ≤ d

def lossesOf (deltas : List ℚ) : List ℚ := deltas.filter fun d => d < 0

theorem nonneg_of_mem_gainsOf {deltas : List ℚ} : ∀ d ∈ gainsOf deltas, 0 ≤ d :=
  fun _ h => of_decide_eq_true (List.mem_filter.mp h).2

theorem neg_of_mem_lossesOf {deltas : List ℚ} : ∀ d ∈ lossesOf deltas, d < 0 :=
  fun _ h => of_decide_eq_true (List.mem_filter.mp h).2

theorem foldl_mul_eq {ι : Type} (factor : ι → ℚ) (l : List ι) (value : ℚ) :
    l.foldl (fun acc i => acc * factor i) value = value * (l.map factor).prod := calc
  l.foldl (fun acc i => acc * factor i) value = (l.map factor).foldl (· * ·) (value * 1) := by
    rw [List.foldl_map, mul_one]
  _ = value * (l.map factor).prod := by rw [List.foldl_assoc, List.prod_eq_foldl]

theorem applySeries_eq (w : ℕ → ℚ) (value : ℚ) (deltas : List ℚ) :
    applySeries w value deltas = value * ranked w (sortedBy abs deltas) :=
  foldl_mul_eq (fun entry : ℚ × ℕ => 1 + entry.1 * w entry.2) (sortedBy abs deltas).zipIdx value

/-! ### the order of a series -/

section
variable (key : ℚ → ℚ) (deltas : List ℚ)

theorem perm_sortedBy : (sortedBy key deltas).Perm deltas := List.mergeSort_perm _ _

theorem pairwise_sortedBy : (sortedBy key deltas).Pairwise fun a b => key b ≤ key a := by
  have sorted : (sortedBy key deltas).Pairwise fun a b => decide (key b ≤ key a) = true := by
    refine List.pairwise_mergeSort (fun a b c hab hbc => ?_) (fun a b => ?_) deltas
    · exact decide_eq_true (le_trans (of_decide_eq_true hbc) (of_decide_eq_true hab))
    · simpa using le_total (key b) (key a)
  exact sorted.imp of_decide_eq_true

end

/-- no two different deltas have one key -/
def TellsApart (key : ℚ → ℚ) (deltas : List ℚ) : Prop :=
  ∀ a ∈ deltas, ∀ b ∈ deltas, key a = key b → a = b

theorem tellsApart_id (deltas : List ℚ) : TellsApart id deltas := fun _ _ _ _ same => same

section
variable {key : ℚ → ℚ} {deltas deltas' : List ℚ}

/-- there is one way to sort such deltas -/
theorem sortedBy_eq (apart : TellsApart key deltas) (perm : deltas'.Perm deltas)
    (order : deltas'.Pairwise fun a b => key b ≤ key a) : sortedBy key deltas = deltas' := by
  have same := perm_sortedBy key deltas
  refine List.Perm.eq_of_pairwise (fun a b ha hb hab hba => ?_) (pairwise_sortedBy key deltas) order
    (same.trans perm.symm)
  exact apart a (same.mem_iff.mp ha) b (perm.mem_iff.mp hb) (le_antisymm hba hab)

theorem sortedBy_perm (apart : TellsApart key deltas) (perm : deltas.Perm deltas') :
    sortedBy key deltas = sortedBy key deltas' :=
  sortedBy_eq apart ((perm_sortedBy key deltas').trans perm.symm) (pairwise_sortedBy key deltas')

theorem tellsApart_gains (gains : ∀ d ∈ deltas, 0 ≤ d) : TellsApart abs deltas := by
  intro a ha b hb same
  rwa [abs_of_nonneg (gains a ha), abs_of_nonneg (gains b hb)] at same

theorem tellsApart_losses (losses : ∀ d ∈ deltas, d < 0) : TellsApart abs deltas := by
  intro a ha b hb same
  rw [abs_of_neg (losses a ha), abs_of_neg (losses b hb)] at same
  exact neg_inj.mp same

theorem sortedBy_gains (gains : ∀ d ∈ deltas, 0 ≤ d) :
    sortedBy abs deltas = sortedBy id deltas := by
  have perm := perm_sortedBy id deltas
  refine sortedBy_eq (tellsApart_gains gains) perm ?_
  refine (pairwise_sortedBy id deltas).imp_of_mem fun ha hb order => ?_
  rwa [abs_of_nonneg (gains _ (perm.mem_iff.mp ha)), abs_of_nonneg (gains _ (perm.mem_iff.mp hb))]

end

end Fitting
