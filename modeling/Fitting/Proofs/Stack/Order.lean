import Mathlib.Data.List.Induction
import Fitting.Proofs.Stack.ClosedForm

/-!
# The order of the contributions

Contributions may be added to a stack in any order.  Sums, products and extreme values do not depend
on it, and neither does a penalized series: its deltas are of one sign, so deltas of one magnitude
are equal and may change places.

* `Stack.ofList`            contributions that are added one after the other;
* `groupFactor_perm`        the factor of a group is the same in every order;
* `applyGroup_perm`         and so is what a group of any kind does to a value;
* `Stack.apply_perm`        so it makes no difference in which order contributions of any kinds are
                            added.
-/

namespace Fitting

/-! ### groups -/

section
variable {group group' : List (Contribution ℚ)}

theorem extreme?_perm (highIsGood : Bool) {values values' : List ℚ} (perm : values.Perm values') :
    extreme? highIsGood values = extreme? highIsGood values' := by
  unfold extreme?
  split
  · refine Option.ext fun v => ?_
    simp only [List.max?_eq_some_iff, perm.mem_iff]
  · refine Option.ext fun v => ?_
    simp only [List.min?_eq_some_iff, perm.mem_iff]

theorem factors_perm (op : Operation) (penalized : Bool) (perm : group.Perm group') :
    (factors op penalized group).Perm (factors op penalized group') :=
  (perm.filter _).filterMap _

theorem groupFactor_perm (w : ℕ → ℚ) (op : Operation) (perm : group.Perm group') :
    groupFactor w op group = groupFactor w op group' := by
  have deltas : (penalizedDeltas op group).Perm (penalizedDeltas op group') :=
    (factors_perm op true perm).map _
  have gains : (gainsOf (penalizedDeltas op group)).Perm (gainsOf (penalizedDeltas op group')) :=
    deltas.filter _
  have losses : (lossesOf (penalizedDeltas op group)).Perm (lossesOf (penalizedDeltas op group')) :=
    deltas.filter _
  -- the deltas of one sign are told apart by their magnitude, so there is one way to rank them
  unfold groupFactor
  rw [(factors_perm op false perm).prod_eq, sortedBy_perm (tellsApart_id _) gains,
    sortedBy_perm (tellsApart_losses neg_of_mem_lossesOf) losses]

theorem applyGroup_perm (w : ℕ → ℚ) (highIsGood : Bool) (value : ℚ) (op : Operation)
    (perm : group.Perm group') :
    applyGroup w highIsGood value op group = applyGroup w highIsGood value op group' := by
  have values := perm.map Contribution.value
  rw [applyGroup_eq, applyGroup_eq]
  cases op with
  | preAssign | postAssign =>
      exact congrArg (fun extreme => Option.getD extreme value) (extreme?_perm highIsGood values)
  | modAdd => exact congrArg (value + ·) values.sum_eq
  | modSub => exact congrArg (value - ·) values.sum_eq
  | preMul | preDiv | postMul | postDiv | postPercent =>
      exact congrArg (value * ·) (groupFactor_perm w _ perm)

end

/-! ### stacks -/

namespace Stack

/-- contributions that are added one after the other -/
def ofList {α : Type} (cs : List (Contribution α)) : Stack α :=
  cs.foldl (fun s c => s.add c.operation c.value c.penalized) empty

theorem contributions_ofList {α : Type} (cs : List (Contribution α)) :
    (ofList cs).contributions = cs := by
  unfold ofList
  induction cs using List.reverseRecOn with
  | nil => rfl
  | append_singleton cs c ih =>
    rw [List.foldl_append, List.foldl_cons, List.foldl_nil]
    exact congrArg (· ++ [c]) ih

/-- contributions of all operations, penalized or not, may be added in any order -/
theorem apply_perm (w : ℕ → ℚ) {cs cs' : List (Contribution ℚ)} (perm : cs.Perm cs') (base : ℚ)
    (highIsGood : Bool) :
    (ofList cs).apply w base highIsGood = (ofList cs').apply w base highIsGood := by
  have groups : ∀ op, ((ofList cs).group op).Perm ((ofList cs').group op) := by
    intro op
    unfold group
    rw [contributions_ofList, contributions_ofList]
    exact perm.filter _
  have steps : (fun value op => applyGroup w highIsGood value op ((ofList cs).group op)) =
      fun value op => applyGroup w highIsGood value op ((ofList cs').group op) :=
    funext fun value => funext fun op => applyGroup_perm w highIsGood value op (groups op)
  exact congrArg (fun step => Operation.applyOrder.foldl step base) steps

/-- two gains and two losses of one magnitude, a division by zero, and contributions of other
operations between them -/
def tied : List (Contribution ℚ) :=
  [⟨.postPercent, 20, true⟩, ⟨.postPercent, -20, true⟩, ⟨.preAssign, 3, false⟩,
    ⟨.postPercent, 20, true⟩, ⟨.preDiv, 0, true⟩, ⟨.postPercent, -20, true⟩, ⟨.modSub, 5, false⟩]

theorem apply_perm_tied : tied.Perm tied.reverse ∧
    (ofList tied).apply exactWeight 100 true = (ofList tied.reverse).apply exactWeight 100 true :=
  ⟨tied.reverse_perm.symm, apply_perm exactWeight tied.reverse_perm.symm 100 true⟩

end Stack

end Fitting
