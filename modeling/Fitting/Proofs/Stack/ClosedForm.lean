import Fitting.Proofs.Stack.Series

/-!
# The closed form of the operator stack

The stack is applied group by group, and each group contribution by contribution.  Over exact
numbers each group comes down to one step, so the whole stack is one formula.

* `factor?`            the factor a source value stands for;
* `groupFactor`        the factor of a group that scales: the plain factors, the gains and the
                       losses;
* `extreme?`           the value an assignment keeps;
* `applyGroup_eq`      what each kind of group does to a value;
* `apply_closedForm`   what the stack does to it.
-/

namespace Fitting

/-! ### groups that scale -/

/-- the factor a source value stands for; none for a division by zero and for an operation that does
not scale -/
def factor? (op : Operation) (value : ℚ) : Option ℚ :=
  match op with
  | .preMul | .postMul => some value
  | .preDiv | .postDiv => if value = 0 then none else some (1 / value)
  | .postPercent => some (1 + value / 100)
  | .preAssign | .postAssign | .modAdd | .modSub => none

/-- the factors of the contributions of a group that are penalized, or that are not -/
def factors (op : Operation) (penalized : Bool) (group : List (Contribution ℚ)) : List ℚ :=
  (group.filter fun c => c.penalized = penalized).filterMap fun c => factor? op c.value

/-- how far the penalized factors are from one -/
def penalizedDeltas (op : Operation) (group : List (Contribution ℚ)) : List ℚ :=
  (factors op true group).map fun factor => factor - 1

/-- the factor of a whole group.  Gains and losses are ranked apart. -/
def groupFactor (w : ℕ → ℚ) (op : Operation) (group : List (Contribution ℚ)) : ℚ :=
  (factors op false group).prod *
    ranked w (sortedBy id (gainsOf (penalizedDeltas op group))) *
    ranked w (sortedBy abs (lossesOf (penalizedDeltas op group)))

theorem delta?_eq (op : Operation) (value : ℚ) :
    delta? op value = (factor? op value).map fun factor => factor - 1 := by
  cases op with
  | preMul | postMul | preAssign | postAssign | modAdd | modSub => rfl
  | preDiv | postDiv => by_cases h : value = 0 <;> simp [delta?, factor?, h]
  | postPercent => simp [delta?, factor?]

theorem filterMap_delta? (op : Operation) (penalized : Bool) (group : List (Contribution ℚ)) :
    (group.filter fun c => c.penalized == penalized).filterMap (fun c => delta? op c.value) =
      (factors op penalized group).map fun factor => factor - 1 := by
  simp only [factors, List.map_filterMap, delta?_eq]
  rfl

theorem foldl_plain (value : ℚ) (factors : List ℚ) :
    (factors.map fun factor => factor - 1).foldl (fun acc d => acc * (Scalar.one + d)) value =
      value * factors.prod := by
  have back : ((fun d : ℚ => 1 + d) ∘ fun factor => factor - 1) = id :=
    funext fun factor => add_sub_cancel 1 factor
  refine (foldl_mul_eq (fun d : ℚ => 1 + d) _ value).trans ?_
  rw [List.map_map, back, List.map_id]

theorem scale_eq (w : ℕ → ℚ) (op : Operation) (value : ℚ) (group : List (Contribution ℚ)) :
    scale w op value group = value * groupFactor w op group := by
  have parts : ((factors op true group).map fun factor => factor - 1).partition
      (fun d => Scalar.less d Scalar.zero) =
      (lossesOf (penalizedDeltas op group), gainsOf (penalizedDeltas op group)) := by
    rw [List.partition_eq_filter_filter]
    refine Prod.ext rfl (List.filter_congr fun d _ => ?_)
    rw [Function.comp_apply, Scalar.less_eq, Scalar.zero_eq, ← decide_not, decide_eq_decide, not_lt]
  unfold scale groupFactor
  simp only [filterMap_delta?, parts, foldl_plain, applySeries_eq,
    sortedBy_gains nonneg_of_mem_gainsOf, mul_assoc]

/-! ### assignments -/

/-- the largest or the smallest of some values -/
def extreme? (highIsGood : Bool) (values : List ℚ) : Option ℚ :=
  if highIsGood then values.max? else values.min?

theorem assign_eq (highIsGood : Bool) (value : ℚ) (group : List (Contribution ℚ)) :
    assign highIsGood value group =
      (extreme? highIsGood (group.map Contribution.value)).getD value := by
  have larger : (Scalar.larger : ℚ → ℚ → ℚ) = max := funext fun a => funext (Scalar.larger_eq a)
  have smaller : (Scalar.smaller : ℚ → ℚ → ℚ) = min := funext fun a => funext (Scalar.smaller_eq a)
  unfold assign extreme?
  rw [larger, smaller]
  cases group <;> cases highIsGood <;> rfl

/-! ### the stack -/

/-- what a group does to a value.  An empty group has no extreme value, the sum zero and the factor
one. -/
theorem applyGroup_eq (w : ℕ → ℚ) (highIsGood : Bool) (value : ℚ) (op : Operation)
    (group : List (Contribution ℚ)) :
    applyGroup w highIsGood value op group =
      match op with
      | .preAssign | .postAssign => (extreme? highIsGood (group.map Contribution.value)).getD value
      | .modAdd => value + (group.map Contribution.value).sum
      | .modSub => value - (group.map Contribution.value).sum
      | .preMul | .preDiv | .postMul | .postDiv | .postPercent =>
          value * groupFactor w op group := by
  cases group with
  | nil =>
    cases op <;> cases highIsGood <;>
      simp [applyGroup, extreme?, groupFactor, factors, penalizedDeltas, gainsOf, lossesOf, ranked,
        sortedBy]
  | cons c cs =>
    cases op with
    | preAssign | postAssign => exact assign_eq highIsGood value (c :: cs)
    | modAdd => exact congrArg (value + ·) (Scalar.sum_eq _)
    | modSub => exact congrArg (value - ·) (Scalar.sum_eq _)
    | preMul | preDiv | postMul | postDiv | postPercent => exact scale_eq w _ value (c :: cs)

namespace Stack
variable (s : Stack ℚ)

/-- what has been added with one operation -/
def added (op : Operation) : List (Contribution ℚ) :=
  s.contributions.filter fun c => c.operation = op

/-- the source values of one operation -/
def values (op : Operation) : List ℚ := (s.added op).map Contribution.value

/-- what the assignments of one operation make of a value -/
def assigned (op : Operation) (highIsGood : Bool) (value : ℚ) : ℚ :=
  (extreme? highIsGood (s.values op)).getD value

/-- the factor of the group of one operation -/
def factor (op : Operation) : ℚ := groupFactor exactWeight op (s.added op)

/-- the whole stack in one formula -/
theorem apply_closedForm (base : ℚ) (highIsGood : Bool) :
    s.apply exactWeight base highIsGood =
      s.assigned .postAssign highIsGood
        ((s.assigned .preAssign highIsGood base * s.factor .preMul * s.factor .preDiv
            + (s.values .modAdd).sum - (s.values .modSub).sum)
          * s.factor .postMul * s.factor .postDiv * s.factor .postPercent) := by
  unfold apply Operation.applyOrder
  simp only [List.foldl_cons, List.foldl_nil, applyGroup_eq]
  rfl

end Stack

end Fitting
