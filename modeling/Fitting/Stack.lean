import Fitting.Scalar
import Fitting.Modifier.Basic

/-!
# The operator stack

Everything that acts on one attribute is gathered in a `Stack`: a list of contributions, each with
its operation.  The stack is applied to a base value group by group, in `Operation.applyOrder`.

* assignments keep the largest or the smallest of their values;
* additions and subtractions act by their sum;
* the other operations scale by `1 + delta`.  Penalized deltas are weighted by their rank, the
  strongest first, gains and losses ranked apart.
-/

namespace Fitting

/-- a resolved source value that acts on an attribute -/
structure Contribution (α : Type) where
  operation : Operation
  value : α
  /-- subject to the stacking penalty -/
  penalized : Bool

/-- the contributions to one attribute, in the order they were added -/
structure Stack (α : Type) where
  contributions : List (Contribution α)

namespace Stack
variable {α : Type}

def empty : Stack α := ⟨[]⟩

def add (s : Stack α) (operation : Operation) (value : α) (penalized : Bool) : Stack α :=
  ⟨s.contributions ++ [⟨operation, value, penalized⟩]⟩

/-- the contributions of one operation, in the order they were added -/
def group (s : Stack α) (op : Operation) : List (Contribution α) :=
  s.contributions.filter (fun c => c.operation = op)

theorem group_add (s : Stack α) (op : Operation) (value : α) (penalized : Bool) (o : Operation) :
    (s.add op value penalized).group o =
      if op = o then s.group o ++ [⟨op, value, penalized⟩] else s.group o := by
  by_cases h : op = o <;> simp [add, group, List.filter_append, h]

end Stack

section
variable {α : Type} [Scalar α]

/-- the relative change a source value makes; none for a division by zero and for an operation that
does not scale -/
def delta? (op : Operation) (value : α) : Option α :=
  match op with
  | .preMul | .postMul => some (value - Scalar.one)
  | .preDiv | .postDiv =>
    if value == Scalar.zero then none else some (Scalar.one / value - Scalar.one)
  | .postPercent => some (value / Scalar.hundred)
  | .preAssign | .postAssign | .modAdd | .modSub => none

/-- one penalized series: the strongest delta first, each weighted by its rank -/
def applySeries (weight : Nat → α) (value : α) (deltas : List α) : α :=
  (deltas.mergeSort Scalar.outranks).zipIdx.foldl
    (fun acc (delta, rank) => acc * (Scalar.one + delta * weight rank)) value

/-- a group that scales: unpenalized deltas first, then the gains, then the losses -/
def scale (weight : Nat → α) (op : Operation) (value : α) (group : List (Contribution α)) : α :=
  let deltas (penalized : Bool) : List α :=
    (group.filter (fun c => c.penalized == penalized)).filterMap (fun c => delta? op c.value)
  let plain := (deltas false).foldl (fun acc d => acc * (Scalar.one + d)) value
  let (losses, gains) := (deltas true).partition (fun d => Scalar.less d Scalar.zero)
  applySeries weight (applySeries weight plain gains) losses

/-- the value an assignment leaves: the largest or the smallest of the group -/
def assign (highIsGood : Bool) (value : α) : List (Contribution α) → α
  | [] => value
  | c :: cs =>
    (cs.map Contribution.value).foldl (if highIsGood then Scalar.larger else Scalar.smaller) c.value

/-- one group applied to a value; an empty group leaves it as it is -/
def applyGroup (weight : Nat → α) (highIsGood : Bool) (value : α) (op : Operation)
    (group : List (Contribution α)) : α :=
  if group.isEmpty then value
  else match op with
    | .preAssign | .postAssign => assign highIsGood value group
    | .modAdd => value + Scalar.sum (group.map Contribution.value)
    | .modSub => value - Scalar.sum (group.map Contribution.value)
    | .preMul | .preDiv | .postMul | .postDiv | .postPercent => scale weight op value group

def Stack.apply (weight : Nat → α) (s : Stack α) (base : α) (highIsGood : Bool) : α :=
  Operation.applyOrder.foldl
    (fun value op => applyGroup weight highIsGood value op (s.group op)) base

end

/-! ### the stacking penalty -/

/-- the weight of the second delta of a series: `exp (-(1 / 2.67) ^ 2)` -/
def penaltyFactor : Float := 0.8691199808003974

/-- the weight of the delta at `rank` of a series: the factor to the square of the rank -/
def stackingWeight (rank : Nat) : Float :=
  let r := Float.ofNat rank
  Float.pow penaltyFactor (r * r)

end Fitting
