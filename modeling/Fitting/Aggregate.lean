import Fitting.Scalar
import Fitting.Modifier.Basic

/-!
# Which of several buffs counts

`AggregateMode.select` scans the values of the candidates from the left and keeps the best one so
far.  A candidate replaces it only if it is strictly better, so of equals the earliest counts, and
what compares with nothing is never replaced.
-/

namespace Fitting.AggregateMode

variable {α : Type} [Scalar α]

/-- `candidate` is strictly better than `current` -/
def beats (mode : AggregateMode) (candidate current : α) : Bool :=
  match mode with
  | .maximum => Scalar.less current candidate
  | .minimum => Scalar.less candidate current
  | .default => Scalar.less (Scalar.magnitude current) (Scalar.magnitude candidate)

/-- the best position among `best`, which holds `value`, and the values from position `next` on -/
def scan (mode : AggregateMode) (best : Nat) (value : α) (next : Nat) : List α → Nat
  | [] => best
  | v :: vs =>
    if mode.beats v value then scan mode next v (next + 1) vs
    else scan mode best value (next + 1) vs

/-- the position of the value that counts; none among no values -/
def select (mode : AggregateMode) : List α → Option Nat
  | [] => none
  | v :: vs => some (scan mode 0 v 1 vs)

end Fitting.AggregateMode
