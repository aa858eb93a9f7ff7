/-!
# The arithmetic of attribute values

`Scalar α` is all that the value rules ask of a number.  The engine runs at `Float`; the rules
themselves are written once for every `Scalar`, so they can be read over exact numbers as well.

Two operations are chosen with care for numbers that are no numbers:

* `larger`, `smaller`   give the other operand when one of the two is no number;
* `outranks`            the order of decreasing magnitude, total also on such values.
-/

namespace Fitting

/-- what the value rules ask of a number -/
class Scalar (α : Type) extends Add α, Sub α, Mul α, Div α, BEq α where
  zero : α
  one : α
  hundred : α
  magnitude : α → α
  less : α → α → Bool
  /-- `a` comes no later than `b` when values are listed by decreasing magnitude -/
  outranks : α → α → Bool

namespace Scalar
variable {α : Type} [Scalar α]

/-- the second operand unless the first is larger or the second is no number; of equals it is the
second, so a zero has the sign of the later one -/
def larger (a b : α) : α := if less b a || !(b == b) then a else b

/-- the second operand unless the first is smaller or the second is no number; of equals it is the
second, so a zero has the sign of the later one -/
def smaller (a b : α) : α := if less a b || !(b == b) then a else b

/-- the sum of a list, from its first value on and from the left, so that the sum of negative zeros
is one, too -/
def sum : List α → α
  | [] => zero
  | x :: xs => xs.foldl (· + ·) x

end Scalar

/-- magnitudes are compared by their bits: infinity outranks all finite values, and what is no
number outranks infinity -/
instance : Scalar Float where
  zero := 0.0
  one := 1.0
  hundred := 100.0
  magnitude := Float.abs
  less a b := a < b
  outranks a b := b.abs.toBits ≤ a.abs.toBits

end Fitting
