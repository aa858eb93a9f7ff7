/-!
# Integer types

An `IntegerType` says how many bits the integers of a document have, and whether one of them is a
sign.
-/

namespace Fitting

/-- the integers of a number of bits, with a sign or without -/
structure IntegerType where
  signed : Bool
  bits : Nat
deriving DecidableEq, Repr

namespace IntegerType

/-- the smallest integer of the type -/
def least (t : IntegerType) : Int := if t.signed then -(1 <<< (t.bits - 1) : Nat) else 0

/-- the first integer above those of the type -/
def bound (t : IntegerType) : Int :=
  if t.signed then (1 <<< (t.bits - 1) : Nat) else (1 <<< t.bits : Nat)

/-- an integer, if it is one of the type -/
def fit? (t : IntegerType) (i : Int) : Option Int :=
  if t.least ≤ i ∧ i < t.bound then some i else none

/-- an integer fits a type if it is within its bounds, and stays what it is -/
theorem fit?_eq_some {t : IntegerType} {i j : Int} :
    t.fit? i = some j ↔ i = j ∧ t.least ≤ j ∧ j < t.bound := by
  rw [fit?]
  split
  next h =>
    constructor
    · intro e
      cases e
      exact ⟨rfl, h⟩
    · rintro ⟨rfl, -⟩
      rfl
  next h =>
    constructor
    · intro e
      cases e
    · rintro ⟨rfl, h'⟩
      exact absurd h' h

/-- the type of codes and keys -/
def code : IntegerType := ⟨true, 32⟩

/-- the type of numbers of items -/
def quantity : IntegerType := ⟨false, 32⟩

/-- the type of levels of training -/
def level : IntegerType := ⟨false, 8⟩

/-- the types of the usual widths, each with and without a sign -/
def usual : List IntegerType :=
  [8, 16, 32, 64].flatMap (fun bits => [⟨true, bits⟩, ⟨false, bits⟩])

/-- the name a numeral of the type may end in -/
def suffix (t : IntegerType) : String := (if t.signed then "i" else "u") ++ toString t.bits

end IntegerType

end Fitting
