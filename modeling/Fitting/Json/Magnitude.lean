import Fitting.Decimal.Basic

/-!
# The value of a JSON number

The leading digits of a number, as many as fit into 64 bits, make its significand; the digits after
them count by their places only.  The value is the significand times or divided by a power of ten,
each of the two rounded to a double first.  So it is the nearest double for a short number, may lie
a few places off for a long one, and is none at all beyond the doubles.

* `significand`   the leading digits as a number, and the digits that are left;
* `scaled?`       a double times a power of ten;
* `magnitude?`    the value of the digits around the point, with an exponent.
-/

namespace Fitting.Json

/-- the first number beyond 64 bits -/
def wordBound : Nat := 1 <<< 64

/-- the significand after some more digits, and the digits it has no room for -/
def significand (n : Nat) : List Char → Nat × List Char
  | [] => (n, [])
  | d :: ds =>
    if 10 * n + Decimal.digitValue d < wordBound then significand (10 * n + Decimal.digitValue d) ds
    else (n, d :: ds)

/-- the significand fits a machine word -/
theorem significand_lt {n : Nat} (h : n < wordBound) (ds : List Char) :
    (significand n ds).1 < wordBound := by
  induction ds generalizing n with
  | nil => exact h
  | cons d ds ih =>
    rw [significand]
    split
    next h' => exact ih h'
    next => exact h

/-- the largest exponent whose power of ten is a double -/
def maxPower : Nat := 308

/-- the double nearest to a power of ten -/
def power (e : Nat) : Float := Float.ofScientific 1 false e

/-- a double divided by a power of ten, in several steps if there is no such double -/
def dividedByPower (x : Float) (e : Nat) : Float :=
  if e ≤ maxPower then x / power e
  else if x == 0.0 then x
  else dividedByPower (x / power maxPower) (e - maxPower)
termination_by e
decreasing_by
  simp only [maxPower] at *
  omega

/-- a double times a power of ten; none beyond the doubles -/
def timesPower? (x : Float) (e : Nat) : Option Float :=
  if e ≤ maxPower then
    let y := x * power e
    if y.isInf then none else some y
  else if x == 0.0 then some x
  else none

/-- a double times a power of ten -/
def scaled? (x : Float) : Int → Option Float
  | .ofNat e => timesPower? x e
  | .negSucc e => some (dividedByPower x (e + 1))

/-- the value of digits before and after the point, with an exponent -/
def magnitude? (whole fraction : List Char) (exponent : Int) : Option Float :=
  let (n, placesLeft) := significand 0 whole
  let (m, digitsLeft) := significand n fraction
  let placesTaken := fraction.length - digitsLeft.length
  scaled? (Float.ofNat m) (exponent + placesLeft.length - placesTaken)

end Fitting.Json
