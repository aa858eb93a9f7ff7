import Fitting.Double
import Fitting.Decimal.Basic

/-!
# The shortest decimal of a double

A decimal reads back as a double if it lies in the interval of the numbers that round to it.
`shortest` looks for a decimal with as few digits as possible in that interval, and of these takes
the one nearest to the double.

The double is `m * 2 ^ e`.  All numbers are compared as multiples of a common unit: a point `d` of
the grid of step `10 ^ k` as `d * gridUnit e k`, and a multiple `x` of `2 ^ (e - 2)`, a quarter of
the last place of the double, as `x * quarterUnit e k`.
-/

namespace Fitting.Decimal

/-- what a step of the decimal grid counts for -/
def gridUnit (e k : Int) : Nat := Nat.pow 10 k.toNat <<< (2 - e).toNat

/-- what a quarter of the last binary place counts for -/
def quarterUnit (e k : Int) : Nat := Nat.pow 10 (-k).toNat <<< (e - 2).toNat

/-- the lower end of the interval in quarters of the last place: half a place below the double, and
only a quarter where the double below lies closer -/
def lowerEnd (m : Nat) (e : Int) : Nat :=
  if m = 1 <<< 52 ∧ -1074 < e then 4 * m - 1 else 4 * m - 2

/-- the upper end of the interval -/
def upperEnd (m : Nat) : Nat := 4 * m + 2

/-- a point of the grid lies in the interval; the ends do for an even mantissa -/
def readsBack (m : Nat) (e k : Int) (d : Nat) : Bool :=
  let point := d * gridUnit e k
  let low := lowerEnd m e * quarterUnit e k
  let high := upperEnd m * quarterUnit e k
  if m % 2 = 0 then low ≤ point && point ≤ high else low < point && point < high

/-- the point of the grid at or below the double -/
def gridBelow (m : Nat) (e k : Int) : Nat := 4 * m * quarterUnit e k / gridUnit e k

/-- the point of the grid nearest to the double, of two the even one -/
def gridNearest (m : Nat) (e k : Int) : Nat :=
  let d := gridBelow m e k
  let value := 4 * m * quarterUnit e k
  let below := value - d * gridUnit e k
  let above := (d + 1) * gridUnit e k - value
  if below < above then d
  else if above < below then d + 1
  else d + d % 2

/-- the point of the grid nearest to the double, of those that read back -/
def onGrid? (m : Nat) (e k : Int) : Option Nat :=
  let d := gridBelow m e k
  match readsBack m e k d, readsBack m e k (d + 1) with
  | true, true => some (gridNearest m e k)
  | true, false => some d
  | false, true => some (d + 1)
  | false, false => none

/-- the decimal exponent of the first digit of a positive double -/
def magnitude (m : Nat) (e : Int) : Int :=
  if 0 ≤ e then (length (m <<< e.toNat) : Int) - 1
  else (length ((m * Nat.pow 10 350) >>> (-e).toNat) : Int) - 351

/-- the number without the zeros at its end, and their number added to an exponent; `fuel` bounds
that number -/
def stripZeros : (fuel : Nat) → Nat → Int → Nat × Int
  | 0, d, k => (d, k)
  | fuel + 1, d, k => if d % 10 = 0 then stripZeros fuel (d / 10) (k + 1) else (d, k)

/-- the grid point with the fewest digits that reads back, and the exponent of the grid.  Seventeen
digits are enough for every double. -/
def shortestPoint (m : Nat) (e : Int) : Nat × Int :=
  let top := magnitude m e
  let found := (List.range 17).findSome? fun (i : Nat) =>
    (onGrid? m e (top - i)).map (fun d => (d, top - (i : Int)))
  found.getD (gridNearest m e (top - 16), top - 16)

/-- the shortest decimal `d * 10 ^ k` of the double `m * 2 ^ e`, which is not zero -/
def shortest (m : Nat) (e : Int) : Nat × Int :=
  let (d, k) := shortestPoint m e
  stripZeros 17 d k

end Fitting.Decimal
