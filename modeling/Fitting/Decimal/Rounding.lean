import Fitting.Double

/-!
# Fixed decimal places

A quotient is rounded to the nearest integer, and a half goes to the even neighbour.  `fixedText`
writes a double with a fixed number of decimal places, rounded from its exact value.
-/

namespace Fitting.Decimal

/-- the integer nearest to `num / den`, of two the even one -/
def roundDiv (num den : Nat) : Nat :=
  let q := num / den
  let r := num % den
  if 2 * r < den then q
  else if den < 2 * r then q + 1
  else q + q % 2

/-- the rounded quotient is at most half a unit away -/
theorem roundDiv_near (num den : Nat) (h : 0 < den) :
    2 * num ≤ 2 * (den * roundDiv num den) + den ∧
      2 * (den * roundDiv num den) ≤ 2 * num + den := by
  have hn := Nat.div_add_mod num den
  have hr := Nat.mod_lt num h
  have hq : num / den % 2 = 0 ∨ num / den % 2 = 1 := by omega
  unfold roundDiv
  simp only
  split
  next => omega
  next hlow =>
    split
    next => rw [Nat.mul_add]; omega
    next hhigh =>
      rcases hq with hq | hq <;> rw [hq, Nat.mul_add] <;> omega

/-- a half goes to the even neighbour -/
theorem roundDiv_half (num den : Nat) (h : 2 * (num % den) = den) :
    roundDiv num den % 2 = 0 := by
  unfold roundDiv
  simp only
  rw [if_neg (by omega), if_neg (by omega)]
  omega

/-- a number with zeros in front of it up to a number of digits -/
def padded (digits n : Nat) : String :=
  String.ofList (List.leftpad digits '0' (Nat.toDigits 10 n))

def signed (negative : Bool) (text : String) : String := if negative then "-" ++ text else text

/-- `mantissa * 2 ^ exponent` times `10 ^ places`, rounded -/
def scaled (places mantissa : Nat) (exponent : Int) : Nat :=
  roundDiv ((mantissa * Nat.pow 10 places) <<< exponent.toNat) (1 <<< (-exponent).toNat)

/-- a double with a fixed number of decimal places, one at least; the sign of a zero is written -/
def fixedText (places : Nat) (x : Float) : String :=
  match Double.ofFloat x with
  | .nan => "NaN"
  | .infinite negative => signed negative "inf"
  | .finite negative mantissa exponent =>
    let n := scaled places mantissa exponent
    signed negative (toString (n / Nat.pow 10 places) ++ "." ++
      padded places (n % Nat.pow 10 places))

end Fitting.Decimal
