/-!
# Decimal numbers

The value of a string of decimal digits, and the double nearest to a decimal number.
-/

namespace Fitting.Decimal

def digitValue (c : Char) : Nat := c.toNat - '0'.toNat

/-- the value of a string of decimal digits, the empty one being zero -/
def ofDigits (digits : List Char) : Nat :=
  digits.foldl (fun n c => 10 * n + digitValue c) 0

/-- the number of decimal digits of `n`, one for zero -/
def length (n : Nat) : Nat := (Nat.toDigits 10 n).length

/-- the double nearest to `mantissa * 10 ^ exponent`.  A number of magnitude `10 ^ 310` and more is
infinite and one below `10 ^ -330` is zero, so that no huge power is ever built. -/
def toFloat (mantissa : Nat) (exponent : Int) : Float :=
  let scale := (length mantissa : Int) + exponent
  if mantissa = 0 then 0.0
  else if 310 < scale then 1.0 / 0.0
  else if scale < -330 then 0.0
  else Float.ofScientific mantissa (exponent < 0) exponent.natAbs

end Fitting.Decimal
