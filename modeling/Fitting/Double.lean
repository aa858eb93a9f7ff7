/-!
# What a double stands for

`Double.ofFloat` takes a double apart into sign, mantissa and exponent, exactly.  `Float.truncated`
cuts a double toward zero to a 32-bit integer.
-/

namespace Fitting

inductive Double where
  | nan
  | infinite (negative : Bool)
  /-- `mantissa * 2 ^ exponent`, negated if so -/
  | finite (negative : Bool) (mantissa : Nat) (exponent : Int)
deriving DecidableEq, Repr

namespace Double

def ofFloat (x : Float) : Double :=
  let bits := x.toBits.toNat
  let negative : Bool := bits.testBit 63
  let exponent : Nat := (bits >>> 52) % 2048
  let mantissa : Nat := bits % (1 <<< 52)
  if exponent = 2047 then (if mantissa = 0 then .infinite negative else .nan)
  else if exponent = 0 then .finite negative mantissa (-1074)
  else .finite negative ((1 <<< 52) + mantissa) (exponent - 1075)

/-- `mantissa * 2 ^ exponent` without its fractional part -/
def wholePart (mantissa : Nat) (exponent : Int) : Nat :=
  if 0 ≤ exponent then mantissa <<< exponent.toNat else mantissa >>> (-exponent).toNat

/-- a 32-bit integer as near to `i` as there is one -/
def clamp (i : Int) : Int32 :=
  if i < Int32.minValue.toInt then Int32.minValue
  else if Int32.maxValue.toInt < i then Int32.maxValue
  else Int32.ofInt i

/-- cut toward zero; beyond 32 bits the nearest bound, and zero for what is no number -/
def truncated : Double → Int32
  | .nan => 0
  | .infinite negative => if negative then Int32.minValue else Int32.maxValue
  | .finite negative mantissa exponent =>
    let n : Int := wholePart mantissa exponent
    clamp (if negative then -n else n)

end Double

end Fitting
