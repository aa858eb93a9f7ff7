import Fitting.Decimal.Rounding
import Fitting.Decimal.Shortest

/-!
# Doubles in JSON text

A double is written in its shortest decimal, always with a point or an exponent, so that it is told
apart from an integer.  It is written out for magnitudes from `10 ^ -5` up to `10 ^ 16`, and with an
exponent elsewhere.  JSON has no text for what is no finite number: that becomes null.
-/

namespace Fitting.Json

def zeros (n : Nat) : String := String.ofList (List.replicate n '0')

/-- an exponent with its sign -/
def exponentText (e : Int) : String :=
  "e" ++ (if e < 0 then "-" else "+") ++ toString e.natAbs

/-- the decimal `d * 10 ^ k`; `point` is the place of the decimal point among its digits -/
def decimalText (d : Nat) (k : Int) : String :=
  let ds := Nat.toDigits 10 d
  let point := (ds.length : Int) + k
  if 0 ≤ k ∧ point ≤ 16 then String.ofList ds ++ zeros k.toNat ++ ".0"
  else if 0 < point ∧ point ≤ 16 then
    String.ofList (ds.take point.toNat) ++ "." ++ String.ofList (ds.drop point.toNat)
  else if -5 < point ∧ point ≤ 0 then "0." ++ zeros (-point).toNat ++ String.ofList ds
  else
    match ds with
    | [c] => String.ofList [c] ++ exponentText (point - 1)
    | _ => String.ofList (ds.take 1) ++ "." ++ String.ofList (ds.drop 1) ++ exponentText (point - 1)

/-- a double -/
def numberText (x : Float) : String :=
  match Double.ofFloat x with
  | .nan | .infinite _ => "null"
  | .finite negative 0 _ => Decimal.signed negative "0.0"
  | .finite negative mantissa exponent =>
    let (d, k) := Decimal.shortest mantissa exponent
    Decimal.signed negative (decimalText d k)

end Fitting.Json
