import Fitting.Decimal.Basic

/-!
# Numerals in text formats

What the number notations of several text formats have in common: hexadecimal digits, signs, digits
to a base with underscores between them, and real numbers with a point and an exponent.
-/

namespace Fitting.Numeral

/-- the value of a hexadecimal digit -/
def hexDigit? (c : Char) : Option Nat :=
  if c.isDigit then some (c.toNat - '0'.toNat)
  else if 'a' ≤ c ∧ c ≤ 'f' then some (c.toNat - 'a'.toNat + 10)
  else if 'A' ≤ c ∧ c ≤ 'F' then some (c.toNat - 'A'.toNat + 10)
  else none

/-- the value of a digit to a base up to sixteen -/
def digit? (base : Nat) (c : Char) : Option Nat := (hexDigit? c).filter (· < base)

/-- a sign in front, if there is one; true for a minus -/
def sign : List Char → Bool × List Char
  | '+' :: cs => (false, cs)
  | '-' :: cs => (true, cs)
  | cs => (false, cs)

/-- the number that digits stand for; underscores between them do not count, but none comes first -/
def digits? (base : Nat) (cs : List Char) : Option Nat :=
  match cs with
  | [] | '_' :: _ => none
  | _ => (cs.filter (· ≠ '_')).foldlM (fun n c => (digit? base c).map (base * n + ·)) 0

/-- the number that hexadecimal digits stand for, zero for none -/
def hex? (cs : List Char) : Option Nat := cs.foldlM (fun n c => (hexDigit? c).map (16 * n + ·)) 0

/-- the character of a code point, which is no half of a surrogate pair -/
def charOfCode? (code : Nat) : Option Char :=
  if code < 0xD800 ∨ (0xDFFF < code ∧ code < 0x110000) then some (Char.ofNat code) else none

/-- the exponent at the end of a real number: nothing, or `e`, a sign and digits -/
def exponent? : List Char → Option Int
  | [] => some 0
  | c :: cs =>
    if c = 'e' ∨ c = 'E' then
      let (negative, ds) := sign cs
      if ds.isEmpty ∨ !ds.all Char.isDigit then none
      else
        let e : Int := Decimal.ofDigits ds
        some (if negative then -e else e)
    else none

/-- the double nearest to a real number without sign: digits around a point, at least one, and an
exponent -/
def real? (cs : List Char) : Option Float := do
  let whole := cs.takeWhile Char.isDigit
  let rest := cs.dropWhile Char.isDigit
  let (fraction, rest) := match rest with
    | '.' :: rest => (rest.takeWhile Char.isDigit, rest.dropWhile Char.isDigit)
    | _ => ([], rest)
  let e ← exponent? rest
  if whole.isEmpty ∧ fraction.isEmpty then none
  else some (Decimal.toFloat (Decimal.ofDigits (whole ++ fraction)) (e - fraction.length))

end Fitting.Numeral
