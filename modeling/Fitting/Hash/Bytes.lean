/-!
# Numbers and texts as bytes

Little-endian and big-endian bytes of a number, and bytes as hexadecimal text.
-/

namespace Fitting.Bytes

/-- the `count` low bytes of `n`, the lowest first -/
def littleEndian (count n : Nat) : List UInt8 :=
  (List.range count).map (fun i => (n >>> (8 * i)).toUInt8)

/-- the `count` low bytes of `n`, the lowest last -/
def bigEndian (count n : Nat) : List UInt8 := (littleEndian count n).reverse

/-- a byte as two hexadecimal digits -/
def hexDigits (b : UInt8) : List Char :=
  [Nat.digitChar (b.toNat / 16), Nat.digitChar (b.toNat % 16)]

/-- bytes as hexadecimal text in lower case -/
def toHex (bytes : List UInt8) : String := String.ofList (bytes.flatMap hexDigits)

end Fitting.Bytes
