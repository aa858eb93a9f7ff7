import Fitting.Hash.Sha256
import Fitting.Report.Basic

/-!
# The digest of a report

The digest is the SHA-256 hash of a record of all resolved values.  The record of an item is its
type, the number of its attributes, and each attribute with the bit pattern of its value, all
little-endian; the items follow one another in the order of the fit.

A record is made of patterns and not of doubles: it has all 64 bits of each value, those of NaNs,
too.
-/

namespace Fitting

/-- four bytes -/
def keyRecord {t : Table} (k : Key t) : List UInt8 := Bytes.littleEndian 4 k.value.toUInt32.toNat

/-- four bytes for the attribute and eight for the pattern of its value -/
def valueRecord (row : AttributeId × UInt64) : List UInt8 :=
  keyRecord row.1 ++ Bytes.littleEndian 8 row.2.toNat

/-- the type, the number of attributes in eight bytes, the attributes in ascending order -/
def ResolvedItem.record (r : ResolvedItem UInt64) : List UInt8 :=
  keyRecord r.type ++ Bytes.littleEndian 8 r.attributes.size ++
    r.attributes.toList.flatMap valueRecord

namespace Report

/-- what the digest is taken of -/
def record (r : Report UInt64) : List UInt8 := r.items.flatMap ResolvedItem.record

/-- the thirty-two bytes of the digest of a report whose values are patterns -/
def patternDigest (r : Report UInt64) : List UInt8 := Sha256.hash r.record

/-- the bit patterns of the values; NaN has one as a double -/
def patterns (r : Report) : Report UInt64 := r.map Float.toBits

def digest (r : Report) : List UInt8 := r.patterns.patternDigest

/-- the digest in hexadecimal -/
def digestText (r : Report) : String := Bytes.toHex r.digest

end Report

end Fitting
