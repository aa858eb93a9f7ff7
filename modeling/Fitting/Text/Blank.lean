import Fitting.Text.Range

/-!
# White space of the whole character set

`Text.isBlank` is the property "white space" of Unicode, and `Text.trim` cuts it off both ends.
-/

namespace Fitting.Text

/-- the ranges of code points that are white space -/
def blankRanges : List (Nat × Nat) :=
  [(0x9, 0xD), (0x20, 0x20), (0x85, 0x85), (0xA0, 0xA0), (0x1680, 0x1680), (0x2000, 0x200A),
    (0x2028, 0x2029), (0x202F, 0x202F), (0x205F, 0x205F), (0x3000, 0x3000)]

/-- white space anywhere in the character set -/
def isBlank (c : Char) : Bool := isWithin blankRanges c

/-- the text without white space at its ends -/
def trim (cs : List Char) : List Char :=
  ((cs.dropWhile isBlank).reverse.dropWhile isBlank).reverse

end Fitting.Text
