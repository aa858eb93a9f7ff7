import Fitting.IntegerType
import Fitting.Numeral

/-!
# RON values

RON is an object notation with named records: `(hull: 587, modules: [(type_id: 439)])`.  A `Ron`
value keeps what is written and leaves to the reader of a record what it is taken for: whether a
number is an integer or real, a table a map or a record.

* `Ron.fits`         whether a value finds room in a number of levels;
* `Ron.integerOf?`   the integer a numeral stands for;
* `Ron.realOf?`      the double a numeral stands for;
* `Ron.Extensions`   what a text may leave out, or has to write.
-/

namespace Fitting

namespace Ron

/-- what a text may leave out, or has to write -/
structure Extensions where
  /-- a value that may be absent is written without `Some` -/
  implicitSome : Bool := false
  /-- the content of a wrapper is written without the wrapper -/
  unwrapNewtypes : Bool := false
  /-- a record in `Some` is written without parentheses of its own -/
  unwrapVariants : Bool := false
  /-- a record is written with its name -/
  explicitNames : Bool := false
deriving DecidableEq, Repr

namespace Extensions

/-- what one of two texts enables -/
def union (a b : Extensions) : Extensions where
  implicitSome := a.implicitSome || b.implicitSome
  unwrapNewtypes := a.unwrapNewtypes || b.unwrapNewtypes
  unwrapVariants := a.unwrapVariants || b.unwrapVariants
  explicitNames := a.explicitNames || b.explicitNames

/-- a single extension by its name -/
def ofName? : String → Option Extensions
  | "implicit_some" => some { implicitSome := true }
  | "unwrap_newtypes" => some { unwrapNewtypes := true }
  | "unwrap_variant_newtypes" => some { unwrapVariants := true }
  | "explicit_struct_names" => some { explicitNames := true }
  | _ => none

end Extensions

/-- what is written in front of parentheses -/
inductive Label where
  | missing
  | named (name : String)
  /-- nothing, where no name can be written -/
  | implied
deriving DecidableEq, Repr, Inhabited

end Ron

/-- a RON value -/
inductive Ron where
  | number (numeral : String)
  /-- a character that stands for its byte -/
  | byte (value : UInt8)
  | text (value : String)
  | bytes (values : List UInt8)
  | character (value : Char)
  | flag (value : Bool)
  /-- `None` -/
  | absent
  /-- `Some` with its content, as it is read where its type is known and where it is not; the two
  differ only with variants unwrapped, and one that is not there is refused -/
  | present (known unknown : Option Ron)
  | symbol (name : String)
  /-- a pair of parentheses with nothing at all between them -/
  | unit
  | list (items : List Ron)
  | map (entries : List (Ron × Ron))
  /-- named fields in parentheses -/
  | record (label : Ron.Label) (fields : List (String × Ron))
  /-- values in parentheses -/
  | tuple (label : Ron.Label) (items : List Ron)
deriving Inhabited

namespace Ron

/-! ### levels -/

mutual

/-- a value of which no more is known finds room in a number of levels: an option takes one for its
content, brackets take one and one more for what stands in them -/
def fits (room : Nat) : Ron → Bool
  | .present _ (some v) => 1 ≤ room && v.fits (room - 1)
  | .present _ none => false
  | .list vs => 1 ≤ room && allFit (room - 1) vs
  | .map es => 1 ≤ room && entriesFit (room - 1) es
  | .record _ fs => 1 ≤ room && fieldsFit (room - 1) fs
  | .tuple _ vs => 1 ≤ room && allFit (room - 1) vs
  | _ => true

/-- each value finds room in brackets that leave a number of levels -/
def allFit (room : Nat) : List Ron → Bool
  | [] => true
  | v :: vs => 1 ≤ room && v.fits (room - 1) && allFit room vs

/-- each key and each value finds room -/
def entriesFit (room : Nat) : List (Ron × Ron) → Bool
  | [] => true
  | (k, v) :: es => 1 ≤ room && k.fits (room - 1) && v.fits (room - 1) && entriesFit room es

/-- the value of each field finds room -/
def fieldsFit (room : Nat) : List (String × Ron) → Bool
  | [] => true
  | (_, v) :: fs => 1 ≤ room && v.fits (room - 1) && fieldsFit room fs

end

/-! ### integers -/

/-- the base of an integer, and its digits -/
def base : List Char → Nat × List Char
  | '0' :: 'b' :: cs => (2, cs)
  | '0' :: 'o' :: cs => (8, cs)
  | '0' :: 'x' :: cs => (16, cs)
  | cs => (10, cs)

/-- the number that digits stand for, to the base that is written in front of them -/
def magnitude? (cs : List Char) : Option Nat :=
  let (base, ds) := base cs
  Numeral.digits? base ds

/-- a digit to any base, or an underscore -/
def isDigitPart (c : Char) : Bool := (Numeral.hexDigit? c).isSome || c == '_'

/-- the integer of a type that a numeral stands for; the numeral may end in the name of the type -/
def integerOf? (t : IntegerType) (numeral : String) : Option Int :=
  let (negative, cs) := Numeral.sign numeral.toList
  let ds := if cs.dropWhile isDigitPart = t.suffix.toList then cs.takeWhile isDigitPart else cs
  (magnitude? ds).bind fun n => t.fit? (if negative then -(n : Int) else n)

/-! ### real numbers -/

/-- the text without underscores.  One may follow a digit, a letter `e`, another underscore, and a
sign that comes after one of these. -/
def withoutUnderscores? (allowed : Bool) : List Char → Option (List Char)
  | [] => some []
  | '_' :: cs => if allowed then withoutUnderscores? true cs else none
  | c :: cs =>
    let next := if c = '.' then false else allowed || c.isDigit || c == 'e' || c == 'E'
    (withoutUnderscores? next cs).map (c :: ·)

/-- the double that a real number without a suffix stands for -/
def real? (cs : List Char) : Option Float := do
  let (negative, cs) := Numeral.sign (← withoutUnderscores? false cs)
  let x ←
    if cs = "inf".toList then some (1.0 / 0.0)
    else if cs = "NaN".toList then some (0.0 / 0.0)
    else Numeral.real? cs
  return if negative then -x else x

/-- the double a numeral stands for; the numeral may end in one of the suffixes -/
def realOf? (suffixes : List String) (numeral : String) : Option Float :=
  ("" :: suffixes).findSome? fun suffix =>
    if numeral.endsWith suffix then real? (numeral.toList.take (numeral.length - suffix.length))
    else none

/-- the suffixes of real numbers of all widths -/
def realSuffixes : List String := ["f32", "f64"]

/-- some number is written so -/
def isNumeral (numeral : String) : Bool :=
  IntegerType.usual.any (fun t => (integerOf? t numeral).isSome)
    || (realOf? realSuffixes numeral).isSome

end Ron

end Fitting
