import Fitting.Numeral
import Fitting.Json.Magnitude
import Fitting.Json.Value

/-!
# Reading JSON text

`Json.parse?` reads a text that holds exactly one JSON value.  Every reader takes the characters
that are left and gives what it read with the characters after it, or nothing.

* blanks are the space, the tab, the line feed and the carriage return;
* a number too large for a double, half of a surrogate pair and a bare control character are
  refused;
* arrays and objects are read at most `maxDepth` deep, which is also what the recursion descends on.
-/

namespace Fitting.Json

/-- reads a value off the front of the text -/
abbrev Reader (α : Type) := List Char → Option (α × List Char)

/-- how deep arrays and objects may be nested -/
def maxDepth : Nat := 127

def isBlank (c : Char) : Bool := c == ' ' || c == '\t' || c == '\n' || c == '\r'

def skipBlanks (cs : List Char) : List Char := cs.dropWhile isBlank

/-! ### numbers -/

/-- the digits at the front, at least one -/
def digits : Reader (List Char) := fun cs =>
  match cs.takeWhile Char.isDigit with
  | [] => none
  | ds => some (ds, cs.dropWhile Char.isDigit)

/-- a whole number: a single zero, or digits that start with another one -/
def whole : Reader (List Char) := fun cs =>
  match digits cs with
  | some ('0' :: _ :: _, _) => none
  | read => read

/-- a point and digits, or nothing -/
def fraction : Reader (Option (List Char))
  | '.' :: cs => (digits cs).map (fun (ds, rest) => (some ds, rest))
  | cs => some (none, cs)

/-- an exponent, or nothing -/
def exponent : Reader (Option Int) := fun cs =>
  match cs with
  | 'e' :: rest | 'E' :: rest =>
    let (negative, rest) := Numeral.sign rest
    (digits rest).map (fun (ds, rest) =>
      let e : Int := Decimal.ofDigits ds
      (some (if negative then -e else e), rest))
  | _ => some (none, cs)

/-- the value of a number: an integer within 64 bits, else a double; none beyond the doubles -/
def numberValue? (negative : Bool) (whole : List Char) (fraction : Option (List Char))
    (exponent : Option Int) : Option Json :=
  let n := Decimal.ofDigits whole
  if fraction.isNone ∧ exponent.isNone ∧ !negative ∧ n < wordBound then some (.integer n)
  else if fraction.isNone ∧ exponent.isNone ∧ negative ∧ 0 < n ∧ 2 * n ≤ wordBound
    then some (.integer (-n))
  else
    (magnitude? whole (fraction.getD []) (exponent.getD 0)).map fun x =>
      .decimal (if negative then -x else x)

/-- a number without its sign -/
def unsigned (negative : Bool) : Reader Json := fun cs => do
  let (w, cs) ← whole cs
  let (f, cs) ← fraction cs
  let (e, cs) ← exponent cs
  let v ← numberValue? negative w f e
  return (v, cs)

/-! ### strings -/

/-- the character of a surrogate pair -/
def charOfPair? (high low : Nat) : Option Char :=
  if 0xD800 ≤ high ∧ high ≤ 0xDBFF ∧ 0xDC00 ≤ low ∧ low ≤ 0xDFFF then
    some (Char.ofNat (0x10000 + (high - 0xD800) * 0x400 + (low - 0xDC00)))
  else none

/-- the character a one-letter escape stands for -/
def charOfEscape? : Char → Option Char
  | '"' => some '"'
  | '\\' => some '\\'
  | '/' => some '/'
  | 'b' => some '\x08'
  | 'f' => some '\x0c'
  | 'n' => some '\n'
  | 'r' => some '\r'
  | 't' => some '\t'
  | _ => none

/-- the characters of a string up to its closing quote; `done` holds those already read, the last
one first -/
def stringBody (done : List Char) : Reader (List Char)
  | [] => none
  | '"' :: cs => some (done.reverse, cs)
  | '\\' :: 'u' :: a :: b :: c :: d :: cs =>
    match Numeral.hex? [a, b, c, d] with
    | none => none
    | some u =>
      match Numeral.charOfCode? u with
      | some ch => stringBody (ch :: done) cs
      | none =>
        match cs with
        | '\\' :: 'u' :: e :: f :: g :: h :: cs =>
          match (Numeral.hex? [e, f, g, h]).bind (charOfPair? u) with
          | some ch => stringBody (ch :: done) cs
          | none => none
        | _ => none
  | '\\' :: c :: cs =>
    match charOfEscape? c with
    | some ch => stringBody (ch :: done) cs
    | none => none
  | c :: cs => if c.toNat < 0x20 then none else stringBody (c :: done) cs

/-- a string -/
def string : Reader String
  | '"' :: cs => (stringBody [] cs).map (fun (body, rest) => (String.ofList body, rest))
  | _ => none

/-! ### arrays and objects -/

/-- items divided by commas, up to the closing character.  `done` holds those already read, the last
one first; `ruler` bounds their number and is not looked into. -/
def items {α : Type} (item : Reader α) (close : Char) :
    (ruler : List Char) → (done : List α) → Reader (List α)
  | [], _, _ => none
  | _ :: ruler, done, cs =>
    match item cs with
    | none => none
    | some (a, rest) =>
      match skipBlanks rest with
      | [] => none
      | c :: more =>
        if c = close then some ((a :: done).reverse, more)
        else if c = ',' then items item close ruler (a :: done) more
        else none

/-- what stands between brackets: nothing but blanks, or items divided by commas.  Every item takes
a character at least, so there are no more items than characters. -/
def bracketed {α : Type} (item : Reader α) (close : Char) : Reader (List α) := fun cs =>
  match skipBlanks cs with
  | [] => none
  | c :: rest => if c = close then some ([], rest) else items item close cs [] cs

/-- a member of an object: a name, a colon, a value -/
def member (value : Reader Json) : Reader (String × Json) := fun cs => do
  let (name, cs) ← string (skipBlanks cs)
  match skipBlanks cs with
  | ':' :: cs =>
    let (v, cs) ← value cs
    return ((name, v), cs)
  | _ => none

/-- a value, given how to read the values inside it; without that arrays and objects are refused -/
def valueWith (inner : Option (Reader Json)) : Reader Json := fun cs =>
  match skipBlanks cs with
  | [] => none
  | 'n' :: 'u' :: 'l' :: 'l' :: rest => some (.null, rest)
  | 't' :: 'r' :: 'u' :: 'e' :: rest => some (.bool true, rest)
  | 'f' :: 'a' :: 'l' :: 's' :: 'e' :: rest => some (.bool false, rest)
  | '"' :: rest => (string ('"' :: rest)).map (fun (s, rest) => (.text s, rest))
  | '[' :: rest => do
    let (vs, rest) ← bracketed (← inner) ']' rest
    return (.array vs, rest)
  | '{' :: rest => do
    let (ms, rest) ← bracketed (member (← inner)) '}' rest
    return (.object ms, rest)
  | '-' :: rest => unsigned true rest
  | c :: rest => unsigned false (c :: rest)

/-- a value with arrays and objects at most `depth` deep -/
def value : Nat → Reader Json
  | 0 => valueWith none
  | depth + 1 => valueWith (some (value depth))

/-- the value of a text that holds exactly one -/
def parse? (text : String) : Option Json :=
  match value maxDepth text.toList with
  | some (v, rest) => if (skipBlanks rest).isEmpty then some v else none
  | none => none

end Fitting.Json
