import Fitting.IntegerType
import Fitting.Numeral
import Fitting.Toml.Moment
import Fitting.Toml.Tables

/-!
# Reading TOML text

`Toml.parse?` reads a TOML text as a JSON object; dates and times stay the texts they are written
as.  Every reader takes the characters that are left and gives what it read with the characters
after it, or nothing.

* `key`, `value`     the two sides of a statement;
* `statement`        a statement, done to the tables read so far;
* `parse?`           all statements of a text, each on lines of its own.
-/

namespace Fitting.Toml

/-- reads a value off the front of the text -/
abbrev Reader (α : Type) := List Char → Option (α × List Char)

/-- how deep arrays and inline tables may be nested, and how many tables a key may go through -/
def maxDepth : Nat := 80

/-! ### blanks, comments and line ends -/

def skipBlanks (cs : List Char) : List Char := cs.dropWhile (fun c => c == ' ' || c == '\t')

/-- a control character, which stands in no comment and no string; tabs may -/
def isControl (c : Char) : Bool := (c.toNat < 0x20 && c != '\t') || c.toNat = 0x7F

/-- the text after blanks and a comment, from its line end on -/
def skipComment (cs : List Char) : List Char :=
  match skipBlanks cs with
  | '#' :: rest => rest.dropWhile (fun c => !isControl c)
  | rest => rest

def lineEnd? : List Char → Option (List Char)
  | '\n' :: cs => some cs
  | '\r' :: '\n' :: cs => some cs
  | _ => none

/-- the text after blanks, comments and line ends; `ruler` bounds the number of lines -/
def skipLines : (ruler : List Char) → List Char → List Char
  | [], cs => skipComment cs
  | _ :: ruler, cs =>
    match lineEnd? (skipComment cs) with
    | some rest => skipLines ruler rest
    | none => skipComment cs

/-! ### strings -/

/-- the character a one-letter escape stands for -/
def charOfEscape? : Char → Option Char
  | '"' => some '"'
  | '\\' => some '\\'
  | 'b' => some '\x08'
  | 'e' => some '\x1b'
  | 'f' => some '\x0c'
  | 'n' => some '\n'
  | 'r' => some '\r'
  | 't' => some '\t'
  | _ => none

/-- the character of a code point in `count` hexadecimal digits -/
def codePoint (count : Nat) : Reader Char := fun cs => do
  let ds := cs.take count
  if ds.length < count then none
  else return (← Numeral.charOfCode? (← Numeral.hex? ds), cs.drop count)

def escape : Reader Char
  | 'x' :: cs => codePoint 2 cs
  | 'u' :: cs => codePoint 4 cs
  | 'U' :: cs => codePoint 8 cs
  | c :: cs => (charOfEscape? c).map (·, cs)
  | [] => none

/-- the characters of a string on one line, up to its quote; only in quotes `"` are there escapes -/
def lineBody (quote : Char) : (ruler : List Char) → (done : List Char) → Reader (List Char)
  | _, _, [] => none
  | [], _, _ => none
  | _ :: ruler, done, c :: cs =>
    if c = quote then some (done.reverse, cs)
    else if c = '\\' ∧ quote = '"' then
      match escape cs with
      | some (e, rest) => lineBody quote ruler (e :: done) rest
      | none => none
    else if isControl c then none
    else lineBody quote ruler (c :: done) cs

/-- the text after blanks and line ends; `ruler` bounds the number of lines -/
def skipBlankLines : (ruler : List Char) → List Char → List Char
  | [], cs => skipBlanks cs
  | _ :: ruler, cs =>
    match lineEnd? (skipBlanks cs) with
    | some rest => skipBlankLines ruler rest
    | none => skipBlanks cs

/-- a backslash at the end of a line takes all blanks and line ends after it away -/
def lineJoin? (cs : List Char) : Option (List Char) :=
  (lineEnd? (skipBlanks cs)).map (fun rest => skipBlankLines rest rest)

/-- the characters of a string of several lines, up to three quotes; the last three of at most five
close it -/
def blockBody (quote : Char) : (ruler : List Char) → (done : List Char) → Reader (List Char)
  | _, _, [] => none
  | [], _, _ => none
  | _ :: ruler, done, c :: cs =>
    if c = quote ∧ [quote, quote].isPrefixOf cs then
      let quotes := (cs.drop 2).takeWhile (· = quote)
      if quotes.length ≤ 2 then some (done.reverse ++ quotes, cs.drop (2 + quotes.length)) else none
    else if c = '\\' ∧ quote = '"' then
      match lineJoin? cs with
      | some rest => blockBody quote ruler done rest
      | none =>
        match escape cs with
        | some (e, rest) => blockBody quote ruler (e :: done) rest
        | none => none
    else
      match lineEnd? (c :: cs) with
      | some rest => blockBody quote ruler ('\n' :: done) rest
      | none => if isControl c then none else blockBody quote ruler (c :: done) cs

/-- a string of several lines after its three quotes; a line end right there does not count -/
def block (quote : Char) : Reader String := fun cs =>
  let cs := (lineEnd? cs).getD cs
  (blockBody quote cs [] cs).map (fun (body, rest) => (String.ofList body, rest))

def line (quote : Char) : Reader String := fun cs =>
  (lineBody quote cs [] cs).map (fun (body, rest) => (String.ofList body, rest))

def string : Reader String
  | '"' :: '"' :: '"' :: cs => block '"' cs
  | '\'' :: '\'' :: '\'' :: cs => block '\'' cs
  | '"' :: cs => line '"' cs
  | '\'' :: cs => line '\'' cs
  | _ => none

/-! ### keys -/

def isKeyPart (c : Char) : Bool := c.isAlphanum || c == '_' || c == '-'

def keyPart : Reader String
  | '"' :: cs => line '"' cs
  | '\'' :: cs => line '\'' cs
  | cs =>
    match cs.takeWhile isKeyPart with
    | [] => none
    | part => some (String.ofList part, cs.dropWhile isKeyPart)

/-- the parts of a dotted key, the last one first; `ruler` bounds their number -/
def keyParts : (ruler : List Char) → (done : List String) → Reader (List String)
  | [], _, _ => none
  | _ :: ruler, done, cs => do
    let (part, rest) ← keyPart (skipBlanks cs)
    match skipBlanks rest with
    | '.' :: more => keyParts ruler (part :: done) more
    | rest => some (part :: done, rest)

/-- a key as the path to its table and its name there -/
def key : Reader (List String × String) := fun cs =>
  match keyParts cs [] cs with
  | some (last :: path, rest) =>
    if path.length < maxDepth then some ((path.reverse, last), rest) else none
  | _ => none

/-! ### numbers -/

def isNumeralPart (c : Char) : Bool :=
  c.isAlphanum || c == '_' || c == '+' || c == '-' || c == '.' || c == ':'

/-- every underscore has a digit before it and after it -/
def underscoresStand (isDigit : Char → Bool) : (before : Bool) → List Char → Bool
  | _, [] => true
  | before, '_' :: c :: cs => before && isDigit c && underscoresStand isDigit false (c :: cs)
  | _, ['_'] => false
  | _, c :: cs => underscoresStand isDigit (isDigit c) cs

/-- the value of digits to a base, at least one -/
def digits? (base : Nat) (cs : List Char) : Option Nat :=
  let isDigit (c : Char) : Bool := (Numeral.digit? base c).isSome
  if underscoresStand isDigit false cs then Numeral.digits? base cs else none

/-- digits to the base ten without a zero in front -/
def decimal? (cs : List Char) : Option Nat :=
  match cs with
  | '0' :: _ :: _ => none
  | _ => digits? 10 cs

/-- an integer without regard to its size: signed decimal, or unsigned to another base -/
def whole? (cs : List Char) : Option Int :=
  match cs with
  | '0' :: 'x' :: ds => (digits? 16 ds).map Int.ofNat
  | '0' :: 'o' :: ds => (digits? 8 ds).map Int.ofNat
  | '0' :: 'b' :: ds => (digits? 2 ds).map Int.ofNat
  | _ =>
    let (negative, ds) := Numeral.sign cs
    (decimal? ds).map fun n => if negative then -(n : Int) else n

/-- an integer of at most 128 bits -/
def integer? (cs : List Char) : Option Int :=
  (whole? cs).bind fun i =>
    if IntegerType.least ⟨true, 128⟩ ≤ i ∧ i < IntegerType.bound ⟨false, 128⟩ then some i else none

/-- a real number without its sign: a whole number with a fraction, an exponent or both, and not
beyond the doubles -/
def unsignedReal? (cs : List Char) : Option Float := do
  let isExponent (c : Char) : Bool := c == 'e' || c == 'E'
  let mantissa := cs.takeWhile (fun c => !isExponent c)
  let _ ← decimal? (mantissa.takeWhile (· ≠ '.'))
  match mantissa.dropWhile (· ≠ '.'), cs.dropWhile (fun c => !isExponent c) with
  | [], [] => none
  | fraction, exponent =>
    let fractionStands := fraction.isEmpty || (digits? 10 (fraction.drop 1)).isSome
    let exponentStands := exponent.isEmpty || (digits? 10 (Numeral.sign (exponent.drop 1)).2).isSome
    if fractionStands ∧ exponentStands then
      (Numeral.real? (cs.filter (· ≠ '_'))).filter (fun x => !x.isInf)
    else none

def real? (cs : List Char) : Option Float :=
  let (negative, ds) := Numeral.sign cs
  let x? :=
    if ds = "inf".toList then some (1.0 / 0.0)
    else if ds = "nan".toList then some (0.0 / 0.0)
    else unsignedReal? ds
  x?.map fun x => if negative then -x else x

/-- a truth value, a number or a moment -/
def plain? (cs : List Char) : Option Json :=
  if cs = "true".toList then some (.bool true)
  else if cs = "false".toList then some (.bool false)
  else if isMoment cs then some (.text (String.ofList cs))
  else (integer? cs).map Json.integer <|> (real? cs).map Json.decimal

/-- the characters of a truth value, a number or a moment; after a date a space and a digit go on
with a time -/
def plainText (cs : List Char) : List Char × List Char :=
  let word := cs.takeWhile isNumeralPart
  match date? word, cs.dropWhile isNumeralPart with
  | some [], ' ' :: c :: rest =>
    if c.isDigit then
      (word ++ ' ' :: (c :: rest).takeWhile isNumeralPart, (c :: rest).dropWhile isNumeralPart)
    else (word, ' ' :: c :: rest)
  | _, rest => (word, rest)

/-! ### values -/

/-- the values of an array, with line ends and comments anywhere between them; `done` holds those
already read, the last one first, and `ruler` bounds their number -/
def arrayItems (value : Reader Json) : (ruler : List Char) → (done : List Json) → Reader (List Json)
  | [], _, _ => none
  | _ :: ruler, done, cs =>
    match skipLines cs cs with
    | ']' :: rest => some (done.reverse, rest)
    | rest =>
      match value rest with
      | none => none
      | some (v, rest) =>
        match skipLines rest rest with
        | ']' :: rest => some ((v :: done).reverse, rest)
        | ',' :: rest => arrayItems value ruler (v :: done) rest
        | _ => none

/-- a statement `key = value`, done in a table; `gap` skips what may stand around the equals sign
besides blanks -/
def assignment (gap : List Char → List Char) (value : Reader Json) (table : List String)
    (ms : Members) : Reader Members := fun cs => do
  let ((path, name), rest) ← key cs
  match gap rest with
  | '=' :: rest =>
    let (v, rest) ← value (gap (skipBlanks rest))
    return (← ms.assign? table path name v, rest)
  | _ => none

/-- the statements of an inline table, with line ends and comments anywhere around keys and values;
`ruler` bounds their number -/
def inlineItems (value : Reader Json) : (ruler : List Char) → Members → Reader Members
  | [], _, _ => none
  | _ :: ruler, ms, cs =>
    match skipLines cs cs with
    | '\x7d' :: rest => some (ms, rest)
    | rest =>
      match assignment (fun cs => skipLines cs cs) value [] ms rest with
      | none => none
      | some (ms, rest) =>
        match skipLines rest rest with
        | '\x7d' :: rest => some (ms, rest)
        | ',' :: rest => inlineItems value ruler ms rest
        | _ => none

/-- a value, given how to read the values inside it; without that brackets are refused -/
def valueWith (inner : Option (Reader Json)) : Reader Json := fun cs =>
  match cs with
  | '[' :: rest => do
    let (vs, rest) ← arrayItems (← inner) rest [] rest
    return (.array vs, rest)
  | '\x7b' :: rest => do
    let (ms, rest) ← inlineItems (← inner) rest [] rest
    return (.object ms.values, rest)
  | c :: rest =>
    if c = '"' ∨ c = '\'' then (string (c :: rest)).map (fun (s, rest) => (.text s, rest))
    else
      let (word, rest) := plainText cs
      (plain? word).map (·, rest)
  | [] => none

def value : Nat → Reader Json
  | 0 => valueWith none
  | depth + 1 => valueWith (some (value depth))

/-! ### statements -/

/-- the tables read so far, and the one that statements now go to -/
structure State where
  members : Members
  table : List String

/-- a statement: the header of a list of tables or of a table, or an assignment -/
def statement (s : State) : Reader State
  | '[' :: '[' :: cs => do
    let ((path, name), rest) ← key cs
    match rest with
    | ']' :: ']' :: rest => return (⟨← s.members.append? path name, path ++ [name]⟩, rest)
    | _ => none
  | '[' :: cs => do
    let ((path, name), rest) ← key cs
    match rest with
    | ']' :: rest => return (⟨← s.members.header? path name, path ++ [name]⟩, rest)
    | _ => none
  | cs => (assignment skipBlanks (value maxDepth) s.table s.members cs).map fun (ms, rest) =>
      (⟨ms, s.table⟩, rest)

/-- all statements of a text; `ruler` bounds their number -/
def statements : (ruler : List Char) → State → List Char → Option Members
  | ruler, s, cs =>
    match skipLines cs cs, ruler with
    | [], _ => some s.members
    | _, [] => none
    | rest, _ :: ruler =>
      match statement s rest with
      | none => none
      | some (s, rest) =>
        match skipComment rest with
        | [] => some s.members
        | rest =>
          match lineEnd? rest with
          | some rest => statements ruler s rest
          | none => none

/-- the text as a JSON object; a byte order mark in front does not count -/
def parse? (text : String) : Option Json :=
  let cs := match text.toList with
    | '\ufeff' :: cs => cs
    | cs => cs
  (statements cs ⟨[], []⟩ cs).map (fun ms => .object ms.values)

end Fitting.Toml
