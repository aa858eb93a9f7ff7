import Fitting.Ron.Value
import Fitting.Text.Identifier

/-!
# The words of RON

What stands between the brackets of a RON text.  Every reader takes the characters that are left and
gives what it read with the characters after it, or nothing.

* `skip`      blanks and comments, which run from `//` to the end of the line, or from `/*` to `*/`,
              these nested;
* `name`      an identifier, made of identifier characters; one that is written after `r#` may hold
              `.`, `+` and `-`, too;
* `numeral`   a number as it is written;
* the bodies of texts, characters and bytes, which are read after their opening quote.
-/

namespace Fitting.Ron

/-- reads a value off the front of the text -/
abbrev Reader (α : Type) := List Char → Option (α × List Char)

/-! ### blanks and comments -/

def isBlank (c : Char) : Bool :=
  [' ', '\t', '\n', '\r', '\x0b', '\x0c', '\u0085', '\u200e', '\u200f', '\u2028',
    '\u2029'].contains c

/-- what is being skipped -/
inductive Gap where
  | blanks
  | line
  /-- a comment inside `depth` others -/
  | comment (depth : Nat)

/-- the text after the gap; none if a comment does not end or a slash starts none -/
def skipGap : Gap → List Char → Option (List Char)
  | .blanks, [] => some []
  | .blanks, '/' :: '/' :: cs => skipGap .line cs
  | .blanks, '/' :: '*' :: cs => skipGap (.comment 0) cs
  | .blanks, '/' :: _ => none
  | .blanks, c :: cs => if isBlank c then skipGap .blanks cs else some (c :: cs)
  | .line, [] => some []
  | .line, c :: cs => skipGap (if c = '\n' then .blanks else .line) cs
  | .comment _, [] => none
  | .comment 0, '*' :: '/' :: cs => skipGap .blanks cs
  | .comment (depth + 1), '*' :: '/' :: cs => skipGap (.comment depth) cs
  | .comment depth, '/' :: '*' :: cs => skipGap (.comment (depth + 1)) cs
  | .comment depth, _ :: cs => skipGap (.comment depth) cs

/-- the text after blanks and comments -/
def skip (cs : List Char) : Option (List Char) := skipGap .blanks cs

/-- words that follow each other, blanks and comments after each of them -/
def words (ws : List String) (cs : List Char) : Option (List Char) :=
  ws.foldlM (fun cs w => if w.toList.isPrefixOf cs then skip (cs.drop w.length) else none) cs

/-! ### identifiers and numbers -/

/-- a character of an identifier after `r#` -/
def isRawPart (c : Char) : Bool := Text.isIdentifierPart c || c == '.' || c == '+' || c == '-'

/-- an identifier after `r#` -/
def rawName : Reader String
  | 'r' :: '#' :: c :: cs =>
    if isRawPart c then some (String.ofList (c :: cs.takeWhile isRawPart), cs.dropWhile isRawPart)
    else none
  | _ => none

def plainName : Reader String
  | [] => none
  | c :: cs =>
    if Text.isIdentifierStart c || c == '_' then
      some (String.ofList (c :: cs.takeWhile Text.isIdentifierPart),
        cs.dropWhile Text.isIdentifierPart)
    else none

/-- a string or a byte begins like an identifier -/
def startsQuoted : List Char → Bool
  | 'r' :: '"' :: _ | 'b' :: '"' :: _ | 'b' :: '\'' :: _ | 'b' :: 'r' :: '"' :: _ => true
  | 'b' :: 'r' :: '#' :: _ => true
  | _ => false

def name : Reader String := fun cs =>
  match cs with
  | 'r' :: '#' :: _ => rawName cs
  | _ => if startsQuoted cs then none else plainName cs

def isNumeralStart (c : Char) : Bool := c.isDigit || c == '+' || c == '-' || c == '.'

def isNumeralPart (c : Char) : Bool := isNumeralStart c || c.isAlpha || c == '_'

def numeral : Reader Ron := fun cs =>
  let text := String.ofList (cs.takeWhile isNumeralPart)
  if isNumeral text then some (.number text, cs.dropWhile isNumeralPart) else none

/-! ### strings -/

/-- the character an escape of one letter stands for -/
def charOfEscape? : Char → Option Char
  | '"' => some '"'
  | '\'' => some '\''
  | '\\' => some '\\'
  | 'n' => some '\n'
  | 'r' => some '\r'
  | 't' => some '\t'
  | '0' => some '\x00'
  | _ => none

/-- the bytes of a character -/
def bytesOf (c : Char) : List UInt8 := (String.ofList [c]).toUTF8.toList

/-- the one character that bytes stand for -/
def charOfBytes? (bytes : List UInt8) : Option Char :=
  match (String.fromUTF8? ⟨bytes.toArray⟩).map String.toList with
  | some [c] => some c
  | _ => none

def byteCode : Reader UInt8
  | a :: b :: cs => (Numeral.hex? [a, b]).map (fun n => (n.toUInt8, cs))
  | _ => none

/-- a code point in braces, of one to six hexadecimal digits -/
def codePoint : Reader Char
  | '\x7b' :: cs => do
    let ds := cs.takeWhile (· ≠ '\x7d')
    if ds.isEmpty ∨ 6 < ds.length then none
    else return (← Numeral.charOfCode? (← Numeral.hex? ds), cs.drop (ds.length + 1))
  | _ => none

/-- the character of the bytes in `done` and of as many more escaped ones, up to `more`, as it
takes -/
def encoded (done : List UInt8) : (more : Nat) → Reader Char
  | 0, cs => (charOfBytes? done).map (·, cs)
  | more + 1, cs =>
    match charOfBytes? done, cs with
    | some c, _ => some (c, cs)
    | none, '\\' :: 'x' :: cs => (byteCode cs).bind
        (fun (b, rest) => encoded (done ++ [b]) more rest)
    | none, _ => none

/-- what follows a backslash in a text: a letter, a code point, or the first byte of a character,
the other ones in up to `more` escapes after it -/
def escape (more : Nat) : Reader Char
  | 'x' :: cs => (byteCode cs).bind (fun (b, rest) => encoded [b] more rest)
  | 'u' :: cs => codePoint cs
  | c :: cs => (charOfEscape? c).map (·, cs)
  | [] => none

/-- what follows a backslash among bytes: a letter, a code point or a byte -/
def byteEscape : Reader (List UInt8)
  | 'x' :: cs => (byteCode cs).map (fun (b, rest) => ([b], rest))
  | cs => (escape 0 cs).map (fun (c, rest) => (bytesOf c, rest))

/-- what stands up to a closing quote, taken by characters and by escapes.  `ruler` bounds their
number and is not looked into; `done` holds what is already read, the last one first. -/
def quoted {α : Type} (plain : Char → α) (escape : Reader α) :
    (ruler : List Char) → (done : List α) → Reader (List α)
  | _, _, [] => none
  | _, done, '"' :: cs => some (done.reverse, cs)
  | _ :: ruler, done, '\\' :: cs =>
    match escape cs with
    | some (a, rest) => quoted plain escape ruler (a :: done) rest
    | none => none
  | _ :: ruler, done, c :: cs => quoted plain escape ruler (plain c :: done) cs
  | [], _, _ :: _ => none

def textBody : Reader Ron := fun cs =>
  (quoted id (escape 3) cs [] cs).map (fun (body, rest) => (.text (String.ofList body), rest))

def bytesBody : Reader Ron := fun cs =>
  (quoted bytesOf byteEscape cs [] cs).map (fun (body, rest) => (.bytes body.flatten, rest))

/-- the characters up to a quote and as many hashes as there were in front -/
def rawBody (hashes : List Char) (done : List Char) : Reader (List Char)
  | [] => none
  | c :: cs =>
    if c = '"' ∧ hashes.isPrefixOf cs then some (done.reverse, cs.drop hashes.length)
    else rawBody hashes (c :: done) cs

/-- hashes, a quote, and characters that all stand for themselves -/
def rawQuoted : Reader (List Char) := fun cs =>
  match cs.dropWhile (· = '#') with
  | '"' :: rest => rawBody (cs.takeWhile (· = '#')) [] rest
  | _ => none

/-- a closing single quote -/
def closed {α : Type} (a : α) : Reader α
  | '\'' :: cs => some (a, cs)
  | _ => none

/-- a character after its opening quote -/
def characterBody : Reader Char
  | '\\' :: cs => (escape 0 cs).bind (fun (c, rest) => closed c rest)
  | c :: cs => closed c cs
  | [] => none

/-- a byte after its opening quote: an ASCII character, or an escape other than a code point -/
def byteBody : Reader UInt8
  | '\\' :: 'u' :: _ => none
  | '\\' :: cs =>
    match byteEscape cs with
    | some ([b], rest) => closed b rest
    | _ => none
  | c :: cs => if c.toNat < 0x80 then closed c.toNat.toUInt8 cs else none
  | [] => none

end Fitting.Ron
