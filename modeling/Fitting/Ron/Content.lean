import Fitting.Ron.Lexeme

/-!
# What the parentheses of `Some` hold

With variants unwrapped a record or several values in `Some` do without parentheses of their own.
Before the content is read, `Content.ofText` looks ahead for what it is: a name with a colon begins
the fields of a record, and otherwise the first comma outside of all brackets counts, unless nothing
comes after it.

The look ahead passes over brackets in comments, characters, texts and bytes.  It knows a literal by
its beginning only, and takes what follows one at once for a plain character: a comment right behind
a literal is none there, and neither is a byte beyond ASCII a literal.
-/

namespace Fitting.Ron

/-- a name and a colon come first, or nothing at all: what makes parentheses a record -/
def startsRecord (cs : List Char) : Bool :=
  match skip cs with
  | some (')' :: _) => true
  | some cs =>
    match (name cs).bind (fun (_, rest) => skip rest) with
    | some (':' :: _) => true
    | _ => false
  | none => false

/-- what the parentheses of `Some` hold, variants being unwrapped -/
inductive Content where
  | nothing
  | fields
  | one
  | several
  /-- the look ahead fails: there is one value, which is read only where its type is known -/
  | unclear
deriving DecidableEq, Repr

/-! ### literals on the way -/

/-- no quote ends a text: there is none after the escapes that can be read -/
def isUnclosed {α : Type} (escape : Reader α) : (ruler : List Char) → List Char → Bool
  | _, [] => true
  | _, '"' :: _ => false
  | _ :: ruler, '\\' :: cs =>
    match escape cs with
    | some (_, rest) => isUnclosed escape ruler rest
    | none => !cs.contains '"'
  | _ :: ruler, _ :: cs => isUnclosed escape ruler cs
  | [], _ :: _ => false

/-- the text after a quoted literal, which is read after its quote; the whole text `cs` if what
comes is none, and nothing if no quote ends it -/
def passQuoted {α : Type} (body : Reader Ron) (escape : Reader α) (cs : List Char)
    (afterQuote : List Char) : Option (List Char) :=
  match body afterQuote with
  | some (_, rest) => some rest
  | none => if isUnclosed escape afterQuote afterQuote then none else some cs

/-- the text after a literal of hashes and quotes, in the same way -/
def passRaw (cs : List Char) (afterMark : List Char) : Option (List Char) :=
  match afterMark.dropWhile (· = '#') with
  | '"' :: _ => (rawQuoted afterMark).map Prod.snd
  | _ => some cs

/-- the text after a character -/
def passCharacter : List Char → List Char
  | '\'' :: cs => (characterBody cs).elim ('\'' :: cs) Prod.snd
  | cs => cs

/-- the text after a text -/
def passText : List Char → Option (List Char)
  | '"' :: cs => passQuoted textBody (escape 3) ('"' :: cs) cs
  | 'r' :: cs => passRaw ('r' :: cs) cs
  | cs => some cs

/-- the text after bytes -/
def passBytes : List Char → Option (List Char)
  | 'b' :: '"' :: cs => passQuoted bytesBody byteEscape ('b' :: '"' :: cs) cs
  | 'b' :: 'r' :: cs => passRaw ('b' :: 'r' :: cs) cs
  | cs => some cs

/-! ### the end of the first value -/

def isOpening (c : Char) : Bool := c == '(' || c == '[' || c == '\x7b'

def isClosing (c : Char) : Bool := c == ')' || c == ']' || c == '\x7d'

/-- one value or several, with `depth` brackets open inside the parentheses; none if the text cannot
be passed over.  `ruler` bounds the number of characters and is not looked into. -/
def scan : (ruler : List Char) → (depth : Nat) → List Char → Option Content
  | [], _, _ => none
  | _ :: ruler, depth, cs => do
    match ← passBytes (← passText (passCharacter (← skip cs))) with
    | [] => none
    | c :: rest =>
      if isOpening c then scan ruler (depth + 1) rest
      else if isClosing c then
        match depth with
        | 0 => some .one
        | depth + 1 => scan ruler depth rest
      else if c = ',' ∧ depth = 0 then
        match ← skip rest with
        | ')' :: _ => some .one
        | _ => some .several
      else scan ruler depth rest

/-- one value or several: an identifier in front is passed over first -/
def count (cs : List Char) : Option Content :=
  (skip cs).bind fun cs => scan cs 0 ((name cs).elim cs Prod.snd)

/-- what the parentheses hold that the text stands after the opening one of -/
def Content.ofText (cs : List Char) : Content :=
  if startsRecord cs then
    match skip cs with
    | some (')' :: _) => .nothing
    | _ => .fields
  else (count cs).getD .unclear

end Fitting.Ron
