import Fitting.Ron.Content

/-!
# Reading RON text

`Ron.parse?` reads a text that holds exactly one RON value, after the extensions it enables.

* a comma may follow the last item of a list, a map, a record or a tuple;
* an identifier that is written after `r#` is never a word with a meaning such as `true` or `None`;
* brackets and what stands in them count for one level of nesting each, and so does the content of
  `Some`.  There may be `maxDepth` levels, which is also what the recursion descends on.
-/

namespace Fitting.Ron

/-- how deep values may be nested -/
def maxDepth : Nat := 128

/-! ### brackets -/

/-- items, each followed by a comma or by the closing character.  `done` holds those already read,
the last one first; `ruler` bounds their number and is not looked into. -/
def items {α : Type} (item : Reader α) (close : Char) :
    (ruler : List Char) → (done : List α) → Reader (List α)
  | [], _, _ => none
  | _ :: ruler, done, cs =>
    match skip cs with
    | none | some [] => none
    | some (c :: rest) =>
      if c = close then some (done.reverse, rest)
      else
        match item (c :: rest) with
        | none => none
        | some (a, rest) =>
          match skip rest with
          | none | some [] => none
          | some (d :: rest) =>
            if d = close then some ((a :: done).reverse, rest)
            else if d = ',' then items item close ruler (a :: done) rest
            else none

/-- the items up to the closing character.  Every item takes a character at least, so there are no
more items than characters. -/
def bracketed {α : Type} (item : Reader α) (close : Char) : Reader (List α) := fun cs =>
  items item close cs [] cs

def afterColon (value : Reader Ron) : Reader Ron := fun cs => do
  match ← skip cs with
  | ':' :: rest => value rest
  | _ => none

def entry (value : Reader Ron) : Reader (Ron × Ron) := fun cs => do
  let (key, cs) ← value cs
  let (v, cs) ← afterColon value cs
  return ((key, v), cs)

def field (value : Reader Ron) : Reader (String × Ron) := fun cs => do
  let (label, cs) ← name cs
  let (v, cs) ← afterColon value cs
  return ((label, v), cs)

/-- what stands between parentheses -/
def parenthesized (value : Reader Ron) (label : Label) : Reader Ron := fun cs =>
  if startsRecord cs then
    (bracketed (field value) ')' cs).map (fun (fs, rest) => (.record label fs, rest))
  else (bracketed value ')' cs).map (fun (vs, rest) => (.tuple label vs, rest))

/-! ### options -/

/-- a closing parenthesis, a comma in front of it allowed -/
def closing? (cs : List Char) : Option (List Char) := do
  match ← skip cs with
  | ')' :: rest => some rest
  | ',' :: rest =>
    match ← skip rest with
    | ')' :: rest => some rest
    | _ => none
  | _ => none

/-- a record that has no parentheses of its own, and so no name -/
def implied : Ron → Ron
  | .record _ fields => .record .implied fields
  | v => v

/-- one value in parentheses, where it is no record: those of a record would be its own -/
def unwrapped? : Ron → Option Ron
  | .record .. | .unit => none
  | v => some v

/-- the only one of several values -/
def only? : Ron → Option Ron
  | .tuple _ [v] => unwrapped? v
  | _ => none

/-- one value up to the closing parenthesis -/
def sole (content : Reader Ron) : Reader Ron := fun cs => do
  let (v, rest) ← content cs
  return (v, ← closing? rest)

/-- fields or several values that share the parentheses of `Some`, read after the opening one -/
def shared (content : Reader Ron) : Reader Ron := fun cs =>
  (content ('(' :: cs)).map (fun (v, rest) => (implied v, rest))

/-- the content of `Some` after the opening parenthesis, variants being unwrapped -/
def unwrappedBody (content : Reader Ron) : Reader Ron := fun cs =>
  match Content.ofText cs with
  | .nothing =>
    (closing? cs).map (fun rest => (.present (some (.record .implied [])) (some .unit), rest))
  | .fields => (shared content cs).map (fun (v, rest) => (.present (some v) (some v), rest))
  | .several => (shared content cs).map (fun (v, rest) => (.present (only? v) (some v), rest))
  | .one => (sole content cs).map (fun (v, rest) => (.present (unwrapped? v) (some v), rest))
  | .unclear => (sole content cs).map (fun (v, rest) => (.present (unwrapped? v) none, rest))

/-- the content of `Some` after the opening parenthesis -/
def optionBody (e : Extensions) (content : Reader Ron) : Reader Ron := fun cs =>
  if e.unwrapVariants then unwrappedBody content cs
  else (sole content cs).map (fun (v, rest) => (.present (some v) (some v), rest))

def option (e : Extensions) (content : Reader Ron) : Reader Ron := fun cs => do
  match ← skip cs with
  | '(' :: rest => optionBody e content rest
  | rest =>
    if e.implicitSome then (content rest).map (fun (v, rest) => (.present (some v) (some v), rest))
    else none

/-! ### values -/

/-- how to read what stands inside a value -/
structure Inside where
  /-- reads an item in brackets -/
  item : Reader Ron
  /-- reads the content of an option -/
  content : Reader Ron

def named (inside : Option Inside) (label : String) : Reader Ron := fun cs => do
  match skip cs with
  | some ('(' :: rest) => parenthesized (← inside).item (.named label) rest
  | _ => some (.symbol label, cs)

def afterName (e : Extensions) (inside : Option Inside) (label : String) : Reader Ron := fun cs =>
  match label with
  | "true" => some (.flag true, cs)
  | "false" => some (.flag false, cs)
  | "None" => some (.absent, cs)
  | "Some" => inside.bind (fun inside => option e inside.content cs)
  | "inf" | "inff32" | "inff64" | "NaN" | "NaNf32" | "NaNf64" => some (.number label, cs)
  | _ => named inside label cs

/-- a value, given how to read what stands inside it; without that brackets are refused -/
def valueWith (e : Extensions) (inside : Option Inside) : Reader Ron := fun cs => do
  match ← skip cs with
  | [] => none
  | '"' :: rest => textBody rest
  | '\'' :: rest => (characterBody rest).map (fun (c, rest) => (.character c, rest))
  | 'b' :: '\'' :: rest => (byteBody rest).map (fun (b, rest) => (.byte b, rest))
  | 'b' :: '"' :: rest => bytesBody rest
  | '[' :: rest =>
    let (vs, rest) ← bracketed (← inside).item ']' rest
    return (.list vs, rest)
  | '\x7b' :: rest =>
    let (es, rest) ← bracketed (entry (← inside).item) '\x7d' rest
    return (.map es, rest)
  | '(' :: ')' :: rest => some (.unit, rest)
  | '(' :: rest => parenthesized (← inside).item .missing rest
  | 'r' :: '#' :: rest =>
    match rawName ('r' :: '#' :: rest) with
    | some (label, rest) => named inside label rest
    | none =>
      let (body, rest) ← rawQuoted ('#' :: rest)
      return (.text (String.ofList body), rest)
  | 'r' :: '"' :: rest =>
    let (body, rest) ← rawQuoted ('"' :: rest)
    return (.text (String.ofList body), rest)
  | c :: rest =>
    if startsQuoted (c :: rest) then
      let (body, rest) ← rawQuoted (rest.drop 1)
      return (.bytes (String.ofList body).toUTF8.toList, rest)
    else if isNumeralStart c then numeral (c :: rest)
    else
      let (label, rest) ← plainName (c :: rest)
      afterName e inside label rest

/-- a value with `depth` levels inside it at most -/
def value (e : Extensions) : (depth : Nat) → Reader Ron
  | 0, cs => valueWith e none cs
  | 1, cs => valueWith e (some ⟨fun _ => none, fun cs => value e 0 cs⟩) cs
  | depth + 2, cs =>
    valueWith e (some ⟨fun cs => value e depth cs, fun cs => value e (depth + 1) cs⟩) cs

/-! ### whole texts -/

/-- a line that enables extensions -/
def attribute? (cs : List Char) : Option (Extensions × List Char) := do
  let cs ← words ["#", "!", "[", "enable", "("] cs
  let (names, cs) ← bracketed name ')' cs
  let cs ← words ["]"] (← skip cs)
  if names.isEmpty then none
  else return ((← names.mapM Extensions.ofName?).foldl .union {}, cs)

/-- the extensions that are enabled in front of a value.  `ruler` bounds the number of lines and is
not looked into. -/
def header : (ruler : List Char) → Extensions → Reader Extensions
  | _ :: ruler, e, '#' :: cs =>
    match attribute? ('#' :: cs) with
    | some (f, rest) => header ruler (e.union f) rest
    | none => none
  | _, e, cs => some (e, cs)

/-- the extensions and the value of a text that holds exactly one -/
def parse? (text : String) : Option (Extensions × Ron) := do
  let cs ← skip text.toList
  let (e, cs) ← header cs {} cs
  let (v, rest) ← value e maxDepth cs
  if (← skip rest).isEmpty then some (e, v) else none

end Fitting.Ron
