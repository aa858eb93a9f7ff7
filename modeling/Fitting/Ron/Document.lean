import Fitting.Document.Basic
import Fitting.Ron.Reader

/-!
# RON as a document format

A record is written with named fields, its own name in front of them allowed; a field it knows must
not be given twice, and of a field it does not know nothing is asked but room for its value.  An
optional value is `None` or `Some(value)`, an alternative is a symbol, and a wrapper puts
parentheses around its content.  The extensions of the text change what may be left out.

Levels are counted from the top of the text: a field or an item lies two below its record or list,
and the content of an option or of a wrapper one below it, also where `Some` is left out.
-/

namespace Fitting.Ron

/-- a value of a text, together with the extensions of the text -/
structure Part where
  extensions : Extensions
  value : Ron
  /-- the number of levels that are left for what the value holds -/
  room : Nat

/-- the text of a value as a document -/
def Part.parse? (text : String) : Option Part :=
  (Ron.parse? text).map (fun (extensions, value) => ⟨extensions, value, maxDepth⟩)

/-- a value inside another, a number of levels below it -/
def Part.inner (p : Part) (levels : Nat) (value : Ron) : Part :=
  ⟨p.extensions, value, p.room - levels⟩

/-- what stands in front of parentheses is the name of their type, or is left out -/
def carries (e : Extensions) (expected : String) : Label → Bool
  | .named label => label == expected
  | .missing => !e.explicitNames
  | .implied => true

/-- a field that is given once at most -/
def isSingle (fields : List (String × Ron)) (name : String) : Bool :=
  (fields.filter (fun f => f.1 == name)).length ≤ 1

/-- a field whose value is left to those who know its name, or finds room -/
def isAllowed (names : List String) (room : Nat) (field : String × Ron) : Bool :=
  names.contains field.1 || field.2.fits room

/-- the integer of a type that a value is -/
def integer? (t : IntegerType) : Ron → Option Int
  | .number numeral => integerOf? t numeral
  | .byte b => if t = .level then some b.toNat else none
  | _ => none

/-- the fields of a record of a name -/
def fields? (e : Extensions) (expected : String) : Ron → Option (List (String × Ron))
  | .record label fields => if carries e expected label then some fields else none
  | .unit => if carries e expected .missing then some [] else none
  | _ => none

/-- the content of a wrapper of a name -/
def wrapped? (e : Extensions) (expected : String) (v : Ron) : Option Ron :=
  if e.unwrapNewtypes then some v
  else match v with
    | .tuple label [v] => if carries e expected label then some v else none
    | _ => none

instance : Document Part where
  integer? t p := integer? t p.value
  real? p :=
    match p.value with
    | .number numeral => realOf? ["f64"] numeral
    | _ => none
  flag? p :=
    match p.value with
    | .flag b => some b
    | _ => none
  text? p :=
    match p.value with
    | .text s => some s
    | _ => none
  symbol? p :=
    match p.value with
    | .symbol name => some name
    | _ => none
  items? p :=
    match p.value with
    | .list items => some (items.map (p.inner 2))
    | _ => none
  entries? p :=
    match p.value with
    | .map entries =>
      entries.mapM (fun (key, v) => (integer? .code key).map (·, p.inner 2 v))
    | _ => none
  optional? p :=
    match p.value with
    | .absent => some none
    | .present known _ => known.map (fun v => some (p.inner 1 v))
    | v => if p.extensions.implicitSome then some (some (p.inner 1 v)) else none
  wrapped? expected p := (wrapped? p.extensions expected p.value).map (p.inner 1)
  fields? expected names p :=
    match fields? p.extensions expected p.value with
    | some fields =>
      if names.all (isSingle fields) && fields.all (isAllowed names (p.room - 2)) then
        some (fun name => (fields.find? (fun f => f.1 == name)).map (fun f => p.inner 2 f.2))
      else none
    | none => none

end Fitting.Ron
