import Fitting.Document.Basic
import Fitting.Json.Reader

/-!
# JSON as a document format

A record is an object, or an array of its leading fields in their order.  The keys of a table are
integers in JSON notation.  Absent is null, an alternative is a string or an object whose one member
is null, and wrappers leave no trace.
-/

namespace Fitting.Json

/-- the integer that is written as the name of a member: JSON notation with nothing around it -/
def memberKey? (name : String) : Option Int :=
  match name.toList with
  | [] => none
  | c :: cs =>
    if isBlank c then none
    else match value maxDepth (c :: cs) with
      | some (.integer i, []) => some i
      | _ => none

/-- the fields of a record -/
def recordFields? (names : List String) : Json → Option (String → Option Json)
  | .object members => some (fun name => lookup? name members)
  | .array items =>
    if items.length ≤ names.length then some (fun name => items[names.idxOf name]?) else none
  | _ => none

instance : Document Json where
  integer?
    | t, .integer i => t.fit? i
    | _, _ => none
  real?
    | .integer i => some (Float.ofInt i)
    | .decimal x => some x
    | _ => none
  flag?
    | .bool b => some b
    | _ => none
  text?
    | .text s => some s
    | _ => none
  symbol?
    | .text s => some s
    | .object members =>
      match lastMembers members with
      | [(name, .null)] => some name
      | _ => none
    | _ => none
  items?
    | .array items => some items
    | _ => none
  entries?
    | .object members => (lastMembers members).mapM (fun (name, v) => (memberKey? name).map (·, v))
    | _ => none
  optional?
    | .null => some none
    | v => some (some v)
  wrapped? _ v := some v
  fields? _ names := recordFields? names

end Fitting.Json
