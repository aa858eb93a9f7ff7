import Fitting.Json.Reader
import Fitting.Modifier.Basic
import Fitting.Severity

/-!
# Modifier descriptions

An effect states its modifiers in a JSON array with one entry for each.  `decodeDescription` reads
the array; every entry is decoded on its own, so a bad one is reported in its place and leaves the
others as they are.

* `Entry.ofJson?`    the seven fields of an entry, from an object or from an array of seven values;
* `Entry.decode`     the modifier the fields state, or the first thing that is wrong with them;
* `DescriptionError` what can be wrong, with its wording in `DescriptionError.message`.
-/

namespace Fitting

/-- the fields of an entry, in the order of the positional form -/
inductive EntryField where
  | func | domain | modified | modifying | operation | group | skill
deriving DecidableEq, Repr

/-- the name of a field in the text -/
def EntryField.name : EntryField → String
  | .func => "func"
  | .domain => "domain"
  | .modified => "modifiedAttributeID"
  | .modifying => "modifyingAttributeID"
  | .operation => "operation"
  | .group => "groupID"
  | .skill => "skillTypeID"

/-- why a description or one of its entries is dropped -/
inductive DescriptionError where
  /-- the text is no JSON value -/
  | notJson
  /-- the text is a JSON value but no array; `found` names its kind -/
  | notArray (found : String)
  /-- a field has the wrong type, or the entry has the wrong shape -/
  | malformed
  | missing (field : EntryField)
  | unknownOperation (code : Int32)
  /-- operation code 9, which stands for no modifier -/
  | skillPointsToLevel
  | unknownDomain (text : String)
  | unknownFunction (text : String)
deriving DecidableEq, Repr

namespace DescriptionError

def code : DescriptionError → String
  | .notJson | .notArray _ => "MODIFIER_INVALID_JSON"
  | .malformed => "MODIFIER_MALFORMED"
  | .missing _ => "MODIFIER_MISSING_FIELD"
  | .unknownOperation _ => "MODIFIER_UNKNOWN_OPERATION"
  | .skillPointsToLevel => "MODIFIER_SKILL_POINTS_TO_LEVEL"
  | .unknownDomain _ => "MODIFIER_UNKNOWN_DOMAIN"
  | .unknownFunction _ => "MODIFIER_UNKNOWN_FUNCTION"

/-- a bad entry never takes its effect down with it -/
def severity (_ : DescriptionError) : Severity := .recoverable

def message : DescriptionError → String
  | .notJson => "invalid modifier description: not a JSON text"
  | .notArray found => "invalid modifier description: expected an array, found " ++ found
  | .malformed => "modifier entry is malformed: a field has the wrong type"
  | .missing field => "modifier entry missing `" ++ field.name ++ "`"
  | .unknownOperation code => "unknown modifier operation code " ++ toString code.toInt
  | .skillPointsToLevel => "skill-points-to-level operation is not a modifier"
  | .unknownDomain text => "unknown modifier domain `" ++ text ++ "`"
  | .unknownFunction text => "unsupported modifier function `" ++ text ++ "`"

end DescriptionError

/-- the operation of a code -/
def Operation.ofCode (code : Int32) : Except DescriptionError Operation :=
  if code = -1 then .ok .preAssign
  else if code = 0 then .ok .preMul
  else if code = 1 then .ok .preDiv
  else if code = 2 then .ok .modAdd
  else if code = 3 then .ok .modSub
  else if code = 4 then .ok .postMul
  else if code = 5 then .ok .postDiv
  else if code = 6 then .ok .postPercent
  else if code = 7 then .ok .postAssign
  else if code = 9 then .error .skillPointsToLevel
  else .error (.unknownOperation code)

/-! ### the fields of an entry -/

/-- an entry as it is written, before it is understood -/
structure Entry where
  func : Option String
  domain : Option String
  modified : Option Int32
  modifying : Option Int32
  operation : Option Int32
  group : Option Int32
  skill : Option Int32
deriving DecidableEq, Repr

namespace Entry

/-- a field that is a string if it is there; null counts as not there -/
def text? : Option Json → Option (Option String)
  | none | some .null => some none
  | some (.text s) => some (some s)
  | some _ => none

/-- a field that is a 32-bit integer if it is there; null counts as not there -/
def integer? : Option Json → Option (Option Int32)
  | none | some .null => some none
  | some (.integer i) => (int32? i).map some
  | some _ => none

/-- an entry from a look-up of its fields; none if one has the wrong type -/
def ofFields? (field : EntryField → Option Json) : Option Entry := do
  let func ← text? (field .func)
  let domain ← text? (field .domain)
  let modified ← integer? (field .modified)
  let modifying ← integer? (field .modifying)
  let operation ← integer? (field .operation)
  let group ← integer? (field .group)
  let skill ← integer? (field .skill)
  return { func, domain, modified, modifying, operation, group, skill }

/-- an entry from an object, whose other members do not matter, or from exactly seven values -/
def ofJson? : Json → Option Entry
  | .object members => ofFields? (fun f => Json.lookup? f.name members)
  | .array [func, domain, modified, modifying, operation, group, skill] =>
    ofFields? fun
      | .func => some func
      | .domain => some domain
      | .modified => some modified
      | .modifying => some modifying
      | .operation => some operation
      | .group => some group
      | .skill => some skill
  | _ => none

/-! ### what an entry states -/

/-- a field that has to be there -/
def need {α : Type} (field : EntryField) : Option α → Except DescriptionError α
  | some a => .ok a
  | none => .error (.missing field)

/-- the items an item modifier of this domain acts on -/
def itemDomain (text : String) : Except DescriptionError Domain :=
  if text = "itemID" then .ok .item
  else if text = "shipID" then .ok .ship
  else if text = "charID" then .ok .pilot
  else if text = "otherID" then .ok .other
  else .error (.unknownDomain text)

/-- the items a function acts on, given the domain an item modifier would have -/
def functionDomain (e : Entry) (func : String) (onItem : Domain) :
    Except DescriptionError Domain :=
  if func = "ItemModifier" then .ok onItem
  else if func = "LocationModifier" then .ok .location
  else if func = "LocationGroupModifier" then do
    return .locationGroup ⟨← need .group e.group⟩
  else if func = "LocationRequiredSkillModifier" ∨ func = "OwnerRequiredSkillModifier" then do
    return .requiredSkill (.ofCode (← need .skill e.skill))
  else .error (.unknownFunction func)

/-- the modifier an entry states, or the first thing that is wrong with it -/
def decode (e : Entry) : Except DescriptionError RawModifier := do
  let func ← need .func e.func
  let text ← need .domain e.domain
  let onItem ← itemDomain text
  let domain ← e.functionDomain func onItem
  let operation ← Operation.ofCode (← need .operation e.operation)
  let modified ← need .modified e.modified
  let modifying ← need .modifying e.modifying
  return { operation, domain, modified := ⟨modified⟩, modifying := ⟨modifying⟩ }

end Entry

/-- the modifier one value of the array states -/
def decodeEntry (v : Json) : Except DescriptionError RawModifier :=
  match Entry.ofJson? v with
  | some entry => entry.decode
  | none => .error .malformed

/-- one result for each entry of a description; a text that is no array gives one error -/
def decodeDescription (text : String) : List (Except DescriptionError RawModifier) :=
  match Json.parse? text with
  | some (.array entries) => entries.map decodeEntry
  | some v => [.error (.notArray v.kind)]
  | none => [.error .notJson]

end Fitting
