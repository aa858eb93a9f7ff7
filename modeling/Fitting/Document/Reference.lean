import Fitting.Document.Basic
import Fitting.Reference.Sources

/-!
# Reading reference data

The records of the reference data in any document format.  A reader gives nothing if a field that
has to be there is missing or if any field it knows has the wrong type; it ignores fields it does
not know.
-/

namespace Fitting

open Document
variable {δ : Type} [Document δ]

/-- the names of the aggregate modes are capitalised in documents -/
def AggregateMode.read? (v : δ) : Option AggregateMode :=
  (symbol? v).bind fun name =>
    (Named.alternatives : List AggregateMode).find?
      (fun mode => (Named.name mode).capitalize == name)

/-- flags are wrapped in the name of their type, for formats that have wrappers -/
def EffectFlags.read? (v : δ) : Option EffectFlags :=
  ((wrapped? "EffectFlags" v).bind text?).bind EffectFlags.ofText?

/-- a category is written as its code -/
def EffectCategory.read? (v : δ) : Option EffectCategory :=
  (code? v).map EffectCategory.ofCode

def AttributeDefinition.read? (v : δ) : Option AttributeDefinition := do
  let f : Fields δ ← fields? "AttributeDefinition"
    ["attribute_id", "name", "default_value", "stackable", "high_is_good"] v
  let id ← f.need "attribute_id" key?
  let name ← f.need "name" text?
  let defaultValue ← f.orElse "default_value" real? 0.0
  let stackable ← f.orElse "stackable" flag? false
  let highIsGood ← f.orElse "high_is_good" flag? true
  return { id, name, defaultValue, stackable, highIsGood }

/-- the fields of an item type, which other records may contain -/
def ItemType.ofFields? (f : Fields δ) : Option ItemType := do
  let id ← f.need "type_id" key?
  let name ← f.need "name" text?
  let group ← f.need "group_id" key?
  let category ← f.need "category_id" key?
  let mass ← f.orElse "mass" (option? real?) none
  let capacity ← f.orElse "capacity" (option? real?) none
  let volume ← f.orElse "volume" (option? real?) none
  return { id, name, group, category, mass, capacity, volume }

/-- the names of the fields of an item type -/
def ItemType.fieldNames : List String :=
  ["type_id", "name", "group_id", "category_id", "mass", "capacity", "volume"]

def ItemType.read? (v : δ) : Option ItemType := do
  ItemType.ofFields? (← fields? "ItemType" ItemType.fieldNames v)

def AttributeRow.read? (v : δ) : Option AttributeRow := do
  let f : Fields δ ← fields? "AttributeRow" ["type_id", "attribute_id", "value"] v
  let type ← f.need "type_id" key?
  let attr ← f.need "attribute_id" key?
  let value ← f.need "value" real?
  return { type, attr, value }

def EffectLink.read? (v : δ) : Option EffectLink := do
  let f : Fields δ ← fields? "EffectLink" ["type_id", "effect_id", "is_default"] v
  let type ← f.need "type_id" key?
  let effect ← f.need "effect_id" key?
  let isDefault ← f.orElse "is_default" flag? false
  return { type, effect, isDefault }

def EffectDefinition.read? (v : δ) : Option EffectDefinition := do
  let f : Fields δ ← fields? "EffectDefinition"
    ["effect_id", "name", "category", "flags", "modifier_info"] v
  let id ← f.need "effect_id" key?
  let name ← f.need "name" text?
  let category ← f.need "category" EffectCategory.read?
  let flags ← f.orElse "flags" EffectFlags.read? .empty
  let description ← f.orElse "modifier_info" (option? text?) none
  return { id, name, category, flags, description }

def DbuffRow.read? (v : δ) : Option DbuffRow := do
  let f : Fields δ ← fields? "DbuffRow" ["type_id", "dbuff_id", "aggregate_mode", "modifier_info"] v
  let type ← f.need "type_id" key?
  let dbuff ← f.need "dbuff_id" key?
  let mode ← f.orElse "aggregate_mode" AggregateMode.read? .default
  let description ← f.need "modifier_info" text?
  return { type, dbuff, mode, description }

def Snapshot.read? (v : δ) : Option Snapshot := do
  let f : Fields δ ← fields? "Snapshot"
    ["attributes", "types", "type_attributes", "type_effects", "effects", "dbuffs"] v
  let attributes ← f.orElse "attributes" (list? AttributeDefinition.read?) []
  let types ← f.orElse "types" (list? ItemType.read?) []
  let typeAttributes ← f.orElse "type_attributes" (list? AttributeRow.read?) []
  let typeEffects ← f.orElse "type_effects" (list? EffectLink.read?) []
  let effects ← f.orElse "effects" (list? EffectDefinition.read?) []
  let dbuffs ← f.orElse "dbuffs" (list? DbuffRow.read?) []
  return { attributes, types, typeAttributes, typeEffects, effects, dbuffs }

/-! ### type sheets -/

/-- an item type together with its attribute values and its effects -/
structure TypeEntry where
  record : ItemType
  attributes : Map AttributeId Float
  effects : List EffectId

namespace TypeEntry

def read? (v : δ) : Option TypeEntry := do
  let f : Fields δ ← fields? "TypeEntry" (ItemType.fieldNames ++ ["attributes", "effects"]) v
  let record ← ItemType.ofFields? f
  let attributes ← f.orElse "attributes" (table? real?) ∅
  let effects ← f.orElse "effects" (list? key?) []
  return { record, attributes, effects }

/-- the rows of a list of types -/
def snapshot (entries : List TypeEntry) : Snapshot where
  types := entries.map record
  typeAttributes := entries.flatMap fun e =>
    e.attributes.toList.map (fun (a, value) => ⟨e.record.id, a, value⟩)
  typeEffects := entries.flatMap fun e =>
    e.effects.map (fun effect => { type := e.record.id, effect })

end TypeEntry

/-! ### whole tables -/

/-- a document that holds one list of rows under one field -/
def readRows? {ρ : Type} (record field : String) (read : δ → Option ρ) (v : δ) :
    Option (List ρ) := do
  let f : Fields δ ← fields? record [field] v
  f.need field (list? read)

def readAttributeTable? (v : δ) : Option (List AttributeDefinition) :=
  readRows? "AttributeTable" "attributes" AttributeDefinition.read? v

def readTypeTable? (v : δ) : Option (List TypeEntry) :=
  readRows? "TypeTable" "types" TypeEntry.read? v

def readEffectTable? (v : δ) : Option (List EffectDefinition) :=
  readRows? "EffectTable" "effects" EffectDefinition.read? v

def readDbuffTable? (v : δ) : Option (List DbuffRow) :=
  readRows? "DbuffTable" "dbuffs" DbuffRow.read? v

end Fitting
