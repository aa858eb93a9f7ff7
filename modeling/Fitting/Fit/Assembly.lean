import Fitting.Rules
import Fitting.Double
import Fitting.Reference.Sources
import Fitting.Fit.Basic

/-!
# Assembling a fit

`assemble` turns a loadout into a fit.  It asks every source once, about all types that take part,
and then builds the items.  A type the sources do not know gives an item without attributes.

* `participants`        the types that take part in a loadout;
* `TypeSheets`          what the sources say, type by type;
* `TypeSheets.item`     the item of a type;
* `TypeSheets.fit`      hull, pilot, modules each with its charge, drones, fighters, implants,
                        skills by ascending type.
-/

namespace Fitting

/-- the types of the items of a loadout, in no particular order -/
def Loadout.types (l : Loadout) (rules : Rules) : List TypeId :=
  [l.hull, rules.pilotType]
    ++ l.modules.flatMap (fun m => m.type :: (m.charge.map ChargeSpec.type).toList)
    ++ l.drones.map DroneSpec.type
    ++ l.fighters.map FighterSpec.type
    ++ l.implants
    ++ l.pilot.skills.keys

def Loadout.participants (l : Loadout) (rules : Rules) : KeySet .itemType :=
  .ofList (l.types rules)

/-! ### what the sources say -/

/-- the reference data of the participating types -/
structure TypeSheets where
  records : Map TypeId ItemType
  attributes : Map TypeId (Map AttributeId Float)
  effects : Map TypeId (List EffectId)

/-- of several values of one attribute of a type the last one counts -/
def attributesByType (rows : List AttributeRow) : Map TypeId (Map AttributeId Float) :=
  rows.foldl
    (fun m row =>
      m.alter row.type (fun values => some ((values.getD ∅).insert row.attr row.value))) ∅

/-- `effect` added to the effects of `type` unless it is there -/
def addEffect (m : Map TypeId (List EffectId)) (type : TypeId) (effect : EffectId) :
    Map TypeId (List EffectId) :=
  m.alter type fun keys =>
    let keys := keys.getD []
    some (if keys.contains effect then keys else keys ++ [effect])

/-- the effects linked to each type, each once, in the order of their first link -/
def effectsByType (links : List EffectLink) : Map TypeId (List EffectId) :=
  links.foldl (fun m link => addEffect m link.type link.effect) ∅

/-- the synthetic effects of warfare buffs after those a type has already -/
def addDbuffEffects (m : Map TypeId (List EffectId)) (rows : List DbuffRow) :
    Map TypeId (List EffectId) :=
  rows.foldl (fun m row => addEffect m row.type row.effect) m

/-- all effects that some type carries -/
def effectKeys (m : Map TypeId (List EffectId)) : KeySet .effect := .ofList m.values.flatten

/-! ### the item of a type -/

namespace TypeSheets

/-- a base value where the attributes state none -/
def fillGap (attributes : Map AttributeId Attribute) (gap : AttributeId × Option Float) :
    Map AttributeId Attribute :=
  match gap.2 with
  | some value => attributes.insertIfNew gap.1 { base := value }
  | none => attributes

/-- the attributes of a type: its rows, and the physical properties of its record in the gaps -/
def baseAttributes (s : TypeSheets) (type : TypeId) : Map AttributeId Attribute :=
  let stated := (s.attributes[type]?.getD ∅).map (fun _ value => ({ base := value } : Attribute))
  match s.records[type]? with
  | none => stated
  | some record =>
    [(AttributeId.mass, record.mass), (AttributeId.capacity, record.capacity),
      (AttributeId.volume, record.volume)].foldl fillGap stated

/-- the skills that the values of the required-skill attributes name -/
def skillsNamed (attributes : Map AttributeId Attribute) : List TypeId :=
  AttributeId.requiredSkills.filterMap fun slot =>
    (attributes[slot]?.map (fun state => (Double.ofFloat state.base).truncated)).bind fun skill =>
      if 0 < skill then some ⟨skill⟩ else none

def item (s : TypeSheets) (type : TypeId) (role : Role) : Item :=
  let record := s.records[type]?
  let attributes := s.baseAttributes type
  { role
    type
    name := record.map ItemType.name
    group := (record.map ItemType.group).getD ⟨0⟩
    category := (record.map ItemType.category).getD ⟨0⟩
    effects := s.effects[type]?.getD []
    requiredSkills := skillsNamed attributes
    attributes }

/-! ### the items of a loadout -/

/-- a module, and its charge right after it.  The module is fitted empty and named by its charge
before it can name the charge in turn. -/
def addModule (s : TypeSheets) (f : Fit) (spec : ModuleSpec) : Fit :=
  let module := f.next
  let state : ModuleState :=
    { rack := spec.rack
      quantity := spec.quantity
      status := spec.status
      charge := none
      mutations := spec.mutations }
  let fitted := f.pushModule (s.item spec.type (.module state))
  match spec.charge with
  | none => fitted
  | some load =>
    let charge := fitted.next
    (fitted.pushCharge (s.item load.type (.charge module load.quantity))).setCharge module
      (some charge)

def addDrone (s : TypeSheets) (f : Fit) (spec : DroneSpec) : Fit :=
  f.pushDrone (s.item spec.type
    (.drone { quantity := spec.quantity, status := spec.status, mutations := spec.mutations }))

def addFighter (s : TypeSheets) (f : Fit) (spec : FighterSpec) : Fit :=
  f.pushFighter (s.item spec.type (.fighter spec.quantity spec.status))

def addImplant (s : TypeSheets) (f : Fit) (type : TypeId) : Fit :=
  f.pushImplant (s.item type .implant)

/-- a trained skill declares its level, whatever its type says -/
def addSkill (s : TypeSheets) (f : Fit) (trained : TypeId × UInt8) : Fit :=
  let item := s.item trained.1 (.skill trained.2)
  let level : Attribute := { base := Float.ofNat trained.2.toNat }
  f.pushSkill { item with attributes := item.attributes.insert AttributeId.skillLevel level }

/-- the pilot, with the attribute values of the loadout in the place of those of its type -/
def pilot (s : TypeSheets) (l : Loadout) (rules : Rules) : Item :=
  (s.item rules.pilotType .pilot).withBases l.pilot.attributes

def fit (s : TypeSheets) (l : Loadout) (rules : Rules) : Fit :=
  let f := Fit.bare (s.item l.hull .hull) (s.pilot l rules)
  let f := l.modules.foldl s.addModule f
  let f := l.drones.foldl s.addDrone f
  let f := l.fighters.foldl s.addFighter f
  let f := l.implants.foldl s.addImplant f
  l.pilot.skills.toList.foldl s.addSkill f

end TypeSheets

/-! ### the whole assembly -/

/-- a fit, and the effects its types carry -/
structure Assembly where
  fit : Fit
  /-- the effects of each type, those of warfare buffs included -/
  typeEffects : Map TypeId (List EffectId)
  /-- the definitions of these effects -/
  effects : Map EffectId EffectDefinition
  /-- the warfare buff each synthetic effect stands for -/
  dbuffs : Map EffectId DbuffTag

namespace Assembly

/-- the fit of a loadout as the sources describe its types.  The first row of a warfare buff defines
its synthetic effect. -/
def ofRows (l : Loadout) (rules : Rules) (types : ItemTypeSource) (effects : EffectSource)
    (dbuffRows : List DbuffRow) : Assembly :=
  let keys := l.participants rules
  let linked := effectsByType (effects.links keys)
  let sheets : TypeSheets :=
    { records := Map.lastRows ItemType.id id (types.records keys)
      attributes := attributesByType (types.attributes keys)
      effects := addDbuffEffects linked dbuffRows }
  let definitions :=
    Map.lastRows EffectDefinition.id id (effects.definitions (effectKeys linked))
  let firstRows := Map.firstRows DbuffRow.effect id dbuffRows
  { fit := sheets.fit l rules
    typeEffects := sheets.effects
    effects := firstRows.toList.foldl (fun m (key, row) => m.insert key row.definition) definitions
    dbuffs := firstRows.map (fun _ row => row.tag) }

end Assembly

/-- the fit of a loadout; fails only without a source for types or for effects -/
def assemble (sources : Sources) (l : Loadout) (rules : Rules) : Except SourceError Assembly := do
  let types ← sources.types?
  let effects ← sources.effects?
  let dbuffRows := match sources.dbuffs with
    | some source => source.collections (l.participants rules)
    | none => []
  return .ofRows l rules types effects dbuffRows

end Fitting
