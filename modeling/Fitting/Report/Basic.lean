import Fitting.Reference.Catalog
import Fitting.Fit.Resolution

/-!
# Reports

A `Report` is the result of a simulation: the items of the loadout in its shape, each with its final
attribute values by number and by name.  The values are doubles, or what has been made of them: a
report of their bit patterns tells NaNs apart that are one NaN as doubles.

* `ResolvedItem.ofItem`   of several attributes of an item with one name the highest number counts;
* `Report.ofFit`          the report of a fit and its values;
* `Report.items`          all items in the order of the fit;
* `Report.map`            the report with its values looked at in another way.
-/

namespace Fitting

/-- an item with its final values -/
structure ResolvedItem (ν : Type := Float) where
  type : TypeId
  name : Option String
  group : GroupId
  category : CategoryId
  effects : List EffectId
  attributes : Map AttributeId ν
  attributesByName : Map String ν

namespace ResolvedItem

def ofItem (catalog : Catalog) (item : Item) (values : Map AttributeId Float) : ResolvedItem where
  type := item.type
  name := item.name
  group := item.group
  category := item.category
  effects := item.effects
  attributes := values
  attributesByName :=
    Map.lastRows (fun row => catalog.reportName row.1) Prod.snd values.toList

section
variable {ν μ : Type}

def get? (r : ResolvedItem ν) (a : AttributeId) : Option ν := r.attributes[a]?

def getByName? (r : ResolvedItem ν) (name : String) : Option ν := r.attributesByName[name]?

def map (look : ν → μ) (r : ResolvedItem ν) : ResolvedItem μ :=
  { r with
    attributes := r.attributes.map (fun _ x => look x)
    attributesByName := r.attributesByName.map (fun _ x => look x) }

end

end ResolvedItem

structure ResolvedCharge (ν : Type := Float) where
  item : ResolvedItem ν
  quantity : UInt32

structure ResolvedModule (ν : Type := Float) where
  item : ResolvedItem ν
  rack : Rack
  quantity : UInt32
  status : ModuleStatus
  charge : Option (ResolvedCharge ν)

/-- a stack of drones or a fighter squadron -/
structure ResolvedSquad (ν : Type := Float) where
  item : ResolvedItem ν
  quantity : UInt32
  status : ModuleStatus

structure ResolvedSkill (ν : Type := Float) where
  item : ResolvedItem ν
  level : UInt8

/-- the result of a simulation -/
structure Report (ν : Type := Float) where
  hull : ResolvedItem ν
  pilot : ResolvedItem ν
  modules : List (ResolvedModule ν)
  drones : List (ResolvedSquad ν)
  fighters : List (ResolvedSquad ν)
  implants : List (ResolvedItem ν)
  skills : List (ResolvedSkill ν)

/-! ### values looked at in another way -/

section
variable {ν μ : Type} (look : ν → μ)

def ResolvedCharge.map (c : ResolvedCharge ν) : ResolvedCharge μ :=
  { c with item := c.item.map look }

def ResolvedModule.map (m : ResolvedModule ν) : ResolvedModule μ :=
  { m with item := m.item.map look, charge := m.charge.map (ResolvedCharge.map look) }

def ResolvedSquad.map (s : ResolvedSquad ν) : ResolvedSquad μ := { s with item := s.item.map look }

def ResolvedSkill.map (s : ResolvedSkill ν) : ResolvedSkill μ := { s with item := s.item.map look }

def Report.map (r : Report ν) : Report μ where
  hull := r.hull.map look
  pilot := r.pilot.map look
  modules := r.modules.map (ResolvedModule.map look)
  drones := r.drones.map (ResolvedSquad.map look)
  fighters := r.fighters.map (ResolvedSquad.map look)
  implants := r.implants.map (ResolvedItem.map look)
  skills := r.skills.map (ResolvedSkill.map look)

end

/-! ### reports of fits -/

namespace Report

section
variable (catalog : Catalog) (f : Fit) (values : Values)

/-- an item with the values resolved for its id -/
def resolved (item : Item) : ResolvedItem := .ofItem catalog item (values[item.id]?.getD ∅)

/-- a charge; none for any other item -/
def charge? (h : Handle) : Option ResolvedCharge := do
  let item ← f.get? h
  match item.role with
  | .charge _ quantity => some { item := resolved catalog values item, quantity }
  | _ => none

/-- a module with its charge; none for any other item -/
def module? (h : Handle) : Option ResolvedModule := do
  let item ← f.get? h
  match item.role with
  | .module state =>
    some
      { item := resolved catalog values item
        rack := state.rack
        quantity := state.quantity
        status := state.status
        charge := state.charge.bind (charge? catalog f values) }
  | _ => none

/-- a stack of drones or a squadron; none for any other item -/
def squad? (h : Handle) : Option ResolvedSquad := do
  let item ← f.get? h
  match item.role with
  | .drone state =>
    some
      { item := resolved catalog values item
        quantity := state.quantity
        status := state.status }
  | .fighter quantity status => some { item := resolved catalog values item, quantity, status }
  | _ => none

/-- a skill; none for any other item -/
def skill? (h : Handle) : Option ResolvedSkill := do
  let item ← f.get? h
  match item.role with
  | .skill level => some { item := resolved catalog values item, level }
  | _ => none

/-- the report of a fit and its values -/
def ofFit : Report where
  hull := resolved catalog values f.hullItem
  pilot := resolved catalog values f.pilotItem
  modules := f.modules.filterMap (module? catalog f values)
  drones := f.drones.filterMap (squad? catalog f values)
  fighters := f.fighters.filterMap (squad? catalog f values)
  implants := f.implants.filterMap (fun h => (f.get? h).map (resolved catalog values))
  skills := f.skills.filterMap (skill? catalog f values)

end

/-- all items in the order of the fit: every charge right after its module -/
def items {ν : Type} (r : Report ν) : List (ResolvedItem ν) :=
  r.hull :: r.pilot
    :: r.modules.flatMap (fun m => m.item :: (m.charge.map ResolvedCharge.item).toList)
    ++ r.drones.map ResolvedSquad.item
    ++ r.fighters.map ResolvedSquad.item
    ++ r.implants
    ++ r.skills.map ResolvedSkill.item

end Report

end Fitting
