import Fitting.Document.Basic
import Fitting.Loadout
import Fitting.Rules

/-!
# Reading loadouts and rules

The records of a loadout and of the rules in any document format.  Apart from the types of the items
every field has a default.
-/

namespace Fitting

open Document
variable {δ : Type} [Document δ]

def ChargeSpec.read? (v : δ) : Option ChargeSpec := do
  let f : Fields δ ← fields? "ChargeSpec" ["type_id", "quantity"] v
  let type ← f.need "type_id" key?
  let quantity ← f.orElse "quantity" quantity? 1
  return { type, quantity }

def ModuleSpec.read? (v : δ) : Option ModuleSpec := do
  let f : Fields δ ← fields? "ModuleSpec"
    ["type_id", "slot", "quantity", "status", "charge", "mutated_attributes"] v
  let type ← f.need "type_id" key?
  let rack ← f.orElse "slot" choice? Rack.medium
  let quantity ← f.orElse "quantity" quantity? 1
  let status ← f.orElse "status" choice? ModuleStatus.online
  let charge ← f.orElse "charge" (option? ChargeSpec.read?) none
  let mutations ← f.orElse "mutated_attributes" (table? real?) ∅
  return { type, rack, quantity, status, charge, mutations }

def DroneSpec.read? (v : δ) : Option DroneSpec := do
  let f : Fields δ ← fields? "DroneSpec" ["type_id", "quantity", "status", "mutated_attributes"] v
  let type ← f.need "type_id" key?
  let quantity ← f.orElse "quantity" quantity? 1
  let status ← f.orElse "status" choice? ModuleStatus.online
  let mutations ← f.orElse "mutated_attributes" (table? real?) ∅
  return { type, quantity, status, mutations }

def FighterSpec.read? (v : δ) : Option FighterSpec := do
  let f : Fields δ ← fields? "FighterSpec" ["type_id", "quantity", "status"] v
  let type ← f.need "type_id" key?
  let quantity ← f.orElse "quantity" quantity? 1
  let status ← f.orElse "status" choice? ModuleStatus.online
  return { type, quantity, status }

def PilotSpec.read? (v : δ) : Option PilotSpec := do
  let f : Fields δ ← fields? "PilotSpec" ["skills", "attributes"] v
  let skills ← f.orElse "skills" (table? level?) ∅
  let attributes ← f.orElse "attributes" (table? real?) ∅
  return { skills, attributes }

def Loadout.read? (v : δ) : Option Loadout := do
  let f : Fields δ ← fields? "Loadout"
    ["hull", "pilot", "modules", "drones", "fighters", "implants"] v
  let hull ← f.need "hull" key?
  let pilot ← f.orElse "pilot" PilotSpec.read? {}
  let modules ← f.orElse "modules" (list? ModuleSpec.read?) []
  let drones ← f.orElse "drones" (list? DroneSpec.read?) []
  let fighters ← f.orElse "fighters" (list? FighterSpec.read?) []
  let implants ← f.orElse "implants" (list? key?) []
  return { hull, pilot, modules, drones, fighters, implants }

/-- a rule that is not stated is the standard one -/
def Rules.read? (v : δ) : Option Rules := do
  let standard : Rules := {}
  let f : Fields δ ← fields? "Rules"
    ["pilot_type_id", "propulsion_effects", "stacking_exempt_categories", "apply_mutations",
      "post_pass"] v
  let pilotType ← f.orElse "pilot_type_id" key? standard.pilotType
  let propulsionEffects ← f.orElse "propulsion_effects" (list? key?) standard.propulsionEffects
  let exemptCategories ←
    f.orElse "stacking_exempt_categories" (list? key?) standard.exemptCategories
  let applyMutations ← f.orElse "apply_mutations" flag? standard.applyMutations
  let corrections ← f.orElse "post_pass" flag? standard.corrections
  return { pilotType, propulsionEffects, exemptCategories, applyMutations, corrections }

end Fitting
