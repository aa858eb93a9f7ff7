import Fitting.Key

/-!
# Rules of a simulation

The few numbers the engine can be told: which type flies the ship, which effects make a module a
propulsion module, which sources escape the stacking penalty, and which corrections run.
-/

namespace Fitting

namespace CategoryId

def ship : CategoryId := ⟨6⟩
def charge : CategoryId := ⟨8⟩
def skill : CategoryId := ⟨16⟩
def implant : CategoryId := ⟨20⟩
def subsystem : CategoryId := ⟨32⟩

end CategoryId

/-- what the engine can be told besides the reference data -/
structure Rules where
  /-- the item type of the pilot -/
  pilotType : TypeId := ⟨1373⟩
  /-- a module that carries one of these effects is a propulsion module -/
  propulsionEffects : List EffectId := [⟨6730⟩, ⟨6731⟩]
  /-- modifiers of sources of these categories are never penalized for stacking -/
  exemptCategories : List CategoryId := [.ship, .charge, .skill, .implant, .subsystem]
  /-- multiply resolved values by the mutations of individual items -/
  applyMutations : Bool := true
  /-- run the corrections after resolution at all -/
  corrections : Bool := true
deriving DecidableEq, Repr

namespace Rules

instance : Inhabited Rules := ⟨{}⟩

def isExempt (r : Rules) (c : CategoryId) : Bool := r.exemptCategories.contains c

def isPropulsion (r : Rules) (e : EffectId) : Bool := r.propulsionEffects.contains e

end Rules

end Fitting
