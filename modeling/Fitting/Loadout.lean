import Fitting.Key
import Fitting.Named

/-!
# Loadouts

A loadout is what the engine is asked about: a hull, a pilot, and the modules, drones, fighters and
implants fitted to it.  It names item types only; base attributes, effects and required skills come
from the reference data.

* `ModuleStatus.satisfies`   states are ordered from offline to overloaded;
* `Loadout.withSkill` …      a loadout is built up one item at a time.
-/

namespace Fitting

/-- operating state of a module, from least to most engaged -/
inductive ModuleStatus where
  | offline | online | active | overloaded
deriving DecidableEq, Repr, Inhabited

namespace ModuleStatus

instance : Named ModuleStatus where
  alternatives := [.offline, .online, .active, .overloaded]
  name
    | .offline => "offline"
    | .online => "online"
    | .active => "active"
    | .overloaded => "overloaded"

/-- how far a state is engaged -/
def rank : ModuleStatus → Nat
  | .offline => 0
  | .online => 1
  | .active => 2
  | .overloaded => 3

/-- a module in state `s` is at least as engaged as `required` -/
def satisfies (s required : ModuleStatus) : Bool := required.rank ≤ s.rank

end ModuleStatus

/-- the rack a module is fitted into -/
inductive Rack where
  | high | medium | low | rig | subsystem | service
deriving DecidableEq, Repr, Inhabited

instance : Named Rack where
  alternatives := [.high, .medium, .low, .rig, .subsystem, .service]
  name
    | .high => "high"
    | .medium => "medium"
    | .low => "low"
    | .rig => "rig"
    | .subsystem => "subsystem"
    | .service => "service"

/-- multipliers of an individual item, applied after its attributes are resolved -/
abbrev Mutations := Map AttributeId Float

/-- a charge loaded into a module -/
structure ChargeSpec where
  type : TypeId
  quantity : UInt32 := 1
deriving DecidableEq, Repr

/-- a fitted module -/
structure ModuleSpec where
  type : TypeId
  rack : Rack := .medium
  quantity : UInt32 := 1
  status : ModuleStatus := .online
  charge : Option ChargeSpec := none
  mutations : Mutations := ∅

/-- a stack of drones of one type -/
structure DroneSpec where
  type : TypeId
  quantity : UInt32 := 1
  status : ModuleStatus := .online
  mutations : Mutations := ∅

/-- a fighter squadron -/
structure FighterSpec where
  type : TypeId
  quantity : UInt32 := 1
  status : ModuleStatus := .online
deriving DecidableEq, Repr

/-- trained skill levels by skill type, and attribute values that replace those of the pilot type -/
structure PilotSpec where
  skills : Map TypeId UInt8 := ∅
  attributes : Map AttributeId Float := ∅

/-- what the engine is asked about -/
structure Loadout where
  hull : TypeId
  pilot : PilotSpec := {}
  modules : List ModuleSpec := []
  drones : List DroneSpec := []
  fighters : List FighterSpec := []
  implants : List TypeId := []

/-! ### building a loadout -/

namespace ModuleSpec

/-- a single online module -/
def fitted (type : TypeId) (rack : Rack) : ModuleSpec := { type, rack }

def withStatus (m : ModuleSpec) (status : ModuleStatus) : ModuleSpec := { m with status }

def withCharge (m : ModuleSpec) (type : TypeId) (quantity : UInt32) : ModuleSpec :=
  { m with charge := some { type, quantity } }

def withMutation (m : ModuleSpec) (a : AttributeId) (multiplier : Float) : ModuleSpec :=
  { m with mutations := m.mutations.insert a multiplier }

end ModuleSpec

namespace DroneSpec

/-- drones that are out in space -/
def launched (type : TypeId) (quantity : UInt32) : DroneSpec :=
  { type, quantity, status := .active }

def withMutation (d : DroneSpec) (a : AttributeId) (multiplier : Float) : DroneSpec :=
  { d with mutations := d.mutations.insert a multiplier }

end DroneSpec

/-- fighters that are out in space -/
def FighterSpec.launched (type : TypeId) (quantity : UInt32) : FighterSpec :=
  { type, quantity, status := .active }

namespace Loadout

/-- the last level given for a skill counts -/
def withSkill (l : Loadout) (skill : TypeId) (level : UInt8) : Loadout :=
  { l with pilot := { l.pilot with skills := l.pilot.skills.insert skill level } }

/-- the last value given for an attribute counts -/
def withPilotAttribute (l : Loadout) (a : AttributeId) (value : Float) : Loadout :=
  { l with pilot := { l.pilot with attributes := l.pilot.attributes.insert a value } }

def withModule (l : Loadout) (m : ModuleSpec) : Loadout := { l with modules := l.modules ++ [m] }

def withDrone (l : Loadout) (d : DroneSpec) : Loadout := { l with drones := l.drones ++ [d] }

def withFighter (l : Loadout) (f : FighterSpec) : Loadout :=
  { l with fighters := l.fighters ++ [f] }

def withImplant (l : Loadout) (implant : TypeId) : Loadout :=
  { l with implants := l.implants ++ [implant] }

end Loadout

end Fitting
