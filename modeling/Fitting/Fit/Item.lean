import Fitting.Loadout
import Fitting.Modifier.Basic

/-!
# Items of a fit

An `Item` is one thing that takes part in a simulation: the hull, the pilot, a module, a charge, and
so on.  Two copies of one type are two items, told apart by their `Handle`.  An item has no handle
of its own until a fit takes it in and writes the handle into `Item.id`.

Each attribute an item declares has a base value and the `Edge`s that act on it.  An edge names its
source by handle; its target is the attribute it is attached to.
-/

namespace Fitting

/-- the place of an item in its fit -/
structure Handle where
  index : Nat
deriving DecidableEq, Repr

namespace Handle

instance : Ord Handle := ⟨compareOn Handle.index⟩

instance : Std.TransOrd Handle := inferInstanceAs (Std.TransCmp (compareOn Handle.index))

instance : Std.LawfulEqOrd Handle where
  eq_of_compare {a b} h := by
    have hi : a.index = b.index := Std.LawfulEqOrd.eq_of_compare h
    cases a; cases b; simp_all

def display (h : Handle) : String := "#" ++ toString h.index

end Handle

/-- one attribute of one item -/
structure Cell where
  item : Handle
  attr : AttributeId
deriving DecidableEq, Repr

namespace Cell

instance : Ord Cell := ⟨compareLex (compareOn Cell.item) (compareOn Cell.attr)⟩

instance : Std.TransOrd Cell :=
  inferInstanceAs (Std.TransCmp (compareLex (compareOn Cell.item) (compareOn Cell.attr)))

instance : Std.LawfulEqOrd Cell where
  eq_of_compare {a b} h := by
    have h : (compare a.item b.item).then (compare a.attr b.attr) = .eq := h
    rw [Ordering.then_eq_eq] at h
    have hi : a.item = b.item := Std.LawfulEqOrd.eq_of_compare h.1
    have ha : a.attr = b.attr := Std.LawfulEqOrd.eq_of_compare h.2
    cases a; cases b; simp_all

end Cell

/-- a modifier attached to an attribute -/
structure Edge where
  source : Handle
  sourceAttribute : AttributeId
  operation : Operation
  effect : EffectId
  category : EffectCategory
  /-- fixed when the edge is attached -/
  penalized : Bool
  dbuff : Option DbuffTag
deriving DecidableEq, Repr

/-- the cell an edge takes its value from -/
def Edge.cell (e : Edge) : Cell := ⟨e.source, e.sourceAttribute⟩

/-- a declared attribute: its base value and what acts on it, in the order it was attached -/
structure Attribute where
  base : Float
  edges : List Edge := []

structure ModuleState where
  rack : Rack
  quantity : UInt32
  status : ModuleStatus
  /-- the charge loaded into it -/
  charge : Option Handle
  mutations : Mutations

structure DroneState where
  quantity : UInt32
  status : ModuleStatus
  mutations : Mutations

/-- what an item is in its fit, with the state only such items have -/
inductive Role where
  | hull
  | pilot
  | module (state : ModuleState)
  /-- `owner` is the module the charge is loaded into -/
  | charge (owner : Handle) (quantity : UInt32)
  | drone (state : DroneState)
  | fighter (quantity : UInt32) (status : ModuleStatus)
  | implant
  | skill (level : UInt8)

def Role.name : Role → String
  | .hull => "hull"
  | .pilot => "pilot"
  | .module _ => "module"
  | .charge _ _ => "charge"
  | .drone _ => "drone"
  | .fighter _ _ => "fighter"
  | .implant => "implant"
  | .skill _ => "skill"

structure Item where
  role : Role
  type : TypeId
  /-- none for a type the reference data does not know -/
  name : Option String
  group : GroupId
  category : CategoryId
  effects : List EffectId
  requiredSkills : List TypeId
  attributes : Map AttributeId Attribute
  /-- the handle of the item; what stands here before a fit takes it in does not count -/
  id : Handle := ⟨0⟩

namespace Item

def withId (i : Item) (h : Handle) : Item := { i with id := h }

def base? (i : Item) (a : AttributeId) : Option Float := i.attributes[a]?.map Attribute.base

def declares (i : Item) (a : AttributeId) : Bool := i.attributes.contains a

/-- what acts on an attribute; nothing acts on one that is not declared -/
def edges (i : Item) (a : AttributeId) : List Edge :=
  match i.attributes[a]? with
  | some state => state.edges
  | none => []

def hasEffect (i : Item) (e : EffectId) : Bool := i.effects.contains e

def requires (i : Item) (skill : TypeId) : Bool := i.requiredSkills.contains skill

/-- the state of a module; no other item has one that counts -/
def moduleStatus? (i : Item) : Option ModuleStatus :=
  match i.role with
  | .module state => some state.status
  | _ => none

/-- the charge of a module -/
def charge? (i : Item) : Option Handle :=
  match i.role with
  | .module state => state.charge
  | _ => none

/-- the module of a charge -/
def owner? (i : Item) : Option Handle :=
  match i.role with
  | .charge owner _ => some owner
  | _ => none

/-- the mutations of a module or a stack of drones -/
def mutations? (i : Item) : Option Mutations :=
  match i.role with
  | .module state => some state.mutations
  | .drone state => some state.mutations
  | _ => none

section
variable (i : Item) (h : Handle)

@[simp] theorem charge?_withId : (i.withId h).charge? = i.charge? := rfl

@[simp] theorem owner?_withId : (i.withId h).owner? = i.owner? := rfl

end

/-- the item with other base values in the place of its own -/
def withBases (i : Item) (values : Map AttributeId Float) : Item :=
  { i with
    attributes :=
      values.toList.foldl (fun m (a, value) => m.insert a { base := value }) i.attributes }

end Item

end Fitting
