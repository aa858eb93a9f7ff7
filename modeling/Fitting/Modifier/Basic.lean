import Fitting.Key
import Fitting.Named
import Fitting.Loadout

/-!
# Modifiers

A modifier says: take the value of one attribute of its source, and combine it by an operation into
an attribute of every item of its domain.

* `Operation.applyOrder`     the nine operations in the order they act;
* `SkillRef.resolve`         a skill may be named as "the source itself";
* `EffectCategory.required`  the state a module has to be in for its effects to count.
-/

namespace Fitting

/-- how a source value is combined into an attribute -/
inductive Operation where
  | preAssign | preMul | preDiv | modAdd | modSub | postMul | postDiv | postPercent | postAssign
deriving DecidableEq, Repr

namespace Operation

/-- the operations in the order their groups act on a value -/
def applyOrder : List Operation :=
  [.preAssign, .preMul, .preDiv, .modAdd, .modSub, .postMul, .postDiv, .postPercent, .postAssign]

instance : Named Operation where
  alternatives := applyOrder
  name
    | .preAssign => "preAssign"
    | .preMul => "preMul"
    | .preDiv => "preDiv"
    | .modAdd => "modAdd"
    | .modSub => "modSub"
    | .postMul => "postMul"
    | .postDiv => "postDiv"
    | .postPercent => "postPercent"
    | .postAssign => "postAssign"

/-- the place of an operation in `applyOrder` -/
def index : Operation → Nat
  | .preAssign => 0
  | .preMul => 1
  | .preDiv => 2
  | .modAdd => 3
  | .modSub => 4
  | .postMul => 5
  | .postDiv => 6
  | .postPercent => 7
  | .postAssign => 8

theorem applyOrder_getElem?_index (op : Operation) : applyOrder[op.index]? = some op := by
  cases op <;> rfl

/-- assignments replace a value, and create an attribute the target does not have -/
def isAssign : Operation → Bool
  | .preAssign | .postAssign => true
  | _ => false

end Operation

/-- the skill a domain is restricted to -/
inductive SkillRef where
  | type (skill : TypeId)
  /-- the type of the item the modifier belongs to -/
  | source
deriving DecidableEq, Repr

namespace SkillRef

/-- the code that stands for the source -/
def sourceCode : Int32 := -1

def ofCode (code : Int32) : SkillRef := if code = sourceCode then .source else .type ⟨code⟩

/-- the skill meant, for a modifier of an item of type `sourceType` -/
def resolve (s : SkillRef) (sourceType : TypeId) : TypeId :=
  match s with
  | .type skill => skill
  | .source => sourceType

end SkillRef

/-- the items a modifier acts on -/
inductive Domain where
  /-- the item the modifier belongs to -/
  | item
  | ship
  | pilot
  /-- the charge of a module, the module of a charge -/
  | other
  /-- every item of the fit -/
  | location
  /-- every item of a group -/
  | locationGroup (group : GroupId)
  /-- every item that requires a skill -/
  | requiredSkill (skill : SkillRef)
deriving DecidableEq, Repr

/-- a modifier as its description states it, not yet tied to an effect -/
structure RawModifier where
  operation : Operation
  domain : Domain
  modified : AttributeId
  modifying : AttributeId
deriving DecidableEq, Repr

/-- when an effect runs -/
inductive EffectCategory where
  | passive | active | target | area | online | overload | dungeon | system
  /-- a code without a meaning to the engine -/
  | unknown (code : Int32)
deriving DecidableEq, Repr

namespace EffectCategory

def code : EffectCategory → Int32
  | .passive => 0
  | .active => 1
  | .target => 2
  | .area => 3
  | .online => 4
  | .overload => 5
  | .dungeon => 6
  | .system => 7
  | .unknown code => code

def ofCode (code : Int32) : EffectCategory :=
  if code = 0 then .passive
  else if code = 1 then .active
  else if code = 2 then .target
  else if code = 3 then .area
  else if code = 4 then .online
  else if code = 5 then .overload
  else if code = 6 then .dungeon
  else if code = 7 then .system
  else .unknown code

instance : Named EffectCategory where
  alternatives := [.passive, .active, .target, .area, .online, .overload, .dungeon, .system,
    .unknown 0]
  name
    | .passive => "passive"
    | .active => "active"
    | .target => "target"
    | .area => "area"
    | .online => "online"
    | .overload => "overload"
    | .dungeon => "dungeon"
    | .system => "system"
    | .unknown _ => "unknown"

/-- the least state of a module at which its effects of this category count -/
def required : EffectCategory → ModuleStatus
  | .online => .online
  | .active | .target => .active
  | .overload => .overloaded
  | .passive | .area | .dungeon | .system | .unknown _ => .offline

end EffectCategory

/-- of several buffs of one kind on one attribute only one counts -/
inductive AggregateMode where
  /-- the largest value counts -/
  | maximum
  /-- the smallest value counts -/
  | minimum
  /-- the value of largest magnitude counts -/
  | default
deriving DecidableEq, Repr, Inhabited

namespace AggregateMode

instance : Named AggregateMode where
  alternatives := [.maximum, .minimum, .default]
  name
    | .maximum => "maximum"
    | .minimum => "minimum"
    | .default => "default"

end AggregateMode

/-- the warfare buff a modifier comes from -/
structure DbuffTag where
  dbuff : DbuffId
  mode : AggregateMode
deriving DecidableEq, Repr

/-- a modifier tied to the effect it comes from and the type that carries the effect -/
structure Modifier extends RawModifier where
  sourceType : TypeId
  effect : EffectId
  category : EffectCategory
  dbuff : Option DbuffTag
deriving DecidableEq, Repr

/-- modifiers of synthetic effects come from warfare buffs -/
def Modifier.isDbuff (m : Modifier) : Bool := m.effect.isSynthetic

end Fitting
