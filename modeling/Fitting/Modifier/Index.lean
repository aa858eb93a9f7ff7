import Fitting.Modifier.Description
import Fitting.Reference.Rows

/-!
# The modifiers of every item type

`ModifierIndex.ofEffects` decodes the descriptions of the effects that item types carry, each
description once, and files the modifiers under their effect and under their type.

* `forType`     the modifiers of a type, effect after effect in the order of its effect list;
* `forEffect`   the modifiers of an effect, not tied to a type.
-/

namespace Fitting

/-- the modifiers a description states; entries that cannot be decoded are dropped -/
def statedModifiers (description : String) : List RawModifier :=
  (decodeDescription description).filterMap Except.toOption

/-- modifiers by effect and by item type -/
structure ModifierIndex where
  byEffect : Map EffectId (List RawModifier)
  byType : Map TypeId (List Modifier)

namespace ModifierIndex

def empty : ModifierIndex := ⟨∅, ∅⟩

def forEffect (x : ModifierIndex) (e : EffectId) : List RawModifier := x.byEffect[e]?.getD []

def forType (x : ModifierIndex) (t : TypeId) : List Modifier := x.byType[t]?.getD []

/-- the number of modifiers over all types -/
def size (x : ModifierIndex) : Nat := x.byType.values.flatten.length

def isEmpty (x : ModifierIndex) : Bool := x.byType.values.all List.isEmpty

/-- a stated modifier tied to an effect of a type -/
def tie (type : TypeId) (effect : EffectDefinition) (key : EffectId) (dbuff : Option DbuffTag)
    (m : RawModifier) : Modifier :=
  { m with sourceType := type, effect := key, category := effect.category, dbuff }

section
variable (effects : Map EffectId EffectDefinition) (dbuffs : Map EffectId DbuffTag)

/-- the modifiers that the effects of a type give it, and the descriptions decoded so far -/
def decodeList (type : TypeId) (decoded : Map EffectId (List RawModifier)) (keys : List EffectId) :
    Map EffectId (List RawModifier) × List Modifier :=
  keys.foldl
    (fun (decoded, modifiers) key =>
      match effects[key]? with
      | none => (decoded, modifiers)
      | some effect =>
        match effect.description with
        | none => (decoded, modifiers)
        | some description =>
          let stated := match decoded[key]? with
            | some stated => stated
            | none => statedModifiers description
          (decoded.insertIfNew key stated,
            modifiers ++ stated.map (tie type effect key dbuffs[key]?)))
    (decoded, [])

/-- the index with one more type and its effects -/
def addType (x : ModifierIndex) (type : TypeId) (keys : List EffectId) : ModifierIndex :=
  let (byEffect, modifiers) := decodeList effects dbuffs type x.byEffect keys
  let byType :=
    if modifiers.isEmpty then x.byType
    else x.byType.alter type (fun filed => some (filed.getD [] ++ modifiers))
  ⟨byEffect, byType⟩

/-- the index of types and their effect lists -/
def ofEffects (lists : List (TypeId × List EffectId)) : ModifierIndex :=
  lists.foldl (fun x (type, keys) => x.addType effects dbuffs type keys) empty

end

end ModifierIndex

end Fitting
