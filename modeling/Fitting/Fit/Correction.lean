import Fitting.Rules
import Fitting.Fit.Resolution

/-!
# Corrections after resolution

Two corrections act on resolved values.  Mutations multiply the attributes of individual modules and
drones; after them the propulsion module, if there is one, speeds the hull up against its mass.
-/

namespace Fitting.Fit

/-- the values of one item with its mutations applied; attributes it does not have stay absent -/
def mutate (mutations : Mutations) (resolved : Map AttributeId Float) : Map AttributeId Float :=
  mutations.toList.foldl (fun r (a, multiplier) => r.modify a (· * multiplier)) resolved

/-- the values with the mutations of all modules and drones applied -/
def applyMutations (f : Fit) (values : Values) : Values :=
  (f.modules ++ f.drones).foldl
    (fun values h =>
      match (f.get? h).bind Item.mutations? with
      | some mutations => values.modify h (mutate mutations)
      | none => values)
    values

/-- a module that is active at least and carries a propulsion effect -/
def isPropulsion (rules : Rules) (item : Item) : Bool :=
  match item.moduleStatus? with
  | some status => status.satisfies .active && item.effects.any rules.isPropulsion
  | none => false

/-- the first propulsion module in the order of the fit -/
def propulsionModule? (f : Fit) (rules : Rules) : Option Handle :=
  f.modules.find? fun h =>
    match f.get? h with
    | some item => isPropulsion rules item
    | none => false

/-- the value of a cell, the default of its attribute where there is none -/
def valueOr (catalog : Catalog) (values : Values) (c : Cell) : Float :=
  match values[c.item]?.bind (·[c.attr]?) with
  | some value => value
  | none => catalog.default c.attr

/-- how much the propulsion module adds to the velocity of a hull of this mass, in percent -/
def boost (catalog : Catalog) (values : Values) (module : Handle) (mass : Float) : Float :=
  valueOr catalog values ⟨module, .speedBoostFactor⟩ * valueOr catalog values ⟨module, .speedFactor⟩
    / mass

/-- the values with the velocity of the hull raised by the propulsion module; a hull without mass
stays as it is -/
def applyPropulsion (f : Fit) (catalog : Catalog) (rules : Rules) (values : Values) : Values :=
  match f.propulsionModule? rules with
  | none => values
  | some module =>
    let mass := valueOr catalog values ⟨hull, .mass⟩
    if mass == 0.0 then values
    else
      let factor := 1.0 + boost catalog values module mass / 100.0
      values.modify hull (fun resolved => resolved.modify .maxVelocity (· * factor))

/-- the values with every correction applied that the rules ask for -/
def correct (f : Fit) (catalog : Catalog) (rules : Rules) (values : Values) : Values :=
  if rules.corrections then
    let mutated := if rules.applyMutations then f.applyMutations values else values
    f.applyPropulsion catalog rules mutated
  else values

end Fitting.Fit
