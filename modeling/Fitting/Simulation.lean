import Fitting.Fit.Assembly
import Fitting.Fit.Attachment
import Fitting.Fit.Correction
import Fitting.Report.Basic

/-!
# Simulations

An `Engine` holds what all simulations share: the attribute catalog and the rules.  A simulation
assembles the fit of a loadout, attaches the modifiers of its items, resolves all values, corrects
them and reports the result.
-/

namespace Fitting

/-- what all simulations share -/
structure Engine where
  catalog : Catalog
  rules : Rules

/-- all stages of a simulation, up to the report -/
structure Simulation where
  assembly : Assembly
  index : ModifierIndex
  /-- the fit with all modifiers attached -/
  fit : Fit
  /-- the number of edges attached -/
  attached : Nat
  resolved : Values
  corrected : Values

namespace Engine

/-- an engine with the attribute definitions of a source -/
def ofSources (s : Sources) (rules : Rules) : Except SourceError Engine := do
  let source ← s.attributes?
  return { catalog := .ofList source.definitions, rules }

/-- the stages after assembly -/
def run (g : Engine) (assembly : Assembly) : Simulation :=
  let index := .ofEffects assembly.effects assembly.dbuffs assembly.typeEffects.toList
  let (fit, attached) := assembly.fit.applyModifiers index g.catalog g.rules
  let resolved := fit.resolveAll g.catalog
  let corrected := fit.correct g.catalog g.rules resolved
  { assembly, index, fit, attached, resolved, corrected }

/-- all stages of a simulation; fails only if a source it needs is missing -/
def stages (g : Engine) (s : Sources) (l : Loadout) : Except SourceError Simulation := do
  return g.run (← assemble s l g.rules)

def report (g : Engine) (s : Simulation) : Report := .ofFit g.catalog s.fit s.corrected

def simulate (g : Engine) (s : Sources) (l : Loadout) : Except SourceError Report := do
  return g.report (← g.stages s l)

end Engine

end Fitting
