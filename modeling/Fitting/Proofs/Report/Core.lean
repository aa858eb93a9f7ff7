import Fitting.Proofs.Fit.Core
import Fitting.Proofs.Fit.Silence
import Fitting.Proofs.Report.Mirror
import Fitting.Report.Digest

/-!
# What a report takes over as it is

The core of a fit has the same values, so the report of a loadout's core is the core of its report.
Loadouts with one core give reports that agree in every item and in the digest.

* `Fit.resolveAll_core`        the core of a fit has the values of the fit;
* `Engine.simulate_core`       a simulation of the core gives the core of the report;
* `Engine.simulate_details`    details do not reach a value.
-/

namespace Fitting

/-! ### values -/

namespace Fit
variable (f : Fit) (catalog : Catalog) (rules : Rules)

theorem edges_core (c : Cell) : f.core.edges c = f.edges c := by
  unfold edges
  rw [get?_core]
  cases f.get? c.item <;> rfl

theorem baseValue_core (c : Cell) : f.core.baseValue catalog c = f.baseValue catalog c := by
  unfold baseValue base?
  rw [get?_core]
  cases f.get? c.item <;> rfl

theorem isActive_core : f.core.isActive = f.isActive := by
  funext e
  unfold isActive
  rw [get?_core]
  cases f.get? e.source with
  | none => rfl
  | some item => simp

theorem resolveAll_core : f.core.resolveAll catalog = f.resolveAll catalog := by
  have absent : ∀ h, f.core.get? h = none ↔ f.get? h = none := by
    intro h
    rw [get?_core, Option.map_eq_none_iff]
  have value : ∀ c, f.core.value catalog [] c = f.value catalog [] c := fun c =>
    funext (value_congr absent f.edges_core f.isActive_core (f.baseValue_core catalog) [] c)
  have each : ∀ i, f.core.itemValues catalog (Item.core i) = f.itemValues catalog i := by
    intro i
    unfold itemValues
    simp only [value]
    rfl
  have rest : f.core.resolveRest catalog = f.resolveRest catalog := by
    have items : f.core.items.toList = f.items.toList.map Item.core := Array.toList_map
    unfold resolveRest
    rw [items, List.mapM_map]
    simp only [Function.comp_def, each]
    rfl
  exact congrArg (fun run : StateM Cache Values => (run ∅).1) rest

theorem propulsionModule?_core : f.core.propulsionModule? rules = f.propulsionModule? rules := by
  unfold propulsionModule?
  refine congrArg (List.find? · f.modules) (funext fun h => ?_)
  rw [get?_core]
  cases f.get? h with
  | none => rfl
  | some item =>
    show isPropulsion rules item.core = isPropulsion rules item
    unfold isPropulsion
    rw [item.moduleStatus?_core]
    rfl

theorem correct_core (values : Values) :
    f.core.correct catalog rules values = f.correct catalog rules values := by
  have mutations : f.core.applyMutations values = f.applyMutations values := by
    have mutation : ∀ h, (f.core.get? h).bind Item.mutations? =
        (f.get? h).bind Item.mutations? := by
      intro h
      rw [get?_core]
      cases f.get? h with
      | none => rfl
      | some item => exact item.mutations?_core
    unfold applyMutations
    simp only [mutation]
    rfl
  unfold correct applyPropulsion
  rw [mutations, propulsionModule?_core]

end Fit

/-! ### reports -/

def ResolvedCharge.core (c : ResolvedCharge) : ResolvedCharge := { c with quantity := 1 }

def ResolvedModule.core (m : ResolvedModule) : ResolvedModule :=
  { m with rack := .medium, quantity := 1, charge := m.charge.map ResolvedCharge.core }

def ResolvedSquad.core (q : ResolvedSquad) : ResolvedSquad :=
  { q with quantity := 1, status := .online }

namespace Report

/-- the report without the details that it takes over from its loadout as they are -/
def core (r : Report) : Report :=
  { r with
    modules := r.modules.map ResolvedModule.core
    drones := r.drones.map ResolvedSquad.core
    fighters := r.fighters.map ResolvedSquad.core }

theorem items_core (r : Report) : r.core.items = r.items := by
  have loaded : ∀ m : ResolvedModule, m.core.item ::
      (m.core.charge.map ResolvedCharge.item).toList =
      m.item :: (m.charge.map ResolvedCharge.item).toList := by
    intro m
    unfold ResolvedModule.core
    cases m.charge <;> rfl
  unfold items core
  simp only [List.flatMap_map, List.map_map, loaded]
  rfl

/-- looked at in another way a report has the same items, looked at in that way -/
theorem items_map {ν μ : Type} (look : ν → μ) (r : Report ν) :
    (r.map look).items = r.items.map (ResolvedItem.map look) := by
  have loaded : ∀ m : ResolvedModule ν,
      (m.map look).item :: ((m.map look).charge.map ResolvedCharge.item).toList =
        (m.item :: (m.charge.map ResolvedCharge.item).toList).map (ResolvedItem.map look) := by
    intro m
    unfold ResolvedModule.map
    cases m.charge <;> rfl
  unfold items map
  simp only [List.map_append, List.map_cons, List.map_map, List.flatMap_map, List.map_flatMap,
    loaded]
  rfl

/-- reports with one core have the same items, and the digest is taken of the items -/
theorem agree_of_core {r r' : Report} (same : r.core = r'.core) :
    r.items = r'.items ∧ r.digest = r'.digest := by
  have items : r.items = r'.items := by
    rw [← r.items_core, same, r'.items_core]
  refine ⟨items, ?_⟩
  unfold digest patternDigest record patterns
  rw [items_map, items_map, items]

variable (catalog : Catalog) (f : Fit) (values : Values)

theorem charge?_core (h : Handle) :
    charge? catalog f.core values h = (charge? catalog f values h).map ResolvedCharge.core := by
  unfold charge?
  rw [f.get?_core]
  cases f.get? h with
  | none => rfl
  | some item =>
    obtain ⟨role⟩ := item
    cases role <;> rfl

theorem module?_core (h : Handle) :
    module? catalog f.core values h = (module? catalog f values h).map ResolvedModule.core := by
  unfold module?
  rw [f.get?_core]
  cases f.get? h with
  | none => rfl
  | some item =>
    obtain ⟨role⟩ := item
    cases role with
    | module state =>
      have loaded : state.charge.bind (charge? catalog f.core values) =
          (state.charge.bind (charge? catalog f values)).map ResolvedCharge.core := by
        rw [Option.map_bind]
        exact congrArg _ (funext fun c => charge?_core catalog f values c)
      show some (ResolvedModule.mk _ _ _ _ (state.charge.bind _)) = _
      rw [loaded]
      rfl
    | _ => rfl

theorem squad?_core (h : Handle) :
    squad? catalog f.core values h = (squad? catalog f values h).map ResolvedSquad.core := by
  unfold squad?
  rw [f.get?_core]
  cases f.get? h with
  | none => rfl
  | some item =>
    obtain ⟨role⟩ := item
    cases role <;> rfl

theorem skill?_core (h : Handle) : skill? catalog f.core values h = skill? catalog f values h := by
  unfold skill?
  rw [f.get?_core]
  cases f.get? h with
  | none => rfl
  | some item =>
    obtain ⟨role⟩ := item
    cases role <;> rfl

theorem ofFit_core : ofFit catalog f.core values = (ofFit catalog f values).core := by
  have hull : f.core.hullItem = f.hullItem.core := Array.getElem_map ..
  have pilot : f.core.pilotItem = f.pilotItem.core := Array.getElem_map ..
  have implants : (fun h => (f.core.get? h).map (resolved catalog values)) =
      fun h => (f.get? h).map (resolved catalog values) := by
    funext h
    rw [f.get?_core]
    cases f.get? h <;> rfl
  have modules : module? catalog f.core values = fun h =>
      (module? catalog f values h).map ResolvedModule.core :=
    funext (module?_core catalog f values)
  have squads : squad? catalog f.core values = fun h =>
      (squad? catalog f values h).map ResolvedSquad.core :=
    funext (squad?_core catalog f values)
  have skills : skill? catalog f.core values = skill? catalog f values :=
    funext (skill?_core catalog f values)
  unfold ofFit core
  rw [hull, pilot, implants, modules, squads, skills]
  simp only [List.map_filterMap]
  rfl

end Report

namespace Engine
variable (g : Engine) (s : Sources) (l : Loadout)

theorem run_core (a : Assembly) :
    g.report (g.run { a with fit := a.fit.core }) = (g.report (g.run a)).core := by
  have fit : (g.run { a with fit := a.fit.core }).fit = (g.run a).fit.core :=
    a.fit.applyModifiers_core _ _ _
  rw [report_run, report_run, fit, Fit.resolveAll_core, Fit.correct_core, Report.ofFit_core]

/-- the core of a loadout has the core of its report -/
theorem simulate_core : g.simulate s l.core = (g.simulate s l).map Report.core := by
  have assembly : assemble s l.core g.rules =
      (assemble s l g.rules).map fun a => { a with fit := a.fit.core } := by
    obtain ⟨types, effects, attributes, dbuffs⟩ := s
    unfold assemble Assembly.ofRows
    rw [l.participants_core]
    simp only [TypeSheets.fit_core]
    cases types with
    | none => rfl
    | some types =>
      cases effects <;> rfl
  unfold simulate stages
  rw [assembly]
  cases assemble s l g.rules with
  | error e => rfl
  | ok a => exact congrArg Except.ok (g.run_core a)

/-- of loadouts that differ in racks, in quantities, and in the states of drones and fighters, the
reports agree in all items: in their values by number and by name, their names and their effects -/
theorem simulate_details (s : Snapshot) {l l' : Loadout} (same : l.core = l'.core) :
    ∃ report report', g.simulate s.sources l = .ok report ∧ g.simulate s.sources l' = .ok report' ∧
      report.items = report'.items ∧ report.digest = report'.digest ∧
        report.core = report'.core := by
  have run := g.simulate_sources s l
  have run' := g.simulate_sources s l'
  have cores : (g.simulate s.sources l).map Report.core =
      (g.simulate s.sources l').map Report.core := by
    rw [← g.simulate_core, ← g.simulate_core, same]
  rw [run, run'] at cores
  have core := Except.ok.inj cores
  obtain ⟨items, digest⟩ := Report.agree_of_core core
  exact ⟨_, _, run, run', items, digest, core⟩

/-- a loaded module with drones and fighters, all in the same number -/
def armed (rack : Rack) (quantity : UInt32) (status : ModuleStatus) : Loadout where
  hull := ⟨100⟩
  modules :=
    [{ type := ⟨200⟩, rack, quantity, status := .active,
       charge := some { type := ⟨300⟩, quantity } }]
  drones := [{ type := ⟨400⟩, quantity, status }]
  fighters := [{ type := ⟨500⟩, quantity, status }]

/-- the module acts on the hull whatever its rack -/
theorem simulate_details_armed : (armed .high 1 .offline).core = (armed .rig 7 .overloaded).core ∧
    ∃ report report', bareEngine.simulate declaring.sources (armed .high 1 .offline) = .ok report ∧
      bareEngine.simulate declaring.sources (armed .rig 7 .overloaded) = .ok report' ∧
      report.items = report'.items ∧ report.digest = report'.digest := by
  have same : (armed .high 1 .offline).core = (armed .rig 7 .overloaded).core := rfl
  obtain ⟨report, report', run, run', items, digest, -⟩ :=
    simulate_details bareEngine declaring same
  exact ⟨same, report, report', run, run', items, digest⟩

end Engine

end Fitting
