import Fitting.Simulation
import Fitting.Proofs.Fit.Attached
import Fitting.Proofs.Resolution.Gating

/-!
# Fits that differ in their edges only

* `ext_state`          a fit is made of its lists, its items without their attributes, and its
                       cells;
* `state?_mapEdges`    a cell with other edges;
* `resolveAll_congr`   fits with the same active edges resolve to the same values;
* `correct_mapEdges`   corrections do not look at edges;
* `ofFit_mapEdges`     nor does the report.
-/

namespace Fitting

@[simp] theorem Item.shell_mapEdges (i : Item) (change : AttributeId → List Edge → List Edge) :
    (i.mapEdges change).shell = i.shell := rfl

theorem Item.ext_shell {i j : Item} (shell : i.shell = j.shell)
    (cells : ∀ a : AttributeId, i.attributes[a]? = j.attributes[a]?) : i = j := by
  have ha : i.attributes = j.attributes := Std.ExtTreeMap.ext_getElem? fun a => cells a
  cases i
  cases j
  simp_all [Item.shell]

namespace Fit

/-- a fit is made of its lists, its items without their attributes, and its cells -/
theorem ext_state {f g : Fit} (shells : ∀ h, (f.get? h).map Item.shell = (g.get? h).map Item.shell)
    (cells : ∀ c, f.get? c.item ≠ none → f.state? c = g.state? c) (modules : f.modules = g.modules)
    (drones : f.drones = g.drones) (fighters : f.fighters = g.fighters)
    (implants : f.implants = g.implants) (skills : f.skills = g.skills) : f = g := by
  refine ext_get? (fun h => ?_) modules drones fighters implants skills
  have hs := shells h
  cases hf : f.get? h with
  | none =>
    rw [hf] at hs
    exact (Option.map_eq_none_iff.mp hs.symm).symm
  | some i =>
    rw [hf, Option.map_some] at hs
    obtain ⟨j, hg, hj⟩ := Option.map_eq_some_iff.mp hs.symm
    rw [hg]
    refine congrArg some (Item.ext_shell hj.symm fun a => ?_)
    have hc := cells ⟨h, a⟩ (by simp [hf])
    rwa [state?_of_get? (c := ⟨h, a⟩) hf, state?_of_get? (c := ⟨h, a⟩) hg] at hc

section
variable (f : Fit) (change : Cell → List Edge → List Edge)

theorem shell_mapEdges (h : Handle) :
    ((f.mapEdges change).get? h).map Item.shell = (f.get? h).map Item.shell := by
  rw [get?_mapEdges, Option.map_map]
  rfl

theorem state?_mapEdges (c : Cell) : (f.mapEdges change).state? c =
    (f.state? c).map (fun state => { state with edges := change c state.edges }) := by
  unfold state?
  rw [get?_mapEdges]
  cases f.get? c.item with
  | none => rfl
  | some item => exact item.getElem?_mapEdges _ c.attr

variable {f change} {catalog : Catalog}

/-- fits with the same active edges resolve to the same values -/
theorem resolveAll_congr (same : (f.mapEdges change).prune = f.prune) :
    (f.mapEdges change).resolveAll catalog = f.resolveAll catalog := by
  unfold resolveAll
  refine congrArg (fun run : StateM Cache Values => (run ∅).1) (resolveRest_congr fun c => ?_)
  -- inactive edges have no say in a value
  rw [← value_nil_prune, same, value_nil_prune]

/-! ### corrections and reports -/

theorem mutations?_mapEdges (h : Handle) : ((f.mapEdges change).get? h).bind Item.mutations?
    = (f.get? h).bind Item.mutations? := by
  rw [get?_mapEdges]
  cases f.get? h <;> rfl

theorem propulsionModule?_mapEdges (rules : Rules) :
    (f.mapEdges change).propulsionModule? rules = f.propulsionModule? rules := by
  unfold propulsionModule?
  refine congrArg (List.find? · f.modules) (funext fun h => ?_)
  rw [get?_mapEdges]
  cases f.get? h <;> rfl

theorem correct_mapEdges (rules : Rules) (values : Values) :
    (f.mapEdges change).correct catalog rules values = f.correct catalog rules values := by
  have mutations : ∀ values, (f.mapEdges change).applyMutations values =
      f.applyMutations values := by
    intro values
    unfold applyMutations
    simp only [mutations?_mapEdges]
    rfl
  unfold correct applyPropulsion
  simp only [mutations, propulsionModule?_mapEdges]

end

end Fit

namespace Report
variable {catalog : Catalog} {f : Fit} {change : Cell → List Edge → List Edge} {values : Values}

theorem charge?_mapEdges :
    charge? catalog (f.mapEdges change) values = charge? catalog f values := by
  funext h
  unfold charge?
  rw [Fit.get?_mapEdges]
  cases f.get? h <;> rfl

theorem module?_mapEdges :
    module? catalog (f.mapEdges change) values = module? catalog f values := by
  funext h
  unfold module?
  rw [Fit.get?_mapEdges, charge?_mapEdges]
  cases f.get? h <;> rfl

theorem squad?_mapEdges : squad? catalog (f.mapEdges change) values = squad? catalog f values := by
  funext h
  unfold squad?
  rw [Fit.get?_mapEdges]
  cases f.get? h <;> rfl

theorem skill?_mapEdges : skill? catalog (f.mapEdges change) values = skill? catalog f values := by
  funext h
  unfold skill?
  rw [Fit.get?_mapEdges]
  cases f.get? h <;> rfl

theorem ofFit_mapEdges : ofFit catalog (f.mapEdges change) values = ofFit catalog f values := by
  have implants : (fun h => ((f.mapEdges change).get? h).map (resolved catalog values))
      = fun h => (f.get? h).map (resolved catalog values) := by
    funext h
    rw [Fit.get?_mapEdges]
    cases f.get? h <;> rfl
  have hull : (f.mapEdges change).hullItem = f.hullItem.mapEdges (fun a => change ⟨⟨0⟩, a⟩) :=
    Array.getElem_mapIdx ..
  have pilot : (f.mapEdges change).pilotItem = f.pilotItem.mapEdges (fun a => change ⟨⟨1⟩, a⟩) :=
    Array.getElem_mapIdx ..
  unfold ofFit
  rw [implants, module?_mapEdges, squad?_mapEdges, skill?_mapEdges, hull, pilot]
  rfl

end Report

end Fitting
