import Fitting.Proofs.Fit.Corrections
import Fitting.Proofs.Fit.Silence
import Fitting.Proofs.Report.Mirror
import Fitting.Proofs.Resolution.Plain

/-!
# Values that nothing changes

Where no active edge acts on an attribute and no correction is meant for it, the report shows the
value that the item was assembled with, or the default of the catalog if the attribute was declared
by an assignment only.

* `resolveAll_idle`       a cell without active edges resolves to its base value;
* `Report.get?_items`     a report shows the corrected value of a cell;
* `simulate_untouched`    so a cell that nothing changes keeps its base value to the end.
-/

namespace Fitting

/-- a cell that no active edge acts on resolves to its base value, whether inactive ones do or
not -/
theorem Fit.resolveAll_idle {f : Fit} (numbered : f.Numbered) {catalog : Catalog} {c : Cell}
    {v : Float} (idle : ∀ e ∈ f.edges c, f.isActive e = false)
    (found : (f.resolveAll catalog).get? c = some v) :
    v = f.baseValue catalog c := by
  have alone : f.sources c = [] := by
    have inactive : (f.edges c).filter f.isActive = [] :=
      List.filter_eq_nil_iff.mpr fun e he => Bool.not_eq_true _ ▸ idle e he
    rw [sources, inactive]
    rfl
  have off : f.OffCycles c := by
    rw [offCycles_iff, alone]
    intro d hd
    cases hd
  have declared : c ∈ f.declared :=
    (f.isSome_resolveAll_get? catalog c).mp (Option.isSome_of_eq_some found)
  obtain ⟨item, hi, -⟩ := (mem_declared numbered).mp declared
  have present : f.get? c.item ≠ none := Option.ne_none_iff_exists'.mpr ⟨item, hi⟩
  have value : (f.resolveAll catalog).get? c = some (f.plain catalog c off) :=
    f.resolveRest_plain catalog off declared (f.plain_empty catalog)
  calc v = f.plain catalog c off := Option.some.inj (found.symm.trans value)
    _ = f.baseValue catalog c := plain_idle off present alone

theorem Report.items_zero (r : Report) : r.items[0]? = some r.hull := rfl

/-- the item at a position of a report has the values of the handle at that position -/
theorem Report.get?_items {catalog : Catalog} {f : Fit} {values : Values} {l : Loadout}
    {rules : Rules} (laid : f.LaidOut l rules) {k : Nat} {item : ResolvedItem}
    (hk : (ofFit catalog f values).items[k]? = some item) (a : AttributeId) :
    item.get? a = values.get? ⟨⟨k⟩, a⟩ := by
  rw [items_ofFit laid, List.getElem?_map, Option.map_eq_some_iff] at hk
  obtain ⟨stands, hi, rfl⟩ := hk
  have id : stands.id = ⟨k⟩ := laid.numbered ⟨k⟩ stands (Array.getElem?_toList.symm.trans hi)
  rw [← id]
  exact Values.getElem?_row values stands.id a

namespace Engine

/-- a simulation that succeeds has gone through all stages -/
theorem stages_of_simulate {g : Engine} {s : Sources} {l : Loadout} {report : Report}
    (run : g.simulate s l = .ok report) :
    ∃ a, assemble s l g.rules = .ok a ∧ g.stages s l = .ok (g.run a) ∧
      report = g.report (g.run a) := by
  unfold simulate stages at *
  cases assembled : assemble s l g.rules with
  | error e =>
    rw [assembled] at run
    cases run
  | ok a =>
    rw [assembled] at run
    exact ⟨a, rfl, rfl, (Except.ok.inj run).symm⟩

/-- an attribute that no active edge acts on and no correction is meant for keeps the value that the
item was assembled with; the default is what it has if the item was assembled without it -/
theorem simulate_untouched (g : Engine) (s : Sources) (l : Loadout) {report : Report}
    (run : g.simulate s l = .ok report) :
    ∃ sim, g.stages s l = .ok sim ∧ report = g.report sim ∧
      ∀ (k : Nat) (item : ResolvedItem) (a : AttributeId) (v : Float),
        report.items[k]? = some item → item.get? a = some v →
        (∀ e ∈ sim.fit.edges ⟨⟨k⟩, a⟩, sim.fit.isActive e = false) →
          sim.fit.Uncorrected g.rules ⟨⟨k⟩, a⟩ →
        v = (sim.assembly.fit.base? ⟨⟨k⟩, a⟩).getD (g.catalog.default a) := by
  obtain ⟨assembly, assembled, stages, rfl⟩ := stages_of_simulate run
  refine ⟨g.run assembly, stages, rfl, fun k item a v hk hv idle uncorrected => ?_⟩
  have laid : (g.run assembly).fit.LaidOut l g.rules :=
    (Fit.LaidOut.of_assemble assembled).attachAll g.catalog _
  have corrected : (g.run assembly).corrected.get? ⟨⟨k⟩, a⟩ = some v :=
    (Report.get?_items laid hk a).symm.trans hv
  have resolved : ((g.run assembly).fit.resolveAll g.catalog).get? ⟨⟨k⟩, a⟩ = some v :=
    (Fit.get?_correct uncorrected).symm.trans corrected
  calc v = (g.run assembly).fit.baseValue g.catalog ⟨⟨k⟩, a⟩ :=
    Fit.resolveAll_idle laid.numbered idle resolved
    _ = assembly.fit.baseValue g.catalog ⟨⟨k⟩, a⟩ := Fit.baseValue_attachAll _ _ _
    _ = (assembly.fit.base? ⟨⟨k⟩, a⟩).getD (g.catalog.default a) := Fit.baseValue_eq_base _ _ _

/-- the report has values for just the attributes that the hull declares in the end -/
theorem isSome_get?_hull (g : Engine) {assembly : Assembly} (numbered : assembly.fit.Numbered)
    (a : AttributeId) :
    ((g.report (g.run assembly)).hull.get? a).isSome ↔
      (g.run assembly).fit.hullItem.declares a := by
  have attached : (g.run assembly).fit.Numbered := numbered.attachAll g.catalog _
  have id : (g.run assembly).fit.hullItem.id = Fit.hull := attached _ _ (Fit.get?_hull _)
  have resolved := (g.run assembly).fit.mem_resolveAll g.catalog (a := a) attached
    (g.run assembly).fit.get?_hull
  have corrected := (g.run assembly).fit.mem_correct (a := a) (h := Fit.hull) g.catalog g.rules
    ((g.run assembly).fit.resolveAll g.catalog)
  rw [← id] at corrected resolved
  exact Std.ExtTreeMap.isSome_getElem?_iff_mem.trans (corrected.trans resolved)

/-- an engine with a default for the attribute 50 -/
def seedingEngine : Engine := ⟨.ofList [{ id := ⟨50⟩, name := "speed", defaultValue := 4.0 }], {}⟩

theorem default_seedingEngine : seedingEngine.catalog.default ⟨50⟩ = 4.0 := rfl

/-- the stages of a simulation with an offline module that assigns to an attribute which its hull
does not have -/
def seeded : Simulation :=
  seedingEngine.run ((assigner []).assembly withOfflineModule seedingEngine.rules)

/-- the assignment is inactive, so the hull has the default -/
theorem simulate_untouched_seeded : ∃ report,
    seedingEngine.simulate (assigner []).sources withOfflineModule = .ok report ∧
    seedingEngine.stages (assigner []).sources withOfflineModule = .ok seeded ∧
    report.items[0]? = some report.hull ∧
    seeded.fit.edges ⟨⟨0⟩, ⟨50⟩⟩ ≠ [] ∧
    (∀ e ∈ seeded.fit.edges ⟨⟨0⟩, ⟨50⟩⟩, seeded.fit.isActive e = false) ∧
    seeded.fit.Uncorrected seedingEngine.rules ⟨⟨0⟩, ⟨50⟩⟩ ∧
    report.hull.get? ⟨50⟩ = some 4.0 := by
  have run : seedingEngine.simulate (assigner []).sources withOfflineModule =
      .ok (seedingEngine.report seeded) :=
    seedingEngine.simulate_sources _ _
  have stages : seedingEngine.stages (assigner []).sources withOfflineModule = .ok seeded :=
    seedingEngine.stages_sources _ _
  have acted : seeded.fit.edges ⟨⟨0⟩, ⟨50⟩⟩ ≠ [] := by decide +kernel
  have idle : ∀ e ∈ seeded.fit.edges ⟨⟨0⟩, ⟨50⟩⟩, seeded.fit.isActive e = false := by decide +kernel
  have unmutated : ((seeded.fit.get? ⟨0⟩).bind Item.mutations?).isNone := by decide +kernel
  have uncorrected : seeded.fit.Uncorrected seedingEngine.rules ⟨⟨0⟩, ⟨50⟩⟩ := by
    constructor
    · intro _ _ mutations own
      rw [own] at unmutated
      cases unmutated
    · intro _ _ velocity
      exact absurd (congrArg Cell.attr velocity) (by decide)
  have declared : seeded.fit.hullItem.declares ⟨50⟩ := by decide +kernel
  obtain ⟨v, found⟩ := Option.isSome_iff_exists.mp
    ((seedingEngine.isSome_get?_hull (Snapshot.numbered_assembly _ _ _) ⟨50⟩).mpr declared)
  obtain ⟨sim, ran, -, untouched⟩ := simulate_untouched _ _ _ run
  obtain rfl : seeded = sim := Except.ok.inj (stages.symm.trans ran)
  have base : (seeded.assembly.fit.base? ⟨⟨0⟩, ⟨50⟩⟩).isNone := by decide +kernel
  have default := untouched 0 (seedingEngine.report seeded).hull ⟨50⟩ v
    (Report.items_zero _) found idle uncorrected
  rw [Option.isNone_iff_eq_none.mp base, Option.getD_none, default_seedingEngine] at default
  refine ⟨_, run, stages, Report.items_zero _, acted, idle, uncorrected, ?_⟩
  rw [← default]
  exact found

end Engine

end Fitting
