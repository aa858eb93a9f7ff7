import Fitting.Simulation
import Fitting.Proofs.Tables
import Fitting.Proofs.Fit.Attached

/-!
# The fit before anything is attached

* `Every`              what holds of every item of a fit;
* `addModule_eq`       a module that is fitted empty and then told its charge is as if it had named
                       the charge from the beginning;
* `TypeSheets.every`   what holds of the item of each type, and goes on to hold under any id and
                       with other base values, holds of every item of the assembled fit;
* `Collected`          so every item has the effects of its type and no edges yet;
* `edges_assembly`     nothing acts on any cell before the modifiers are attached;
* `stages_sources`     with a snapshot for its sources a simulation always has a result.
-/

namespace Fitting

/-! ### every item -/

namespace Fit

/-- what holds of every item of a fit -/
def Every (P : Item → Prop) (f : Fit) : Prop := ∀ h item, f.get? h = some item → P item

section
variable {P : Item → Prop} {f : Fit} {item : Item}

theorem every_bare {hull pilot : Item} (hh : P (hull.withId ⟨0⟩)) (hp : P (pilot.withId ⟨1⟩)) :
    (bare hull pilot).Every P := by
  rintro ⟨i⟩ item h
  have hm : item ∈ [hull.withId ⟨0⟩, pilot.withId ⟨1⟩] :=
    List.mem_of_getElem? (i := i) (by simpa [get?, bare] using h)
  rcases List.mem_pair.mp hm with rfl | rfl
  · exact hh
  · exact hp

theorem Every.push (hf : f.Every P) (hi : P (item.withId f.next)) : (f.push item).Every P := by
  intro h other ho
  rw [get?_push] at ho
  split at ho
  · exact Option.some.inj ho ▸ hi
  · exact hf h other ho

theorem Every.foldl {ι : Type} {add : Fit → ι → Fit} (hf : f.Every P)
    (hadd : ∀ f i, f.Every P → (add f i).Every P) (l : List ι) : (l.foldl add f).Every P :=
  List.foldlRecOn l add hf fun f hf i _ => hadd f i hf

end

end Fit

/-! ### the items of a loadout -/

/-- a module is as if it had named its charge from the beginning -/
theorem TypeSheets.addModule_eq (s : TypeSheets) (f : Fit) (m : ModuleSpec) : s.addModule f m =
    let fitted := f.pushModule (s.item m.type (.module
      { rack := m.rack
        quantity := m.quantity
        status := m.status
        charge := m.charge.map fun _ => ⟨f.size + 1⟩
        mutations := m.mutations }))
    m.charge.elim fitted fun load =>
      fitted.pushCharge (s.item load.type (.charge f.next load.quantity)) := by
  unfold addModule
  cases m.charge with
  | none => rfl
  | some load =>
    have after : ∀ item, (f.push item).next = ⟨f.size + 1⟩ := fun item =>
      congrArg Handle.mk (f.size_push item)
    have apart : f.next ≠ ⟨f.size + 1⟩ := fun h => Nat.succ_ne_self _ (congrArg Handle.index h).symm
    refine Fit.ext_get? (fun h => ?_) rfl rfl rfl rfl rfl
    show (Fit.modify ((f.push _).push _) f.next _).get? h = ((f.push _).push _).get? h
    simp only [Fit.get?_modify, Fit.get?_push, after]
    by_cases module : h = f.next
    · subst module
      have charge : ∀ item, (f.pushModule item).next = ⟨f.size + 1⟩ := after
      rw [if_pos rfl, if_neg apart, if_neg apart, if_pos rfl, if_pos rfl, charge]
      rfl
    · rw [if_neg (Ne.symm module), if_neg module, if_neg module]

/-- nothing acts on any of the attributes -/
def EdgeFree (attributes : Map AttributeId Attribute) : Prop :=
  ∀ (a : AttributeId) (state : Attribute), attributes[a]? = some state → state.edges = []

namespace EdgeFree
variable {attributes : Map AttributeId Attribute}

theorem insert (h : EdgeFree attributes) (a : AttributeId) (base : Float) :
    EdgeFree (attributes.insert a { base := base }) := by
  intro b state hs
  rw [Std.ExtTreeMap.getElem?_insert] at hs
  split at hs
  · rw [← Option.some.inj hs]
  · exact h b state hs

theorem fillGap (h : EdgeFree attributes) (gap : AttributeId × Option Float) :
    EdgeFree (TypeSheets.fillGap attributes gap) := by
  obtain ⟨a, value⟩ := gap
  cases value with
  | none => exact h
  | some value =>
    intro b state hs
    have hs' : (attributes.insertIfNew a { base := value })[b]? = some state := hs
    rw [Std.ExtTreeMap.getElem?_insertIfNew] at hs'
    split at hs'
    · rw [← Option.some.inj hs']
    · exact h b state hs'

end EdgeFree

/-- an item as it is assembled: with the effects of its type, and nothing acts on it yet -/
structure TypeSheets.Collected (s : TypeSheets) (item : Item) : Prop where
  effects : item.effects = s.effects[item.type]?.getD []
  edgeFree : EdgeFree item.attributes

namespace TypeSheets
variable (s : TypeSheets)

/-- what holds of the item of each type, and goes on to hold under any id and with other base
values, holds of every item of a fit -/
theorem every {P : Item → Prop} (types : ∀ type role, P (s.item type role))
    (ids : ∀ (item : Item) (h : Handle), P item → P (item.withId h))
    (bases : ∀ item values, P item → P (item.withBases values))
    (levels : ∀ (item : Item) (a : AttributeId) (base : Float), P item →
      P { item with attributes := item.attributes.insert a { base := base } })
    (l : Loadout) (rules : Rules) : (s.fit l rules).Every P := by
  have modules : ∀ f spec, f.Every P → (s.addModule f spec).Every P := by
    intro f spec hf
    rw [s.addModule_eq]
    dsimp only
    cases spec.charge with
    | none => exact hf.push (ids _ _ (types _ _))
    | some load =>
      exact Fit.Every.push (f := f.pushModule _) (hf.push (ids _ _ (types _ _)))
        (ids _ _ (types _ _))
  have drones : ∀ f spec, f.Every P → (s.addDrone f spec).Every P :=
    fun f spec hf => hf.push (ids _ _ (types _ _))
  have fighters : ∀ f spec, f.Every P → (s.addFighter f spec).Every P :=
    fun f spec hf => hf.push (ids _ _ (types _ _))
  have implants : ∀ f type, f.Every P → (s.addImplant f type).Every P :=
    fun f type hf => hf.push (ids _ _ (types _ _))
  have skills : ∀ f trained, f.Every P → (s.addSkill f trained).Every P :=
    fun f trained hf => hf.push (ids _ _ (levels _ _ _ (types _ _)))
  have bare : (Fit.bare (s.item l.hull .hull) (s.pilot l rules)).Every P :=
    Fit.every_bare (ids _ _ (types _ _)) (ids _ _ (bases _ _ (types _ _)))
  exact ((((bare.foldl modules _).foldl drones _).foldl fighters _).foldl implants _).foldl skills _

theorem edgeFree_baseAttributes (type : TypeId) : EdgeFree (s.baseAttributes type) := by
  have stated : EdgeFree
      ((s.attributes[type]?.getD ∅).map (fun _ value => ({ base := value } : Attribute))) := by
    intro a state h
    rw [Std.ExtTreeMap.getElem?_map] at h
    obtain ⟨value, _, rfl⟩ := Option.map_eq_some_iff.mp h
    rfl
  unfold baseAttributes
  dsimp only
  split
  · exact stated
  · exact List.foldlRecOn _ _ stated fun m h gap _ => h.fillGap gap

theorem collected (l : Loadout) (rules : Rules) : (s.fit l rules).Every s.Collected := by
  refine s.every (fun type role => ⟨rfl, s.edgeFree_baseAttributes type⟩)
    (fun item h collected => ⟨collected.effects, collected.edgeFree⟩) (fun item values h => ?_)
    (fun item a base h => ⟨h.effects, h.edgeFree.insert a base⟩) l rules
  exact ⟨h.effects, List.foldlRecOn _ _ h.edgeFree fun m h row _ => h.insert row.1 row.2⟩

/-- nothing acts on a cell of the fit -/
theorem edges_of_state_fit {l : Loadout} {rules : Rules} {c : Cell} {state : Attribute}
    (h : (s.fit l rules).state? c = some state) : state.edges = [] := by
  obtain ⟨item, hi, ha⟩ := Option.bind_eq_some_iff.mp h
  exact (s.collected l rules _ _ hi).edgeFree _ _ ha

theorem edges_fit (l : Loadout) (rules : Rules) (c : Cell) : (s.fit l rules).edges c = [] := by
  rw [Fit.edges_eq_state]
  cases h : (s.fit l rules).state? c with
  | none => rfl
  | some state => exact s.edges_of_state_fit h

end TypeSheets

/-! ### the assembly -/

namespace Assembly
variable (l : Loadout) (rules : Rules) (types : ItemTypeSource) (effects : EffectSource)
  (rows : List DbuffRow)

/-- the first row of a warfare buff is what its synthetic effect stands for -/
theorem dbuffs_ofRows (key : EffectId) : (ofRows l rules types effects rows).dbuffs[key]? =
    (rows.find? (fun row => row.effect = key)).map DbuffRow.tag := by
  show ((Map.firstRows DbuffRow.effect id rows).map (fun _ row => row.tag))[key]? = _
  rw [Std.ExtTreeMap.getElem?_map, Map.getElem?_firstRows, Option.map_map]
  rfl

/-- a synthetic effect is defined by the first row of its warfare buff, whatever the effects say -/
theorem effects_ofRows (key : EffectId) : (ofRows l rules types effects rows).effects[key]? =
    ((rows.find? (fun row => row.effect = key)).map DbuffRow.definition).or
      (Map.lastRows EffectDefinition.id id (effects.definitions (effectKeys
        (effectsByType (effects.links (l.participants rules))))))[key]? := by
  refine (Map.getElem?_overlay (Map.firstRows DbuffRow.effect id rows) DbuffRow.definition
    _ key).trans ?_
  rw [Map.getElem?_firstRows, Option.map_map]
  rfl

end Assembly

/-- what is assembled with a snapshot for all sources -/
def Snapshot.assembly (s : Snapshot) (l : Loadout) (rules : Rules) : Assembly :=
  .ofRows l rules s.typeSource s.effectSource (s.dbuffSource.collections (l.participants rules))

section
variable {s : Snapshot} {l : Loadout} {rules : Rules}

theorem Snapshot.effects_assembly : (s.assembly l rules).fit.Every fun item =>
    item.effects = (s.assembly l rules).typeEffects[item.type]?.getD [] :=
  fun h item hi => (TypeSheets.collected _ l rules h item hi).effects

theorem Snapshot.edges_of_state_assembly {c : Cell} {state : Attribute}
    (h : (s.assembly l rules).fit.state? c = some state) : state.edges = [] :=
  TypeSheets.edges_of_state_fit _ h

theorem Snapshot.edges_assembly (c : Cell) : (s.assembly l rules).fit.edges c = [] :=
  TypeSheets.edges_fit _ l rules c

end

namespace Engine

/-- with a snapshot for its sources a simulation has a result -/
theorem stages_sources (g : Engine) (s : Snapshot) (l : Loadout) :
    g.stages s.sources l = .ok (g.run (s.assembly l g.rules)) := rfl

theorem simulate_sources (g : Engine) (s : Snapshot) (l : Loadout) :
    g.simulate s.sources l = .ok (g.report (g.run (s.assembly l g.rules))) := rfl

theorem report_run (g : Engine) (a : Assembly) :
    g.report (g.run a) = Report.ofFit g.catalog (g.run a).fit
    ((g.run a).fit.correct g.catalog g.rules ((g.run a).fit.resolveAll g.catalog)) := rfl

end Engine

/-- an engine that knows no attribute definitions -/
def bareEngine : Engine := ⟨.empty, {}⟩

end Fitting
