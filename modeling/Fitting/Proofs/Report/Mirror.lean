import Fitting.Proofs.Fit.Blocks
import Fitting.Proofs.Fit.Arranged
import Fitting.Proofs.Fit.Corrections

/-!
# A report mirrors its loadout

A report is made from the handles that a fit lists.  It names all that the loadout names, and the
values of an item are those of the attributes that it declares.

* `Report.Mirrors`     the report names what the loadout names, in the same order;
* `mirrors_ofFit`      a report of a fit that is laid out as its loadout says mirrors the loadout;
* `items_ofFit`        its items are those of the fit in their order;
* `mem_resolveAll`     the attributes that have a value are those that the item declares;
* `simulate_mirrors`   so the report of a simulation mirrors its loadout.
-/

namespace Fitting

/-! ### a report read back -/

def ResolvedCharge.spec (c : ResolvedCharge) : ChargeSpec where
  type := c.item.type
  quantity := c.quantity

/-- a module as a loadout names it.  A report says nothing of mutations. -/
def ResolvedModule.spec (m : ResolvedModule) : ModuleSpec where
  type := m.item.type
  rack := m.rack
  quantity := m.quantity
  status := m.status
  charge := m.charge.map ResolvedCharge.spec

def ResolvedSquad.droneSpec (q : ResolvedSquad) : DroneSpec where
  type := q.item.type
  quantity := q.quantity
  status := q.status

def ResolvedSquad.fighterSpec (q : ResolvedSquad) : FighterSpec where
  type := q.item.type
  quantity := q.quantity
  status := q.status

/-- the report names what the loadout names, in the same order -/
structure Report.Mirrors (r : Report) (l : Loadout) (rules : Rules) : Prop where
  hull : r.hull.type = l.hull
  pilot : r.pilot.type = rules.pilotType
  modules : r.modules.map ResolvedModule.spec = l.modules.map fun m => { m with mutations := ∅ }
  drones : r.drones.map ResolvedSquad.droneSpec = l.drones.map fun d => { d with mutations := ∅ }
  fighters : r.fighters.map ResolvedSquad.fighterSpec = l.fighters
  implants : r.implants.map ResolvedItem.type = l.implants
  skills : r.skills.map (fun s => (s.item.type, s.level)) = l.pilot.skills.toList
  ascending : r.skills.Pairwise fun s t => compare s.item.type t.item.type = .lt

namespace Report
variable {catalog : Catalog} {f : Fit} {values : Values}

/-! ### what a report says of a handle -/

theorem charge?_of_place {h owner : Handle} {item : Item} {load : ChargeSpec}
    (hi : f.get? h = some item) (hp : item.place = ⟨load.type, .charge owner load.quantity⟩) :
    (charge? catalog f values h).map ResolvedCharge.spec = some load := by
  have role : item.role = .charge owner load.quantity := congrArg Place.role hp
  have type : item.type = load.type := congrArg Place.type hp
  unfold charge?
  rw [hi]
  simp [role, ResolvedCharge.spec, resolved, ResolvedItem.ofItem, type]

theorem module?_of_stands {m : ModuleSpec} {n : Nat} (stands : f.Stands n (m.places n)) :
    (module? catalog f values ⟨n⟩).map ResolvedModule.spec = some { m with mutations := ∅ } := by
  obtain ⟨⟨item, hi, hp⟩, rest⟩ := Fit.Stands.cons stands
  have role : item.role = _ := congrArg Place.role hp
  have type : item.type = m.type := congrArg Place.type hp
  have loaded : ((m.charge.map fun _ => (⟨n + 1⟩ : Handle)).bind (charge? catalog f values)).map
      ResolvedCharge.spec = m.charge := by
    cases hc : m.charge with
    | none => rfl
    | some load =>
      rw [hc] at rest
      obtain ⟨⟨charge, hg, hq⟩, -⟩ := Fit.Stands.cons rest
      exact charge?_of_place hg hq
  unfold module?
  rw [hi]
  simp [role, ResolvedModule.spec, resolved, ResolvedItem.ofItem, type, loaded]

theorem filterMap_module? (ms : List ModuleSpec) : ∀ n, f.Stands n (modulePlaces n ms) →
    (handlesOf .module n (modulePlaces n ms)).filterMap
      (fun h => (module? catalog f values h).map ResolvedModule.spec) =
      ms.map fun m => { m with mutations := ∅ } := by
  induction ms with
  | nil => exact fun _ _ => rfl
  | cons m ms ih =>
    intro n stands
    have parts : f.Stands n (m.places n ++ modulePlaces (n + (m.places n).length) ms) := stands
    obtain ⟨first, rest⟩ := parts.append
    rw [handlesOf_modulePlaces_cons, List.filterMap_cons, module?_of_stands first, ih _ rest]
    rfl

/-! ### the lists of a report -/

section
variable {l : Loadout} {rules : Rules} (blocks : f.Blocks l rules)
include blocks

theorem modules_ofFit : (ofFit catalog f values).modules.map ResolvedModule.spec =
    l.modules.map fun m => { m with mutations := ∅ } := by
  show (f.modules.filterMap (module? catalog f values)).map _ = _
  rw [List.map_filterMap, blocks.modules.1, filterMap_module? _ _ blocks.modules.2]

theorem drones_ofFit : (ofFit catalog f values).drones.map ResolvedSquad.droneSpec =
    l.drones.map fun d => { d with mutations := ∅ } := by
  show (f.drones.filterMap (squad? catalog f values)).map _ = _
  rw [List.map_filterMap, blocks.drones.1]
  refine Fit.Stands.filterMap_span DroneSpec.place _ (fun h item d hi hp => ?_) _ _ blocks.drones.2
  have role : item.role = _ := congrArg Place.role hp
  have type : item.type = d.type := congrArg Place.type hp
  simp [squad?, hi, role, DroneSpec.place, ResolvedSquad.droneSpec, resolved, ResolvedItem.ofItem,
    type]

theorem fighters_ofFit :
    (ofFit catalog f values).fighters.map ResolvedSquad.fighterSpec = l.fighters := by
  show (f.fighters.filterMap (squad? catalog f values)).map _ = _
  rw [List.map_filterMap, blocks.fighters.1, Fit.Stands.filterMap_span FighterSpec.place id
    (fun h item q hi hp => ?_) _ _ blocks.fighters.2, List.map_id]
  have role : item.role = _ := congrArg Place.role hp
  have type : item.type = q.type := congrArg Place.type hp
  simp [squad?, hi, role, FighterSpec.place, ResolvedSquad.fighterSpec, resolved,
    ResolvedItem.ofItem, type]

theorem implants_ofFit : (ofFit catalog f values).implants.map ResolvedItem.type = l.implants := by
  show (f.implants.filterMap _).map _ = _
  rw [List.map_filterMap, blocks.implants.1, Fit.Stands.filterMap_span implantPlace id
    (fun h item t hi hp => ?_) _ _ blocks.implants.2, List.map_id]
  have type : item.type = t := congrArg Place.type hp
  simp [hi, resolved, ResolvedItem.ofItem, type]

theorem skills_ofFit : (ofFit catalog f values).skills.map (fun s => (s.item.type, s.level)) =
    l.pilot.skills.toList := by
  show (f.skills.filterMap (skill? catalog f values)).map _ = _
  rw [List.map_filterMap, blocks.skills.1, Fit.Stands.filterMap_span skillPlace id
    (fun h item trained hi hp => ?_) _ _ blocks.skills.2, List.map_id]
  have role : item.role = .skill trained.2 := congrArg Place.role hp
  have type : item.type = trained.1 := congrArg Place.type hp
  simp [skill?, hi, role, resolved, ResolvedItem.ofItem, type]

/-- a report of a fit that is laid out as its loadout says mirrors the loadout -/
theorem mirrors_ofFit : (ofFit catalog f values).Mirrors l rules := by
  obtain ⟨⟨hull, hget, hplace⟩, rest⟩ := Fit.Stands.cons blocks.anchors
  obtain ⟨⟨pilot, pget, pplace⟩, -⟩ := Fit.Stands.cons rest
  have hullItem : f.hullItem = hull := Option.some.inj (f.get?_hull.symm.trans hget)
  have pilotItem : f.pilotItem = pilot := Option.some.inj (f.get?_pilot.symm.trans pget)
  have skills : (ofFit catalog f values).skills.map (fun s => (s.item.type, s.level)) =
      l.pilot.skills.toList := skills_ofFit blocks
  refine ⟨?_, ?_, modules_ofFit blocks, drones_ofFit blocks, fighters_ofFit blocks,
    implants_ofFit blocks, skills, ?_⟩
  · show f.hullItem.type = _
    rw [hullItem]
    exact congrArg Place.type hplace
  · show f.pilotItem.type = _
    rw [pilotItem]
    exact congrArg Place.type pplace
  · have ordered : ((ofFit catalog f values).skills.map (fun s => (s.item.type, s.level))).Pairwise
        fun s t => compare s.1 t.1 = .lt := by
      rw [skills]
      exact Std.ExtTreeMap.ordered_keys_toList
    exact List.pairwise_map.mp ordered

end

/-! ### the items of a report -/

variable (catalog f values) in
/-- an item of the fit with its values -/
def item? (h : Handle) : Option ResolvedItem := (f.get? h).map (resolved catalog values)

section
variable {h : Handle} {item : Item} (hi : f.get? h = some item)
include hi

theorem item_charge? (kind : item.kind = .charge) :
    (charge? catalog f values h).map ResolvedCharge.item = item? catalog f values h := by
  obtain ⟨role⟩ := item
  cases role <;> simp_all [charge?, item?, Item.kind, Role.kind]

theorem item_squad? (kind : item.kind = .drone ∨ item.kind = .fighter) :
    (squad? catalog f values h).map ResolvedSquad.item = item? catalog f values h := by
  obtain ⟨role⟩ := item
  cases role <;> simp_all [squad?, item?, Item.kind, Role.kind]

theorem item_skill? (kind : item.kind = .skill) :
    (skill? catalog f values h).map ResolvedSkill.item = item? catalog f values h := by
  obtain ⟨role⟩ := item
  cases role <;> simp_all [skill?, item?, Item.kind, Role.kind]

theorem items_module? (paired : f.Paired) (kind : item.kind = .module) :
    (module? catalog f values h).toList.flatMap
      (fun m => m.item :: (m.charge.map ResolvedCharge.item).toList) =
      (f.withCharge h).filterMap (item? catalog f values) := by
  have loaded : (item.charge?.bind (charge? catalog f values)).map ResolvedCharge.item =
      item.charge?.bind (item? catalog f values) := by
    cases hc : item.charge? with
    | none => rfl
    | some c =>
      have owned : (f.get? c).bind Item.owner? = some h :=
        (paired h c).mp (by rw [hi, Option.bind_some, hc])
      obtain ⟨charge, hget, howner⟩ := Option.bind_eq_some_iff.mp owned
      exact item_charge? hget (Item.kind_of_owner? howner)
  have rest : item.charge?.toList.filterMap (item? catalog f values) =
      (item.charge?.bind (item? catalog f values)).toList := by
    rw [List.filterMap_eq_flatMap_toList]
    cases item.charge? <;> simp
  obtain ⟨role⟩ := item
  cases role <;> simp_all [module?, Fit.withCharge, item?, Item.kind, Role.kind, Item.charge?]

end

theorem items_ofFit {l : Loadout} {rules : Rules} (hf : f.LaidOut l rules) :
    (ofFit catalog f values).items = f.items.toList.map (resolved catalog values) := by
  have listed : ∀ k h, h ∈ f.listed k → ∃ item, f.get? h = some item ∧ item.kind = k :=
    fun k h => (hf.sorted.mem_listed k h).mp
  have modules : (f.modules.filterMap (module? catalog f values)).flatMap
      (fun m => m.item :: (m.charge.map ResolvedCharge.item).toList) =
      (f.modules.flatMap f.withCharge).filterMap (item? catalog f values) := by
    rw [List.filterMap_flatMap, List.filterMap_eq_flatMap_toList, List.flatMap_assoc]
    refine List.flatMap_congr fun h hm => ?_
    obtain ⟨item, hi, kind⟩ := listed .module h hm
    exact items_module? hi hf.paired kind
  have drones : (f.drones.filterMap (squad? catalog f values)).map ResolvedSquad.item =
      f.drones.filterMap (item? catalog f values) := by
    rw [List.map_filterMap]
    refine List.filterMap_congr fun h hm => ?_
    obtain ⟨item, hi, kind⟩ := listed .drone h hm
    exact item_squad? hi (.inl kind)
  have fighters : (f.fighters.filterMap (squad? catalog f values)).map ResolvedSquad.item =
      f.fighters.filterMap (item? catalog f values) := by
    rw [List.map_filterMap]
    refine List.filterMap_congr fun h hm => ?_
    obtain ⟨item, hi, kind⟩ := listed .fighter h hm
    exact item_squad? hi (.inr kind)
  have skills : (f.skills.filterMap (skill? catalog f values)).map ResolvedSkill.item =
      f.skills.filterMap (item? catalog f values) := by
    rw [List.map_filterMap]
    refine List.filterMap_congr fun h hm => ?_
    obtain ⟨item, hi, kind⟩ := listed .skill h hm
    exact item_skill? hi kind
  have items : f.items.toList.map (resolved catalog values) =
      f.handles.filterMap (item? catalog f values) := by
    rw [← f.map_snd_entries, ← f.map_fst_entries, List.filterMap_map, List.map_map,
      ← List.filterMap_eq_map]
    refine List.filterMap_congr fun (h, item) hm => ?_
    simp [item?, Fit.mem_entries.mp hm]
  have anchors : [resolved catalog values f.hullItem, resolved catalog values f.pilotItem]
      = [Fit.hull, Fit.pilot].filterMap (item? catalog f values) := by
    simp [item?, f.get?_hull, f.get?_pilot]
  rw [items, ← hf.walk]
  simp only [List.filterMap_append, ← modules, ← drones, ← fighters, ← skills, ← anchors]
  rfl

end Report

/-! ### the attributes of an item -/

namespace Fit
variable {a : AttributeId} {h : Handle}

variable (f : Fit) (catalog : Catalog)

theorem mem_resolveAll (numbered : f.Numbered) {item : Item} (hi : f.get? h = some item) :
    a ∈ (f.resolveAll catalog)[h]?.getD ∅ ↔ item.declares a := by
  have valued := f.isSome_resolveAll_get? catalog ⟨h, a⟩
  rw [← Std.ExtTreeMap.isSome_getElem?_iff_mem, Values.getElem?_row, valued, mem_declared numbered]
  simp [hi]

end Fit

/-! ### the whole run -/

/-- the report of a simulation mirrors its loadout: it names what the loadout names, its items are
those of the fit in their order, and each has values for the attributes that it declares there -/
theorem Engine.simulate_mirrors (g : Engine) (types : ItemTypeSource) (effects : EffectSource)
    (attributes : Option AttributeSource) (dbuffs : Option DbuffSource) (l : Loadout) :
    ∃ sim report,
      g.stages { types := some types, effects := some effects, attributes, dbuffs } l = .ok sim ∧
      g.simulate { types := some types, effects := some effects, attributes, dbuffs } l =
        .ok report ∧
      report.Mirrors l g.rules ∧
      report.items = sim.fit.items.toList.map (Report.resolved g.catalog sim.corrected) ∧
      ∀ h item, sim.fit.get? h = some item →
        ∀ a, a ∈ (Report.resolved g.catalog sim.corrected item).attributes ↔ item.declares a := by
  obtain ⟨a, ha, laid⟩ := laidOut_assemble types effects attributes dbuffs l g.rules
  have run : g.stages { types := some types, effects := some effects, attributes, dbuffs } l =
      .ok (g.run a) := by
    unfold stages
    rw [ha]
    rfl
  have report : g.simulate { types := some types, effects := some effects, attributes, dbuffs } l =
      .ok (g.report (g.run a)) := by
    unfold simulate
    rw [run]
    rfl
  have attached : (g.run a).fit.LaidOut l g.rules := laid.attachAll g.catalog _
  refine ⟨_, _, run, report, Report.mirrors_ofFit attached.blocks, Report.items_ofFit attached,
    fun h item hi b => ?_⟩
  obtain rfl := attached.numbered h item hi
  have resolved : b ∈ (g.run a).resolved[item.id]?.getD ∅ ↔ item.declares b :=
    (g.run a).fit.mem_resolveAll g.catalog attached.numbered hi
  have corrected : b ∈ (g.run a).corrected[item.id]?.getD ∅ ↔
      b ∈ (g.run a).resolved[item.id]?.getD ∅ :=
    (g.run a).fit.mem_correct g.catalog g.rules _
  exact corrected.trans resolved

end Fitting
