import Fitting.Proofs.Fit.ImplantOrder
import Fitting.Proofs.Fit.Inert
import Fitting.Proofs.Report.Mirror

/-!
# Inert items in a report

Corrections and reports read a fit by its lists.  With one more inert item these hold one more
handle, which moves all later ones and is corrected on its own.

* `Joined`           the handles of a list, as they are once an item has been put in;
* `OneMore`          what is left to know of a fit with one more inert item;
* `correct_moved`    corrections change the values of the other items as before;
* `ofFit_insert`     the report has one more item, and nothing else is different;
* `simulate_inert`   so an inert item changes nothing else.
-/

namespace Fitting

/-! ### lists of handles -/

/-- the handles of a list, as they are once an item has been put in at `p`, and perhaps `p` among
them -/
inductive Joined (p : Nat) : List Handle → List Handle → Prop where
  | nil : Joined p [] []
  | old (h : Handle) {hs hs' : List Handle} :
      Joined p hs hs' → Joined p (h :: hs) (h.shift p :: hs')
  | new {hs hs' : List Handle} : Joined p hs hs' → Joined p hs (⟨p⟩ :: hs')

namespace Joined
variable {p : Nat} {hs hs' : List Handle}

theorem map (p : Nat) (hs : List Handle) : Joined p hs (hs.map (Handle.shift p)) := by
  induction hs with
  | nil => exact .nil
  | cons h hs ih => exact .old h ih

theorem insertIdx (p : Nat) (hs : List Handle) :
    ∀ i, Joined p hs ((hs.map (Handle.shift p)).insertIdx i ⟨p⟩) := by
  induction hs with
  | nil =>
    intro i
    cases i with
    | zero => exact .new .nil
    | succ i => exact .nil
  | cons h hs ih =>
    intro i
    cases i with
    | zero => exact .new (map p (h :: hs))
    | succ i => exact .old h (ih i)

theorem append (joined : Joined p hs hs') {ks ks' : List Handle} (rest : Joined p ks ks') :
    Joined p (hs ++ ks) (hs' ++ ks') := by
  induction joined with
  | nil => exact rest
  | old h _ ih => exact .old h ih
  | new _ ih => exact .new ih

theorem find? (joined : Joined p hs hs') {look look' : Handle → Bool}
    (same : ∀ h, look' (h.shift p) = look h) (never : look' ⟨p⟩ = false) :
    hs'.find? look' = (hs.find? look).map (Handle.shift p) := by
  induction joined with
  | nil => rfl
  | old h _ ih =>
    rw [List.find?_cons, List.find?_cons, same]
    cases look h with
    | true => rfl
    | false => exact ih
  | new _ ih =>
    rw [List.find?_cons, never]
    exact ih

theorem foldl {β : Type} (related : β → β → Prop) (joined : Joined p hs hs')
    {change change' : β → Handle → β}
    (same : ∀ b b' h, related b b' → related (change b h) (change' b' (h.shift p)))
    (apart : ∀ b b', related b b' → related b (change' b' ⟨p⟩)) :
    ∀ b b', related b b' → related (hs.foldl change b) (hs'.foldl change' b') := by
  induction joined with
  | nil => exact fun _ _ start => start
  | old h _ ih => exact fun b b' start => ih _ _ (same b b' h start)
  | new _ ih => exact fun b b' start => ih _ _ (apart b b' start)

end Joined

/-! ### values -/

/-- the items have the values that they had, under the handles they have now -/
def Moved (p : Nat) (values values' : Values) : Prop :=
  ∀ h : Handle, values'[h.shift p]? = values[h]?

namespace Moved
variable {p : Nat} {values values' : Values} (moved : Moved p values values')
include moved

theorem modify (k : Handle) (change : Map AttributeId Float → Map AttributeId Float) :
    Moved p (values.modify k change) (values'.modify (k.shift p) change) := by
  intro h
  rw [Std.ExtTreeMap.getElem?_modify, Std.ExtTreeMap.getElem?_modify, moved k]
  have keys : compare (k.shift p) (h.shift p) = .eq ↔ compare k h = .eq := by
    rw [Std.LawfulEqOrd.compare_eq_iff_eq, Std.LawfulEqOrd.compare_eq_iff_eq]
    exact (Handle.shift_injective p).eq_iff
  simp only [keys, moved h]

/-- the values of the new item are those of no other one -/
theorem modify_new (change : Map AttributeId Float → Map AttributeId Float) :
    Moved p values (values'.modify ⟨p⟩ change) := by
  intro h
  have other : compare (⟨p⟩ : Handle) (h.shift p) ≠ .eq :=
    fun he => h.shift_ne (Std.LawfulEqOrd.eq_of_compare he).symm
  rw [Std.ExtTreeMap.getElem?_modify, if_neg other, moved]

theorem valueOr_eq (catalog : Catalog) (h : Handle) (a : AttributeId) :
    Fit.valueOr catalog values' ⟨h.shift p, a⟩ = Fit.valueOr catalog values ⟨h, a⟩ := by
  unfold Fit.valueOr
  dsimp only
  rw [moved]

end Moved

/-! ### a fit with one more inert item -/

namespace Fit

/-- the fit `f'` has one item more than `f`, and this one carries no effect -/
structure OneMore (p i : Nat) (x : Extra) (f f' : Fit) : Prop where
  anchors : 2 ≤ p
  embeds : f.Embeds (Handle.shift p) f'
  listed : ∀ k, f'.listed k = if x.place.kind = k
    then ((f.listed k).map (Handle.shift p)).insertIdx i ⟨p⟩ else (f.listed k).map (Handle.shift p)
  sorted : f.Sorted
  new : ∃ item, f'.get? ⟨p⟩ = some item ∧ item.place = x.place ∧ item.effects = []

namespace OneMore
variable {p i : Nat} {x : Extra} {f f' : Fit} (more : f.OneMore p i x f')
include more

theorem joined (k : Kind) : Joined p (f.listed k) (f'.listed k) := by
  rw [more.listed]
  split
  · exact .insertIdx p _ i
  · exact .map p _

/-! ### corrections -/

variable {catalog : Catalog} {rules : Rules} {values values' : Values}
  (moved : Moved p values values')

theorem propulsionModule?_eq :
    f'.propulsionModule? rules = (f.propulsionModule? rules).map (Handle.shift p) := by
  have looked : ∀ f : Fit, f.propulsionModule? rules =
      f.modules.find? fun h => ((f.get? h).map (isPropulsion rules)).getD false := by
    intro f
    unfold propulsionModule?
    refine congrArg (List.find? · f.modules) (funext fun h => ?_)
    cases f.get? h <;> rfl
  rw [looked, looked]
  refine (more.joined .module).find? (fun h => ?_) ?_
  · have renamed : ∀ item, isPropulsion rules (item.rename (Handle.shift p)) =
        isPropulsion rules item := by
      intro item
      unfold isPropulsion
      rw [Item.moduleStatus?_rename]
      rfl
    rw [more.embeds.map_get? (isPropulsion rules) (fun _ => rfl)]
    simp only [renamed]
  · obtain ⟨item, hi, -, effects⟩ := more.new
    have silent : isPropulsion rules item = false := by
      unfold isPropulsion
      split
      · rw [effects, List.any_nil, Bool.and_false]
      · rfl
    rw [hi, Option.map_some, silent]
    rfl

include moved

theorem applyMutations_moved : Moved p (f.applyMutations values) (f'.applyMutations values') := by
  unfold applyMutations
  have lists := (more.joined .module).append (more.joined .drone)
  refine lists.foldl (Moved p) (fun v v' h moved => ?_) (fun v v' moved => ?_) _ _ moved
  · have mutations : (f'.get? (h.shift p)).bind Item.mutations? =
        (f.get? h).bind Item.mutations? := by
      rw [more.embeds.bind_get? Item.mutations? (fun _ => rfl)]
      exact congrArg _ (funext fun item => item.mutations?_rename _)
    rw [mutations]
    split
    · exact moved.modify h _
    · exact moved
  · split
    · exact moved.modify_new _
    · exact moved

theorem applyPropulsion_moved :
    Moved p (f.applyPropulsion catalog rules values)
      (f'.applyPropulsion catalog rules values') := by
  have mass := moved.valueOr_eq catalog hull .mass
  rw [Handle.shift_hull more.anchors] at mass
  unfold applyPropulsion
  rw [more.propulsionModule?_eq]
  cases f.propulsionModule? rules with
  | none => exact moved
  | some module =>
    dsimp only [Option.map_some]
    unfold boost
    rw [mass, moved.valueOr_eq, moved.valueOr_eq]
    split
    · exact moved
    · have faster := moved.modify hull (fun resolved => resolved.modify .maxVelocity (· *
        (1.0 + boost catalog values module (valueOr catalog values ⟨hull, .mass⟩) / 100.0)))
      rw [Handle.shift_hull more.anchors] at faster
      exact faster

/-- corrections change the values of the other items as before -/
theorem correct_moved :
    Moved p (f.correct catalog rules values) (f'.correct catalog rules values') := by
  unfold correct
  split
  · refine more.applyPropulsion_moved ?_
    split
    · exact more.applyMutations_moved moved
    · exact moved
  · exact moved

end OneMore

end Fit

/-! ### reports -/

/-- one more item, at the position `i` of its list -/
def Report.insert (r : Report) (i : Nat) (item : ResolvedItem) : Extra → Report
  | .module m _ =>
    let fitted : ResolvedModule :=
      { item, rack := m.rack, quantity := m.quantity, status := m.status, charge := none }
    { r with modules := r.modules.insertIdx i fitted }
  | .drone d =>
    { r with drones := r.drones.insertIdx i ⟨item, d.quantity, d.status⟩ }
  | .fighter q =>
    { r with fighters := r.fighters.insertIdx i ⟨item, q.quantity, q.status⟩ }
  | .implant _ => { r with implants := r.implants.insertIdx i item }

theorem filterMap_insertIdx {α β : Type} {look : α → Option β} {a : α} {b : β}
    (new : look a = some b) (as : List α) : (∀ a ∈ as, ∃ b, look a = some b) →
      ∀ i, (as.insertIdx i a).filterMap look = (as.filterMap look).insertIdx i b := by
  induction as with
  | nil =>
    intro _ i
    cases i with
    | zero => exact List.filterMap_cons_some new
    | succ i => rfl
  | cons c as ih =>
    intro found i
    obtain ⟨d, hd⟩ := found c List.mem_cons_self
    have rest := ih fun a ha => found a (List.mem_cons_of_mem c ha)
    cases i with
    | zero => exact List.filterMap_cons_some new
    | succ i =>
      rw [List.insertIdx_succ_cons, List.filterMap_cons_some hd, List.filterMap_cons_some hd,
        List.insertIdx_succ_cons, rest]

/-! ### what a report says of a handle -/

namespace Report
variable {p : Nat} {f f' : Fit} (catalog : Catalog) {values values' : Values}

section
variable (emb : f.Embeds (Handle.shift p) f') (moved : Moved p values values')
include moved

theorem resolved_moved (item : Item) :
    resolved catalog values' (item.rename (Handle.shift p)) = resolved catalog values item := by
  have id : (item.rename (Handle.shift p)).id = item.id.shift p := rfl
  unfold resolved
  rw [id, moved]
  rfl

include emb

theorem item?_moved (h : Handle) :
    item? catalog f' values' (h.shift p) = item? catalog f values h := by
  unfold item?
  rw [emb.map_get? (resolved catalog values') (fun _ => rfl)]
  exact Option.map_congr fun item _ => resolved_moved catalog moved item

theorem charge?_moved (h : Handle) :
    charge? catalog f' values' (h.shift p) = charge? catalog f values h := by
  refine (emb.bind_get? _ (fun _ => rfl) h).trans (congrArg _ (funext fun item => ?_))
  have same := resolved_moved catalog moved item
  obtain ⟨role⟩ := item
  cases role with
  | charge owner quantity => exact congrArg (fun r => some (ResolvedCharge.mk r quantity)) same
  | _ => rfl

theorem module?_moved (h : Handle) :
    module? catalog f' values' (h.shift p) = module? catalog f values h := by
  refine (emb.bind_get? _ (fun _ => rfl) h).trans (congrArg _ (funext fun item => ?_))
  have same := resolved_moved catalog moved item
  obtain ⟨role⟩ := item
  cases role with
  | module state =>
    have loaded : (state.charge.map (Handle.shift p)).bind (charge? catalog f' values') =
        state.charge.bind (charge? catalog f values) := by
      rw [Option.bind_map]
      exact congrArg _ (funext fun c => charge?_moved catalog emb moved c)
    show some (ResolvedModule.mk _ _ _ _ ((state.charge.map _).bind _)) = _
    rw [loaded, same]
  | _ => rfl

theorem squad?_moved (h : Handle) :
    squad? catalog f' values' (h.shift p) = squad? catalog f values h := by
  refine (emb.bind_get? _ (fun _ => rfl) h).trans (congrArg _ (funext fun item => ?_))
  have same := resolved_moved catalog moved item
  obtain ⟨role⟩ := item
  cases role with
  | drone state =>
      exact congrArg (fun r => some (ResolvedSquad.mk r state.quantity state.status)) same
  | fighter quantity status =>
      exact congrArg (fun r => some (ResolvedSquad.mk r quantity status)) same
  | _ => rfl

theorem skill?_moved (h : Handle) :
    skill? catalog f' values' (h.shift p) = skill? catalog f values h := by
  refine (emb.bind_get? _ (fun _ => rfl) h).trans (congrArg _ (funext fun item => ?_))
  have same := resolved_moved catalog moved item
  obtain ⟨role⟩ := item
  cases role with
  | skill level => exact congrArg (fun r => some (ResolvedSkill.mk r level)) same
  | _ => rfl

end

/-! ### the lists of a report -/

section
variable {i : Nat} {x : Extra} (more : f.OneMore p i x f') {β : Type}
  {look look' : Handle → Option β} (same : ∀ h, look' (h.shift p) = look h)
include more same

theorem filterMap_other {k : Kind} (hk : x.place.kind ≠ k) :
    (f'.listed k).filterMap look' = (f.listed k).filterMap look := by
  rw [more.listed, if_neg hk, List.filterMap_map]
  exact congrArg (List.filterMap · _) (funext same)

theorem filterMap_own {b : β} (new : look' ⟨p⟩ = some b)
    (found : ∀ h item, f.get? h = some item → item.kind = x.place.kind → ∃ b, look h = some b) :
    (f'.listed x.place.kind).filterMap look' =
      ((f.listed x.place.kind).filterMap look).insertIdx i b := by
  have each : ∀ h ∈ (f.listed x.place.kind).map (Handle.shift p), ∃ b, look' h = some b := by
    intro h' hm
    obtain ⟨h, listed, rfl⟩ := List.mem_map.mp hm
    obtain ⟨item, hi, kind⟩ := (more.sorted.mem_listed _ h).mp listed
    rw [same]
    exact found h item hi kind
  rw [more.listed, if_pos rfl, filterMap_insertIdx new _ each, List.filterMap_map]
  exact congrArg (fun look => (List.filterMap look _).insertIdx i b) (funext same)

end

section
variable {h : Handle} {item : Item} (hi : f.get? h = some item)
include hi

theorem exists_module? (values : Values) (kind : item.kind = .module) :
    ∃ m, module? catalog f values h = some m := by
  obtain ⟨role⟩ := item
  cases role <;> simp_all [module?, Item.kind, Role.kind]

theorem exists_squad? (values : Values) (kind : item.kind = .drone ∨ item.kind = .fighter) :
    ∃ q, squad? catalog f values h = some q := by
  obtain ⟨role⟩ := item
  cases role <;> simp_all [squad?, Item.kind, Role.kind]

end

/-- the report has one more item, and nothing else is different -/
theorem ofFit_insert {i : Nat} {x : Extra} (more : f.OneMore p i x f')
    (moved : Moved p values values') :
    ∃ item, f'.get? ⟨p⟩ = some item ∧ item.type = x.type ∧ ofFit catalog f' values' =
      (ofFit catalog f values).insert i (resolved catalog values' item) x := by
  obtain ⟨item, hi, hp, -⟩ := more.new
  have type : item.type = x.type := (congrArg Place.type hp).trans x.type_place
  have role : item.role = x.place.role := congrArg Place.role hp
  have items := item?_moved catalog more.embeds moved
  have modules := module?_moved catalog more.embeds moved
  have squads := squad?_moved catalog more.embeds moved
  have skills := skill?_moved catalog more.embeds moved
  have hull : resolved catalog values' f'.hullItem = resolved catalog values f.hullItem := by
    have anchor := items Fit.hull
    rw [Handle.shift_hull more.anchors] at anchor
    simpa [item?, Fit.get?_hull] using anchor
  have pilot : resolved catalog values' f'.pilotItem = resolved catalog values f.pilotItem := by
    have anchor := items Fit.pilot
    rw [Handle.shift_pilot more.anchors] at anchor
    simpa [item?, Fit.get?_pilot] using anchor
  -- the lists of the other kinds
  have otherModules := filterMap_other more modules (k := .module)
  have otherDrones := filterMap_other more squads (k := .drone)
  have otherFighters := filterMap_other more squads (k := .fighter)
  have otherImplants := filterMap_other more items (k := .implant)
  have otherSkills := filterMap_other more skills (k := .skill)
  refine ⟨item, hi, type, ?_⟩
  unfold ofFit Report.insert
  cases x with
  | module m empty =>
    have new : module? catalog f' values' ⟨p⟩ =
        some ⟨resolved catalog values' item, m.rack, m.quantity, m.status, none⟩ := by
      simp [module?, hi, role, Extra.place]
    have own :=
      filterMap_own more modules new fun h item hi kind => exists_module? catalog hi values kind
    simp only [Report.mk.injEq]
    refine ⟨hull, pilot, own, otherDrones ?_, otherFighters ?_, otherImplants ?_,
      otherSkills ?_⟩ <;> rintro ⟨⟩
  | drone d =>
    have new : squad? catalog f' values' ⟨p⟩ =
        some ⟨resolved catalog values' item, d.quantity, d.status⟩ := by
      simp [squad?, hi, role, Extra.place, DroneSpec.place]
    have own := filterMap_own more squads new
      fun h item hi kind => exists_squad? catalog hi values (.inl kind)
    simp only [Report.mk.injEq]
    refine ⟨hull, pilot, otherModules ?_, own, otherFighters ?_, otherImplants ?_,
      otherSkills ?_⟩ <;> rintro ⟨⟩
  | fighter q =>
    have new : squad? catalog f' values' ⟨p⟩ =
        some ⟨resolved catalog values' item, q.quantity, q.status⟩ := by
      simp [squad?, hi, role, Extra.place, FighterSpec.place]
    have own := filterMap_own more squads new
      fun h item hi kind => exists_squad? catalog hi values (.inr kind)
    simp only [Report.mk.injEq]
    refine ⟨hull, pilot, otherModules ?_, otherDrones ?_, own, otherImplants ?_,
      otherSkills ?_⟩ <;> rintro ⟨⟩
  | implant t =>
    have new : item? catalog f' values' ⟨p⟩ = some (resolved catalog values' item) := by
      simp [item?, hi]
    have own := filterMap_own more items new fun h item hi _ => ⟨_, congrArg (Option.map _) hi⟩
    simp only [Report.mk.injEq]
    refine ⟨hull, pilot, otherModules ?_, otherDrones ?_, otherFighters ?_, own,
      otherSkills ?_⟩ <;> rintro ⟨⟩

end Report

/-! ### the whole run -/

namespace Engine
variable (g : Engine) (s : Snapshot)

theorem laidOut_run (l : Loadout) : (g.run (s.assembly l g.rules)).fit.LaidOut l g.rules :=
  (TypeSheets.laidOut_fit _ l g.rules).attachAll g.catalog _

variable {s} {l : Loadout} {i : Nat} {x : Extra} {before after : List Place}

/-- the simulated fit has one more item -/
theorem oneMore_run (split : l.Split g.rules i x before after) (inert : s.Inert x.type) :
    (g.run (s.assembly l g.rules)).fit.OneMore before.length i x
      (g.run (s.assembly (l.insert i x) g.rules)).fit where
  anchors := split.anchors
  embeds := embeds_insert split g inert
  listed := Fit.listed_insert split (g.laidOut_run s l) (g.laidOut_run s (l.insert i x))
  sorted := (g.laidOut_run s l).sorted
  new := by
    have new := (Snapshot.inserted_assembly split inert).get?_new
    have type : ((s.newItem l g.rules i x).withId ⟨before.length⟩).type = x.type :=
      s.type_newItem ..
    have effects : ((s.newItem l g.rules i x).withId ⟨before.length⟩).effects = [] := by
      refine (Snapshot.effects_assembly _ _ new).trans ?_
      rw [type, Snapshot.typeEffects_of_inert inert]
    have shell :
        ((g.run (s.assembly (l.insert i x) g.rules)).fit.get? ⟨before.length⟩).map Item.shell =
        some ((s.newItem l g.rules i x).withId ⟨before.length⟩).shell := by
      refine (Fit.shell_attachAll _ _ _).trans ?_
      rw [new]
      rfl
    obtain ⟨item, hi, same⟩ := Option.map_eq_some_iff.mp shell
    exact ⟨item, hi, (congrArg Item.place same).trans (s.place_newItem l g.rules i x),
      (congrArg Item.effects same).trans effects⟩

/-- an inert item that is put into a loadout has no part in the values of the other items: the
report of the simulation has one more item, and nothing else is different -/
theorem simulate_inert (g : Engine) (s : Snapshot) (l : Loadout) (i : Nat) (x : Extra)
    (bound : i ≤ l.count x) (inert : s.Inert x.type)
    (acyclic : (g.run (s.assembly l g.rules)).fit.Acyclic) :
    ∃ sim sim' report report' item p,
      g.stages s.sources l = .ok sim ∧ g.stages s.sources (l.insert i x) = .ok sim' ∧
      g.simulate s.sources l = .ok report ∧ g.simulate s.sources (l.insert i x) = .ok report' ∧
      item.type = x.type ∧ report' = report.insert i item x ∧
      Report.item? g.catalog sim'.fit sim'.corrected ⟨p⟩ = some item ∧
      ∀ h : Handle, Report.item? g.catalog sim'.fit sim'.corrected (h.shift p) =
        Report.item? g.catalog sim.fit sim.corrected h := by
  obtain ⟨before, after, split⟩ := l.exists_split g.rules bound
  have more := g.oneMore_run split inert
  have resolved : Moved before.length ((g.run (s.assembly l g.rules)).fit.resolveAll g.catalog)
      ((g.run (s.assembly (l.insert i x) g.rules)).fit.resolveAll g.catalog) :=
    more.embeds.resolveAll_eq acyclic
  have corrected : Moved before.length (g.run (s.assembly l g.rules)).corrected
      (g.run (s.assembly (l.insert i x) g.rules)).corrected := more.correct_moved resolved
  obtain ⟨item, hi, type, report⟩ := Report.ofFit_insert g.catalog more corrected
  exact ⟨_, _, _, _, _, before.length, g.stages_sources s l, g.stages_sources s (l.insert i x),
    g.simulate_sources s l, g.simulate_sources s (l.insert i x), type, report,
    congrArg (Option.map _) hi, Report.item?_moved g.catalog more.embeds corrected⟩

/-- a fighter of a type that nothing is known of, before the two implants -/
theorem simulate_inert_fighter : 0 ≤ assigningFirst.count (.fighter { type := ⟨900⟩ }) ∧
    (twoImplants [⟨⟨100⟩, ⟨50⟩, 1.0⟩]).Inert ⟨900⟩ ∧
    (bareEngine.run
      ((twoImplants [⟨⟨100⟩, ⟨50⟩, 1.0⟩]).assembly assigningFirst bareEngine.rules)).fit.Acyclic ∧
    ∃ report report',
      bareEngine.simulate (twoImplants [⟨⟨100⟩, ⟨50⟩, 1.0⟩]).sources assigningFirst = .ok report ∧
      bareEngine.simulate (twoImplants [⟨⟨100⟩, ⟨50⟩, 1.0⟩]).sources
        { assigningFirst with fighters := [{ type := ⟨900⟩ }] } = .ok report' ∧
      report'.hull = report.hull ∧ report'.implants = report.implants ∧
      ∃ fighter, fighter.item.type = ⟨900⟩ ∧ report'.fighters = fighter :: report.fighters := by
  have bound : 0 ≤ assigningFirst.count (.fighter { type := ⟨900⟩ }) := Nat.zero_le _
  have inert : (twoImplants [⟨⟨100⟩, ⟨50⟩, 1.0⟩]).Inert ⟨900⟩ := ⟨by decide, by decide⟩
  have acyclic : (bareEngine.run ((twoImplants [⟨⟨100⟩, ⟨50⟩, 1.0⟩]).assembly assigningFirst
      bareEngine.rules)).fit.Acyclic := Fit.acyclic_of_sources (by decide +kernel)
  obtain ⟨_, _, report, _, item, p, -, -, run, run', type, rfl, -⟩ :=
    simulate_inert bareEngine _ _ 0 (.fighter { type := ⟨900⟩ }) bound inert acyclic
  exact ⟨bound, inert, acyclic, report, _, run, run', rfl, rfl, _, type, rfl⟩

end Engine

end Fitting
