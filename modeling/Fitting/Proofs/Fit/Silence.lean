import Fitting.Proofs.Fit.Origin
import Fitting.Proofs.Fit.Places
import Fitting.Proofs.Fit.Rewired

/-!
# An effect that no module activates

`Snapshot.silence` takes the description of its modifiers from an effect.  Where the effect is
carried by modules only that are not engaged enough for it, this changes no result, unless the
effect declares attributes: an assignment is attached whatever the state of its module is, and
declares the attribute if its target does not have it.

* `attachments_silence`   the edges of the other effects stay what they are and where they are;
* `Seeds`                 an assignment of the effect declares an attribute;
* `attachAll_without`     if none does, all other edges are attached as before;
* `simulate_silence`      and as the edges of the effect are inactive, the result is the same.
-/

namespace Fitting

/-- the definition without its description, if it is one of the effect `e` -/
def EffectDefinition.silence (e : EffectId) (d : EffectDefinition) : EffectDefinition :=
  if d.id = e then { d with description := none } else d

/-- the snapshot in which no definition of the effect `e` states modifiers -/
def Snapshot.silence (s : Snapshot) (e : EffectId) : Snapshot :=
  { s with effects := s.effects.map (EffectDefinition.silence e) }

theorem EffectDefinition.silence_id (e : EffectId) (d : EffectDefinition) :
    (d.silence e).id = d.id := by
  unfold silence
  split <;> rfl

theorem EffectDefinition.silence_of_ne {e : EffectId} {d : EffectDefinition} (h : d.id ≠ e) :
    d.silence e = d :=
  if_neg h

theorem EffectDefinition.silence_description {e : EffectId} {d : EffectDefinition} (h : d.id = e) :
    (d.silence e).description = none := by
  unfold silence
  rw [if_pos h]

/-! ### the modifiers of the silenced effect -/

section
variable (s : Snapshot) (l : Loadout) (rules : Rules) {e : EffectId}

/-- an effect is filed under its own key -/
theorem Snapshot.id_of_effects {key : EffectId} {d : EffectDefinition}
    (h : (s.assembly l rules).effects[key]? = some d) : d.id = key := by
  rw [Snapshot.assembly, Assembly.effects_ofRows, Option.or_eq_some_iff, Map.getElem?_lastRows] at h
  rcases h with h | ⟨_, h⟩
  · obtain ⟨row, hr, rfl⟩ := Option.map_eq_some_iff.mp h
    show row.effect = key
    simpa using List.find?_some hr
  · obtain ⟨row, hr, rfl⟩ := Option.map_eq_some_iff.mp h
    simpa using List.find?_some hr

theorem Snapshot.definitions_silence (keys : KeySet .effect) :
    (s.silence e).effectSource.definitions keys =
      (s.effectSource.definitions keys).map (EffectDefinition.silence e) := by
  show (s.effects.map (EffectDefinition.silence e)).filter _ = (s.effects.filter _).map _
  rw [List.filter_map]
  refine congrArg (List.map _) (List.filter_congr fun d _ => ?_)
  show keys.contains (d.silence e).id = keys.contains d.id
  rw [d.silence_id]

theorem Snapshot.effects_silence (noBuff : (s.assembly l rules).dbuffs[e]? = none)
    (key : EffectId) :
    ((s.silence e).assembly l rules).effects[key]? =
      (s.assembly l rules).effects[key]?.map (EffectDefinition.silence e) := by
  rw [Snapshot.assembly, Assembly.dbuffs_ofRows, Option.map_eq_none_iff] at noBuff
  rw [Snapshot.assembly, Snapshot.assembly, Assembly.effects_ofRows, Assembly.effects_ofRows,
    definitions_silence, Map.getElem?_lastRows_map (EffectDefinition.silence_id e)]
  show ((List.find? (fun row => decide (row.effect = key))
      (s.dbuffSource.collections (l.participants rules))).map DbuffRow.definition).or _ = _
  cases hr : List.find? (fun row : DbuffRow => decide (row.effect = key))
      (s.dbuffSource.collections (l.participants rules)) with
  | none => rfl
  | some row =>
    -- the row is of another effect, for `e` stands for no buff
    have hk : row.effect = key := by simpa using List.find?_some hr
    have hne : row.definition.id ≠ e := by
      rintro (he : row.effect = e)
      rw [← he, hk, hr] at noBuff
      cases noBuff
    rw [Option.map_some, Option.some_or, Option.some_or, Option.map_some,
      EffectDefinition.silence_of_ne hne]

theorem Snapshot.modifiersOf_silence (noBuff : (s.assembly l rules).dbuffs[e]? = none) (t : TypeId)
    (key : EffectId) :
    ModifierIndex.modifiersOf ((s.silence e).assembly l rules).effects
        (s.assembly l rules).dbuffs t key =
      (ModifierIndex.modifiersOf (s.assembly l rules).effects
        (s.assembly l rules).dbuffs t key).filter
        (fun m => m.effect ≠ e) := by
  unfold ModifierIndex.modifiersOf
  rw [s.effects_silence l rules noBuff]
  cases hd : (s.assembly l rules).effects[key]? with
  | none => rfl
  | some d =>
    have hid : d.id = key := s.id_of_effects l rules hd
    dsimp only [Option.map_some]
    by_cases he : key = e
    · subst he
      rw [EffectDefinition.silence_description hid]
      cases d.description with
      | none => rfl
      | some description =>
        refine (List.filter_eq_nil_iff.mpr fun m hm => ?_).symm
        obtain ⟨raw, _, rfl⟩ := List.mem_map.mp hm
        simp [ModifierIndex.tie]
    · rw [EffectDefinition.silence_of_ne (hid ▸ he)]
      cases d.description with
      | none => rfl
      | some description =>
        refine (List.filter_eq_self.mpr fun m hm => ?_).symm
        obtain ⟨raw, _, rfl⟩ := List.mem_map.mp hm
        exact decide_eq_true he

/-! ### the edges of the silenced effect -/

/-- the modifiers of all types, those of the silenced effect left out -/
theorem Engine.forType_silence (g : Engine) (s : Snapshot) (l : Loadout) {e : EffectId}
    (noBuff : (s.assembly l g.rules).dbuffs[e]? = none) (t : TypeId) :
    (g.run ((s.silence e).assembly l g.rules)).index.forType t =
      ((g.run (s.assembly l g.rules)).index.forType t).filter (fun m => m.effect ≠ e) := by
  rw [g.forType_run, g.forType_run, List.filter_flatMap]
  exact congrArg (List.flatMap · _) (funext (s.modifiersOf_silence l g.rules noBuff t))

end

namespace Fit

/-- rows left out before they are written out, or after -/
theorem flatMap_filter {α β : Type} {F : α → List β} {q : α → Bool} {p : β → Bool}
    (h : ∀ a, ∀ b ∈ F a, p b = q a) (l : List α) :
    (l.filter q).flatMap F = (l.flatMap F).filter p := by
  induction l with
  | nil => rfl
  | cons a l ih =>
    rw [List.flatMap_cons, List.filter_append, List.filter_cons, ← ih]
    cases hq : q a with
    | true =>
      rw [if_pos rfl, List.flatMap_cons, List.filter_eq_self.mpr fun b hb => (h a b hb).trans hq]
    | false =>
      have none : (F a).filter p = [] :=
        List.filter_eq_nil_iff.mpr fun b hb => by rw [h a b hb, hq]; exact Bool.false_ne_true
      rw [if_neg Bool.false_ne_true, none, List.nil_append]

/-- the edges of all other effects are the same and in the same order -/
theorem attachments_filter {f : Fit} {index index' : ModifierIndex} {e : EffectId}
    (h : ∀ t, index'.forType t = (index.forType t).filter (fun m => m.effect ≠ e))
    (catalog : Catalog) (rules : Rules) : f.attachments index' catalog rules =
      (f.attachments index catalog rules).filter (fun att => att.edge.effect ≠ e) := by
  unfold attachments
  rw [List.filter_flatMap]
  refine congrArg (List.flatMap · f.entries) (funext fun (source, item) => ?_)
  dsimp only
  rw [h]
  refine flatMap_filter (fun m att ha => ?_) _
  obtain ⟨target, _, rfl⟩ := List.mem_map.mp ha
  rfl

/-! ### without the edges of the effect -/

/-- the fit without the edges of the effect `e` -/
def without (f : Fit) (e : EffectId) : Fit :=
  f.mapEdges (fun _ edges => edges.filter (fun edge => edge.effect ≠ e))

/-- an assignment of the effect `e` declares an attribute: the target does not have it when the
assignment is attached -/
def Seeds (catalog : Catalog) (f : Fit) (atts : List Attachment) (e : EffectId) : Prop :=
  ∃ before att after, atts = before ++ att :: after ∧ att.edge.effect = e ∧
    att.edge.operation.isAssign ∧
    (attachAll catalog f before).1.get? att.target.item ≠ none ∧
    (attachAll catalog f before).1.state? att.target = none

section
variable {catalog : Catalog} {f : Fit} {e : EffectId}

theorem without_eq_self (h : ∀ c state, f.state? c = some state → state.edges = []) :
    f.without e = f := by
  refine ext_state (f.shell_mapEdges _) (fun c _ => ?_) rfl rfl rfl rfl rfl
  unfold without
  rw [state?_mapEdges]
  cases hs : f.state? c with
  | none => rfl
  | some state =>
    have none := h c state hs
    cases state
    simp_all

/-- a cell without the edges of the effect -/
theorem state?_without (c : Cell) : (f.without e).state? c = (f.state? c).map
    (fun state => { state with edges := state.edges.filter (fun edge => edge.effect ≠ e) }) :=
  f.state?_mapEdges _ c

theorem get?_without_eq_none {h : Handle} : (f.without e).get? h = none ↔ f.get? h = none :=
  f.get?_mapEdges_eq_none _

/-- an edge of another effect is attached as it would be -/
theorem attachOne_without_of_ne {att : Attachment} (h : att.edge.effect ≠ e) :
    (attachOne catalog f att).without e = attachOne catalog (f.without e) att := by
  obtain ⟨hm, hd, hf, hi, hs⟩ := lists_attachOne catalog f att
  obtain ⟨hm', hd', hf', hi', hs'⟩ := lists_attachOne catalog (f.without e) att
  refine ext_state (fun k => ?_) (fun c present => ?_) (hm.trans hm'.symm) (hd.trans hd'.symm)
    (hf.trans hf'.symm) (hi.trans hi'.symm) (hs.trans hs'.symm)
  · exact (((attachOne catalog f att).shell_mapEdges _ k).trans (shell_attachOne att k)).trans
      ((shell_attachOne att k).trans (f.shell_mapEdges _ k)).symm
  · have present₀ : f.get? c.item ≠ none :=
      mt (get?_attachOne_eq_none att).mpr (mt get?_without_eq_none.mpr present)
    rw [state?_without, state?_attachOne present₀,
      state?_attachOne (mt get?_without_eq_none.mp present₀), state?_without]
    split
    · cases f.state? c with
      | some state => simp [extend, h]
      | none => cases ha : att.edge.operation.isAssign <;> simp [extend, ha, h]
    · rfl

/-- an edge of the effect that declares nothing leaves no trace -/
theorem attachOne_without_of_eq {att : Attachment} (h : att.edge.effect = e)
    (quiet : att.edge.operation.isAssign → f.get? att.target.item ≠ none →
      f.state? att.target ≠ none) : (attachOne catalog f att).without e = f.without e := by
  obtain ⟨hm, hd, hf, hi, hs⟩ := lists_attachOne catalog f att
  refine ext_state (fun k => ?_) (fun c present => ?_) hm hd hf hi hs
  · exact (((attachOne catalog f att).shell_mapEdges _ k).trans (shell_attachOne att k)).trans
      (f.shell_mapEdges _ k).symm
  · have present₀ : f.get? c.item ≠ none :=
      mt (get?_attachOne_eq_none att).mpr (mt get?_without_eq_none.mpr present)
    rw [state?_without, state?_attachOne present₀, state?_without]
    split
    next hc =>
      subst hc
      cases hst : f.state? att.target with
      | some state => simp [extend, h]
      | none =>
        have plain : att.edge.operation.isAssign = false := by
          cases ha : att.edge.operation.isAssign with
          | false => rfl
          | true => exact absurd hst (quiet ha present₀)
        simp [extend, plain]
    next => rfl

theorem Seeds.cons {att : Attachment} {atts : List Attachment}
    (h : Seeds catalog (attachOne catalog f att) atts e) : Seeds catalog f (att :: atts) e := by
  obtain ⟨before, att', after, rfl, he, ha, hp, hs⟩ := h
  rw [attachAll_fst] at hp hs
  refine ⟨att :: before, att', after, rfl, he, ha, ?_, ?_⟩
  · rw [attachAll_fst]
    exact hp
  · rw [attachAll_fst]
    exact hs

/-- if the effect declares nothing, the other edges are attached as if it had none -/
theorem attachAll_without (atts : List Attachment) : ∀ f : Fit, ¬ Seeds catalog f atts e →
    (attachAll catalog f atts).1.without e =
      (attachAll catalog (f.without e) (atts.filter (fun att => att.edge.effect ≠ e))).1 := by
  simp only [attachAll_fst]
  induction atts with
  | nil => exact fun f _ => rfl
  | cons att atts ih =>
    intro f h
    rw [List.foldl_cons, ih _ fun hs => h hs.cons]
    -- an edge of the effect is attached on the left only, any other on both sides
    by_cases he : att.edge.effect = e
    · have quiet : att.edge.operation.isAssign → f.get? att.target.item ≠ none →
          f.state? att.target ≠ none :=
        fun ha hp hs => h ⟨[], att, atts, rfl, he, ha, hp, hs⟩
      rw [attachOne_without_of_eq he quiet, List.filter_cons_of_neg (by simpa using he)]
    · rw [attachOne_without_of_ne he, List.filter_cons_of_pos (by simpa using he), List.foldl_cons]

/-- if all edges of the effect are inactive, the active edges are the same without them -/
theorem prune_without
    (inactive : ∀ c, ∀ edge ∈ f.edges c, edge.effect = e → f.isActive edge = false) :
    (f.without e).prune = f.prune := by
  refine ext_state (fun k => ?_) (fun c present => ?_) rfl rfl rfl rfl rfl
  · exact (((f.without e).shell_mapEdges _ k).trans (f.shell_mapEdges _ k)).trans
      (f.shell_mapEdges _ k).symm
  · have active : (f.without e).isActive = f.isActive := f.isActive_mapEdges _
    unfold prune
    rw [state?_mapEdges, state?_mapEdges, state?_without, Option.map_map, active]
    refine Option.map_congr fun state hs => ?_
    have hf : (state.edges.filter (fun edge => edge.effect ≠ e)).filter f.isActive
        = state.edges.filter f.isActive := by
      rw [List.filter_filter]
      refine List.filter_congr fun edge he => ?_
      by_cases hk : edge.effect = e
      · simp [inactive c edge (edges_of_state hs ▸ he) hk]
      · simp [hk]
    exact congrArg (Attribute.mk state.base) hf

end

end Fit

/-! ### the whole simulation -/

/-- the effect `e` is carried by modules only, and none of them is engaged enough for it -/
def Assembly.Disengaged (a : Assembly) (e : EffectId) : Prop :=
  ∀ h item, a.fit.get? h = some item → e ∈ item.effects →
    ∃ status, item.moduleStatus? = some status ∧
    ∀ effect, a.effects[e]? = some effect → status.satisfies effect.category.required = false

namespace Engine

/-- an assignment of the effect `e` declares an attribute in the simulation -/
def Seeds (g : Engine) (a : Assembly) (e : EffectId) : Prop :=
  Fit.Seeds g.catalog a.fit (a.fit.attachments (g.run a).index g.catalog g.rules) e

theorem inactive_of_disengaged (g : Engine) (s : Snapshot) (l : Loadout) {e : EffectId}
    (disengaged : (s.assembly l g.rules).Disengaged e) (c : Cell) (edge : Edge)
    (h : edge ∈ (g.run (s.assembly l g.rules)).fit.edges c) (he : edge.effect = e) :
    (g.run (s.assembly l g.rules)).fit.isActive edge = false := by
  obtain ⟨source, effect, raw, origin⟩ := g.origin s l h
  obtain ⟨status, hs, hq⟩ := disengaged _ _ origin.carried.1 (he ▸ origin.carried.2)
  have active : (g.run (s.assembly l g.rules)).fit.isActive = (s.assembly l g.rules).fit.isActive :=
    Fit.isActive_attachAll _ _
  have category : edge.category = effect.category := congrArg Edge.category origin.edge
  rw [active, Fit.isActive, origin.carried.1, Option.bind_some, hs, category]
  exact hq effect (he ▸ origin.defined)

/-- without the description of an effect that declares nothing a simulation has the same edges but
for those of the effect -/
theorem fit_silence (g : Engine) (s : Snapshot) (l : Loadout) {e : EffectId}
    (noBuff : (s.assembly l g.rules).dbuffs[e]? = none)
    (unseeded : ¬ g.Seeds (s.assembly l g.rules) e) :
    (g.run ((s.silence e).assembly l g.rules)).fit
      = (g.run (s.assembly l g.rules)).fit.without e := by
  have bare : (s.assembly l g.rules).fit.without e = (s.assembly l g.rules).fit :=
    Fit.without_eq_self fun _ _ => Snapshot.edges_of_state_assembly
  have attached := Fit.attachAll_without _ _ unseeded
  rw [bare, ← Fit.attachments_filter (g.forType_silence s l noBuff)] at attached
  exact attached.symm

/-- an effect that no module activates and that declares no attribute has no part in the result -/
theorem simulate_silence (g : Engine) (s : Snapshot) (l : Loadout) (e : EffectId)
    (noBuff : (s.assembly l g.rules).dbuffs[e]? = none)
    (disengaged : (s.assembly l g.rules).Disengaged e)
    (unseeded : ¬ g.Seeds (s.assembly l g.rules) e) :
    ∃ report, g.simulate s.sources l = .ok report ∧
      g.simulate (s.silence e).sources l = .ok report := by
  refine ⟨_, g.simulate_sources s l, (g.simulate_sources (s.silence e) l).trans ?_⟩
  have hfit := g.fit_silence s l noBuff unseeded
  have same := Fit.prune_without (g.inactive_of_disengaged s l disengaged)
  rw [g.report_run, g.report_run, hfit, Fit.without, Fit.resolveAll_congr same,
    Fit.correct_mapEdges, Report.ofFit_mapEdges]

end Engine

/-! ### a module that assigns -/

/-- a hull, and a module with an effect that assigns the attribute 50 of the hull -/
def assigner (values : List AttributeRow) : Snapshot where
  types :=
    [{ id := ⟨100⟩, name := "hull", group := ⟨10⟩, category := .ship },
      { id := ⟨200⟩, name := "module", group := ⟨20⟩, category := ⟨7⟩ }]
  typeAttributes := ⟨⟨200⟩, ⟨51⟩, 9.0⟩ :: values
  typeEffects := [{ type := ⟨200⟩, effect := ⟨10⟩ }]
  effects :=
    [{ id := ⟨10⟩
       name := "assign"
       category := .active
       description := some "[\x7b\"func\": \"ItemModifier\", \"domain\": \"shipID\",
         \"modifiedAttributeID\": 50, \"modifyingAttributeID\": 51, \"operation\": 7\x7d]" }]

def plainEngine : Engine := { bareEngine with rules := { corrections := false } }

def withOfflineModule : Loadout :=
  { hull := ⟨100⟩, modules := [{ type := ⟨200⟩, status := .offline }] }

/-- the attribute is declared by the hull -/
def declaring : Snapshot := assigner [⟨⟨100⟩, ⟨50⟩, 1.0⟩]

theorem Assembly.disengaged_of_entries {a : Assembly} {e : EffectId}
    (h : ∀ entry ∈ a.fit.entries, e ∈ entry.2.effects → entry.2.moduleStatus?.any (fun status =>
      (a.effects[e]?).all (fun effect => !status.satisfies effect.category.required))) :
    a.Disengaged e := by
  intro k item hi he
  obtain ⟨status, hs, hq⟩ := (Option.any_eq_true ..).mp (h (k, item) (Fit.mem_entries.mpr hi) he)
  refine ⟨status, hs, fun effect hd => ?_⟩
  simpa using (Option.all_eq_true ..).mp hq effect hd

/-- an offline module may assign to an attribute that the hull has -/
theorem simulate_silence_declaring :
    (declaring.assembly withOfflineModule plainEngine.rules).dbuffs[(⟨10⟩ : EffectId)]? = none ∧
    (declaring.assembly withOfflineModule plainEngine.rules).Disengaged ⟨10⟩ ∧
    ¬ plainEngine.Seeds (declaring.assembly withOfflineModule plainEngine.rules) ⟨10⟩ ∧
    ∃ report, plainEngine.simulate declaring.sources withOfflineModule = .ok report ∧
      plainEngine.simulate (declaring.silence ⟨10⟩).sources withOfflineModule = .ok report := by
  have noBuff : (declaring.assembly withOfflineModule plainEngine.rules).dbuffs[(⟨10⟩ : EffectId)]?
      = none := by decide +kernel
  have disengaged : (declaring.assembly withOfflineModule plainEngine.rules).Disengaged ⟨10⟩ :=
    Assembly.disengaged_of_entries (by decide +kernel)
  have unseeded : ¬ plainEngine.Seeds (declaring.assembly withOfflineModule plainEngine.rules)
      ⟨10⟩ := by
    rintro ⟨before, att, after, hatts, -, -, -, undeclared⟩
    have one : (before ++ att :: after).length = 1 := by
      rw [← hatts]
      decide +kernel
    have first : before = [] := List.eq_nil_of_length_eq_zero (by simp at one; omega)
    have meant : ∀ a ∈ before ++ att :: after, a.target = ⟨Fit.hull, ⟨50⟩⟩ := by
      rw [← hatts]
      decide +kernel
    have declared : ((declaring.assembly withOfflineModule plainEngine.rules).fit.state?
        ⟨Fit.hull, ⟨50⟩⟩).isSome := by decide +kernel
    rw [first, meant att (by simp)] at undeclared
    have absent : (declaring.assembly withOfflineModule plainEngine.rules).fit.state?
        ⟨Fit.hull, ⟨50⟩⟩ = none := undeclared
    rw [absent] at declared
    exact Bool.false_ne_true declared
  exact ⟨noBuff, disengaged, unseeded, Engine.simulate_silence _ _ _ _ noBuff disengaged unseeded⟩

/-- without corrections the hull has the resolved values of the attributes that it declares -/
theorem isSome_hull_attribute {a : Assembly} (numbered : a.fit.Numbered) (x : AttributeId) :
    (plainEngine.report (plainEngine.run a)).hull.attributes[x]?.isSome ↔
      ⟨Fit.hull, x⟩ ∈ (plainEngine.run a).fit.declared := by
  have attached : (plainEngine.run a).fit.Numbered := numbered.attachAll plainEngine.catalog _
  have id : (plainEngine.run a).fit.hullItem.id = Fit.hull := attached _ _ (Fit.get?_hull _)
  have value : (plainEngine.report (plainEngine.run a)).hull.attributes[x]?
      = ((plainEngine.run a).fit.resolveAll plainEngine.catalog).get? ⟨Fit.hull, x⟩ := by
    rw [← id]
    exact Values.getElem?_row _ _ _
  rw [← Fit.isSome_resolveAll_get? _ plainEngine.catalog, value]

/-- on a hull that does not have the attribute it declares it, and the result has one attribute
more -/
theorem offline_module_seeds :
    ((assigner []).assembly withOfflineModule plainEngine.rules).dbuffs[(⟨10⟩ : EffectId)]? = none ∧
    ((assigner []).assembly withOfflineModule plainEngine.rules).Disengaged ⟨10⟩ ∧
    ∃ report silent, plainEngine.simulate (assigner []).sources withOfflineModule = .ok report ∧
      plainEngine.simulate ((assigner []).silence ⟨10⟩).sources withOfflineModule = .ok silent ∧
      report.hull.attributes[(⟨50⟩ : AttributeId)]?.isSome ∧
      ¬ silent.hull.attributes[(⟨50⟩ : AttributeId)]?.isSome := by
  refine ⟨by decide +kernel, Assembly.disengaged_of_entries (by decide +kernel), _, _,
    Engine.simulate_sources .., Engine.simulate_sources .., ?_, ?_⟩
  · rw [isSome_hull_attribute (Snapshot.numbered_assembly _ _ _)]
    decide +kernel
  · rw [isSome_hull_attribute (Snapshot.numbered_assembly _ _ _)]
    decide +kernel

end Fitting
