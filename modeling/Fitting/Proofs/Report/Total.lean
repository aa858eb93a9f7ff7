import Fitting.Proofs.Report.Mirror
import Fitting.Proofs.Resolution.Checked

/-!
# A simulation with its sources has a report

Only the lack of a source for types or of one for effects is an error.  With both there is a report,
whatever the sources say: on the way to it no handle is without its item, no position is outside its
list, and the skills that an item requires have room.

* `Fit.Closed`           the handles that a fit lists, names and reaches are those of items;
* `Fit.LaidOut.closed`   a fit that is laid out as its loadout says is closed;
* `sources_attachAll`    every edge that is attached comes from an item;
* `Engine.Safe`          what every access of a run counts on;
* `safe_run`             each run can count on it.
-/

namespace Fitting

/-! ### handles -/

namespace Fit

/-- the handles that a fit lists, those that its items name and those that a modifier acts on are
handles of items -/
structure Closed (f : Fit) : Prop where
  listed : ∀ k, ∀ h ∈ f.listed k, f.get? h ≠ none
  named : f.Every fun item => ∀ h, item.charge? = some h ∨ item.owner? = some h → f.get? h ≠ none
  reached : ∀ source type domain, ∀ h ∈ f.targets source type domain, f.get? h ≠ none

section
variable {f : Fit} {h : Handle}

theorem get?_of_mem_handlesWhere {p : Item → Bool} (hm : h ∈ f.handlesWhere p) :
    f.get? h ≠ none := by
  obtain ⟨item, present, -⟩ := mem_handlesWhere_iff.mp hm
  rw [present]
  exact Option.some_ne_none item

theorem get?_of_mem_idsWhere (numbered : f.Numbered) {p : Item → Bool} (hm : h ∈ f.idsWhere p) :
    f.get? h ≠ none :=
  get?_of_mem_handlesWhere (numbered.idsWhere_eq p ▸ hm)

theorem Paired.named (hf : f.Paired) : f.Every fun item =>
    ∀ h, item.charge? = some h ∨ item.owner? = some h → f.get? h ≠ none := by
  intro k item hi h named absent
  have unnamed := hf.unnamed absent k
  rw [hi] at unnamed
  rcases named with charge | owner
  · exact unnamed.1 charge
  · exact unnamed.2 owner

theorem LaidOut.closed {l : Loadout} {rules : Rules} (hf : f.LaidOut l rules) : f.Closed where
  listed k h hm := by
    rw [hf.sorted k] at hm
    exact get?_of_mem_handlesWhere hm
  named := hf.paired.named
  reached source type domain h hm := by
    unfold targets at hm
    split at hm
    · exact absurd hm List.not_mem_nil
    next item hi =>
      cases domain with
      | item =>
        rw [List.mem_singleton.mp hm, hi]
        exact Option.some_ne_none item
      | ship =>
        rw [List.mem_singleton.mp hm, f.get?_hull]
        exact Option.some_ne_none _
      | pilot =>
        rw [List.mem_singleton.mp hm, f.get?_pilot]
        exact Option.some_ne_none _
      | other =>
        have partner : (item.charge? <|> item.owner?) = some h := Option.mem_toList.mp hm
        refine hf.paired.named source item hi h ?_
        cases charge : item.charge? with
        | some c => exact .inl (by rwa [charge] at partner)
        | none => exact .inr (by rwa [charge] at partner)
      | location => exact mem_handles.mp hm
      | locationGroup group => exact get?_of_mem_idsWhere hf.numbered hm
      | requiredSkill skill => exact get?_of_mem_idsWhere hf.numbered hm

/-- an edge that is attached to a fit without edges comes from one of its items -/
theorem sources_attachAll {catalog : Catalog} {rules : Rules} {index : ModifierIndex}
    (bare : ∀ c, f.edges c = []) {c : Cell} {e : Edge}
    (he : e ∈ (f.applyModifiers index catalog rules).1.edges c) :
    (f.applyModifiers index catalog rules).1.get? e.source ≠ none := by
  have present : f.get? e.source ≠ none := by
    rcases mem_edges_attachAll he with before | ⟨att, ha, -, rfl⟩
    · rw [bare c] at before
      exact absurd before List.not_mem_nil
    · obtain ⟨source, item, hi, m, -, target, -, rfl⟩ := mem_attachments.mp ha
      show f.get? source ≠ none
      rw [hi]
      exact Option.some_ne_none item
  exact mt get?_attachAll_eq_none.mp present

end

end Fit

/-! ### required skills -/

namespace TypeSheets
variable (s : TypeSheets) (l : Loadout) (rules : Rules)

theorem length_skillsNamed (attributes : Map AttributeId Attribute) :
    (skillsNamed attributes).length ≤ 6 :=
  List.length_filterMap_le _ AttributeId.requiredSkills

theorem length_requiredSkills : (s.fit l rules).Every fun item => item.requiredSkills.length ≤ 6 :=
  s.every (fun _ _ => length_skillsNamed _) (fun _ _ few => few) (fun _ _ few => few)
    (fun _ _ _ few => few)
    l rules

end TypeSheets

/-! ### a run -/

/-- what the accesses of a run count on -/
structure Engine.Safe (g : Engine) (sim : Simulation) : Prop where
  skills : sim.assembly.fit.Every fun item => item.requiredSkills.length ≤ 6
  /-- however many edges are attached so far -/
  closed : ∀ atts, (Fit.attachAll g.catalog sim.assembly.fit atts).1.Closed
  attached : sim.fit.Closed
  sources : ∀ c, ∀ e ∈ sim.fit.edges c, sim.fit.get? e.source ≠ none
  /-- every access by position finds something, and the values are those of the run -/
  resolved : sim.fit.resolveAll? g.catalog = some sim.resolved

namespace Engine
variable (g : Engine)

theorem checked_run (a : Assembly) :
    (g.run a).fit.resolveAll? g.catalog = some (g.run a).resolved :=
  Fit.resolveAll?_eq _ g.catalog

theorem safe_run (l : Loadout) (types : ItemTypeSource) (effects : EffectSource)
    (rows : List DbuffRow) :
    g.Safe (g.run (.ofRows l g.rules types effects rows)) := by
  have laid : (Assembly.ofRows l g.rules types effects rows).fit.LaidOut l g.rules :=
    TypeSheets.laidOut_fit _ l g.rules
  have bare : ∀ c, (Assembly.ofRows l g.rules types effects rows).fit.edges c = [] :=
    TypeSheets.edges_fit _ l g.rules
  have closed : ∀ atts,
      (Fit.attachAll g.catalog (Assembly.ofRows l g.rules types effects rows).fit atts).1.Closed :=
    fun atts => (laid.attachAll g.catalog atts).closed
  refine ⟨?_, closed, ?_, ?_, ?_⟩
  · exact TypeSheets.length_requiredSkills _ l g.rules
  · exact closed _
  · exact fun c e => Fit.sources_attachAll bare
  · exact g.checked_run _

/-- a simulation fails without a source for types or without one for effects, and in no other case.
With both of them it has a report, and every access on the way to it finds what it looks for.  The
positions of the edges of a buff are positions in their list, the one that is selected among values
is that of one of them, and each operation has one of nine places. -/
theorem simulate_degrades (s : Sources) (l : Loadout) :
    ((∃ e, g.simulate s l = .error e) ↔ s.types = none ∨ s.effects = none) ∧
    (match s.types, s.effects with
      | none, _ => g.simulate s l = .error .noTypes
      | some _, none => g.simulate s l = .error .noEffects
      | some _, some _ => ∃ sim, g.stages s l = .ok sim ∧ g.simulate s l = .ok (g.report sim) ∧
          g.Safe sim) ∧
    (∀ (edges : List Edge) (b : DbuffId) (group : List Nat),
      (Fit.positions edges)[b]? = some group → ∀ i ∈ group, i < edges.length) ∧
    (∀ (mode : AggregateMode) (values : List Float) (i : Nat),
      mode.select values = some i → i < values.length) ∧
    ∀ op : Operation, op.index < 9 := by
  refine ⟨?_, ?_, fun edges b group => Fit.positions_lt,
    fun mode values i => AggregateMode.select_lt, fun op => by cases op <;> decide⟩
  · obtain ⟨types, effects, attributes, dbuffs⟩ := s
    cases types with
    | none => exact iff_of_true ⟨.noTypes, rfl⟩ (.inl rfl)
    | some types =>
      cases effects with
      | none => exact iff_of_true ⟨.noEffects, rfl⟩ (.inr rfl)
      | some effects =>
        refine iff_of_false ?_ (by simp)
        rintro ⟨e, failed⟩
        cases failed
  · obtain ⟨types, effects, attributes, dbuffs⟩ := s
    cases types with
    | none => rfl
    | some types =>
      cases effects with
      | none => rfl
      | some effects => exact ⟨_, rfl, rfl, g.safe_run l types effects _⟩

end Engine

end Fitting
