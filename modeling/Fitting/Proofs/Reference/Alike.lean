import Fitting.Proofs.Fit.Relevant

/-!
# Snapshots that say the same

The tables of a snapshot are read in two ways.  Of several rows with one key the last one counts, or
the first one where the rows are of warfare buffs, and the effects of a type are kept in the order
in which they are met.  So two snapshots with other rows, or with the same rows in another order,
may still say the same.

* `Alike`                  two snapshots say the same of whatever they are asked about;
* `Alike.simulate`         then they have one engine, and all stages of every simulation in common;
* `alike_merge_self`, `simulate_merge_self`   all rows once more say nothing new;
* `alike_of_rearranged`, `simulate_rearranged`   where keys are unique, the order of the rows says
                                                 nothing.
-/

namespace Fitting.Snapshot

/-- two snapshots say the same, table by table, of whatever they are asked about -/
structure Alike (s t : Snapshot) : Prop where
  attributes : Catalog.ofList s.attributes = Catalog.ofList t.attributes
  records : ∀ keys, Map.lastRows ItemType.id id (s.typeSource.records keys) =
    Map.lastRows ItemType.id id (t.typeSource.records keys)
  values : ∀ keys, attributesByType (s.typeSource.attributes keys) =
    attributesByType (t.typeSource.attributes keys)
  links : ∀ keys, effectsByType (s.effectSource.links keys) =
    effectsByType (t.effectSource.links keys)
  definitions : ∀ keys, Map.lastRows EffectDefinition.id id (s.effectSource.definitions keys) =
    Map.lastRows EffectDefinition.id id (t.effectSource.definitions keys)
  buffed : ∀ keys m, addDbuffEffects m (s.dbuffSource.collections keys) =
    addDbuffEffects m (t.dbuffSource.collections keys)
  buffs : ∀ keys, Map.firstRows DbuffRow.effect id (s.dbuffSource.collections keys) =
    Map.firstRows DbuffRow.effect id (t.dbuffSource.collections keys)

namespace Alike
variable {s t : Snapshot} (alike : s.Alike t)
include alike

theorem assembly_eq (l : Loadout) (rules : Rules) : s.assembly l rules = t.assembly l rules := by
  unfold assembly Assembly.ofRows
  dsimp only
  rw [alike.records, alike.values, alike.links, alike.definitions, alike.buffed, alike.buffs]

/-- snapshots that say the same have one engine, and all stages of every simulation in common -/
theorem simulate (rules : Rules) (l : Loadout) : ∃ g sim report,
    Engine.ofSources s.sources rules = .ok g ∧ Engine.ofSources t.sources rules = .ok g ∧
    g.stages s.sources l = .ok sim ∧ g.stages t.sources l = .ok sim ∧
    s.simulate rules l = .ok report ∧ t.simulate rules l = .ok report := by
  have engines : ∀ u : Snapshot, Engine.ofSources u.sources rules =
      .ok ⟨.ofList u.attributes, rules⟩ :=
    fun _ => rfl
  have assembled := alike.assembly_eq l rules
  refine ⟨⟨.ofList s.attributes, rules⟩, _, _, engines s, ?_, Engine.stages_sources _ s l, ?_,
    s.simulate_eq l rules, ?_⟩
  · rw [alike.attributes]
    exact engines t
  · rw [Engine.stages_sources, assembled]
  · rw [simulate_eq, alike.attributes, assembled]

end Alike

/-! ### all rows once more -/

theorem alike_merge_self (s : Snapshot) : (s.merge s).Alike s where
  attributes := congrArg Catalog.mk (Map.lastRows_append_self _ _ s.attributes)
  records keys := by
    show Map.lastRows _ _ ((s.types ++ s.types).filter _) = _
    rw [List.filter_append]
    exact Map.lastRows_append_self _ _ _
  values keys := by
    show attributesByType ((s.typeAttributes ++ s.typeAttributes).filter _) = _
    rw [List.filter_append]
    exact attributesByType_append_self _
  links keys := by
    show effectsByType ((s.typeEffects ++ s.typeEffects).filter _) = _
    rw [List.filter_append]
    exact effectsByType_append_self _
  definitions keys := by
    show Map.lastRows _ _ ((s.effects ++ s.effects).filter _) = _
    rw [List.filter_append]
    exact Map.lastRows_append_self _ _ _
  buffed keys m := by
    show addDbuffEffects m ((s.dbuffs ++ s.dbuffs).filter _) = _
    rw [List.filter_append]
    exact addDbuffEffects_append_self m _
  buffs keys := by
    show Map.firstRows _ _ ((s.dbuffs ++ s.dbuffs).filter _) = _
    rw [List.filter_append]
    exact Map.firstRows_append_self _ _ _

/-- a snapshot with all its rows once more has the same engine, stages and result, also where its
own rows repeat or contradict one another -/
theorem simulate_merge_self (s : Snapshot) (rules : Rules) (l : Loadout) : ∃ g sim report,
    Engine.ofSources (s.merge s).sources rules = .ok g ∧ Engine.ofSources s.sources rules = .ok g ∧
    g.stages (s.merge s).sources l = .ok sim ∧ g.stages s.sources l = .ok sim ∧
    (s.merge s).simulate rules l = .ok report ∧ s.simulate rules l = .ok report :=
  s.alike_merge_self.simulate rules l

/-! ### rows in another order -/

/-- no key has two rows, in any table that is keyed -/
structure Keyed (s : Snapshot) : Prop where
  attributes : (s.attributes.map AttributeDefinition.id).Nodup
  types : (s.types.map ItemType.id).Nodup
  typeAttributes : (s.typeAttributes.map fun row => (row.type, row.attr)).Nodup
  effects : (s.effects.map EffectDefinition.id).Nodup

/-- the rows of the keyed tables in another order; links and warfare buffs stay where they are -/
structure Rearranged (s t : Snapshot) : Prop where
  attributes : s.attributes.Perm t.attributes
  types : s.types.Perm t.types
  typeAttributes : s.typeAttributes.Perm t.typeAttributes
  effects : s.effects.Perm t.effects
  typeEffects : s.typeEffects = t.typeEffects
  dbuffs : s.dbuffs = t.dbuffs

theorem nodup_map_filter {α β : Type} {key : α → β} {rows : List α} (h : (rows.map key).Nodup)
    (p : α → Bool) :
    ((rows.filter p).map key).Nodup :=
  h.sublist (rows.filter_sublist.map key)

section
variable {s t : Snapshot} (keyed : s.Keyed) (moved : s.Rearranged t)
include keyed moved

theorem alike_of_rearranged : s.Alike t where
  attributes := congrArg Catalog.mk (Map.lastRows_perm id keyed.attributes moved.attributes)
  records keys := Map.lastRows_perm id (nodup_map_filter keyed.types _) (moved.types.filter _)
  values keys :=
    attributesByType_perm (nodup_map_filter keyed.typeAttributes _) (moved.typeAttributes.filter _)
  links keys := by
    show effectsByType (s.typeEffects.filter _) = effectsByType (t.typeEffects.filter _)
    rw [moved.typeEffects]
  definitions keys :=
    Map.lastRows_perm id (nodup_map_filter keyed.effects _) (moved.effects.filter _)
  buffed keys m := by
    show addDbuffEffects m (s.dbuffs.filter _) = addDbuffEffects m (t.dbuffs.filter _)
    rw [moved.dbuffs]
  buffs keys := by
    show Map.firstRows _ _ (s.dbuffs.filter _) = Map.firstRows _ _ (t.dbuffs.filter _)
    rw [moved.dbuffs]

/-- where no key has two rows, the order of the rows has no part in the engine, in any stage or in
the result -/
theorem simulate_rearranged (rules : Rules) (l : Loadout) : ∃ g sim report,
    Engine.ofSources s.sources rules = .ok g ∧ Engine.ofSources t.sources rules = .ok g ∧
    g.stages s.sources l = .ok sim ∧ g.stages t.sources l = .ok sim ∧
    s.simulate rules l = .ok report ∧ t.simulate rules l = .ok report :=
  (alike_of_rearranged keyed moved).simulate rules l

end

/-- two rows in each keyed table -/
def paired : Snapshot where
  attributes := [.named ⟨50⟩ "speed", { id := ⟨51⟩, name := "bonus", defaultValue := 4.0 }]
  types :=
    [{ id := ⟨100⟩, name := "hull", group := ⟨10⟩, category := .ship },
      { id := ⟨300⟩, name := "implant", group := ⟨30⟩, category := .implant }]
  typeAttributes := [⟨⟨100⟩, ⟨50⟩, 1.0⟩, ⟨⟨300⟩, ⟨51⟩, 3.0⟩]
  typeEffects := [{ type := ⟨300⟩, effect := ⟨11⟩ }, { type := ⟨300⟩, effect := ⟨10⟩ }]
  effects :=
    [{ id := ⟨10⟩
       name := "assign"
       category := .passive
       description := some "[\x7b\"func\": \"ItemModifier\", \"domain\": \"shipID\",
         \"modifiedAttributeID\": 50, \"modifyingAttributeID\": 51, \"operation\": -1\x7d]" },
      { id := ⟨11⟩
        name := "none"
        category := .passive }]

/-- the rows of the keyed tables from the last one on -/
def backwards (s : Snapshot) : Snapshot :=
  { s with
    attributes := s.attributes.reverse
    types := s.types.reverse
    typeAttributes := s.typeAttributes.reverse
    effects := s.effects.reverse }

theorem simulate_rearranged_backwards : paired.Keyed ∧ paired.Rearranged paired.backwards ∧
    ∃ g sim report,
      Engine.ofSources paired.sources {} = .ok g ∧
        Engine.ofSources paired.backwards.sources {} = .ok g ∧
      g.stages paired.sources { hull := ⟨100⟩, implants := [⟨300⟩] } = .ok sim ∧
      g.stages paired.backwards.sources { hull := ⟨100⟩, implants := [⟨300⟩] } = .ok sim ∧
      paired.simulate {} { hull := ⟨100⟩, implants := [⟨300⟩] } = .ok report ∧
      paired.backwards.simulate {} { hull := ⟨100⟩, implants := [⟨300⟩] } = .ok report := by
  have keyed : paired.Keyed := by
    constructor <;> decide
  have moved : paired.Rearranged paired.backwards :=
    ⟨(List.reverse_perm _).symm, (List.reverse_perm _).symm, (List.reverse_perm _).symm,
      (List.reverse_perm _).symm, rfl, rfl⟩
  exact ⟨keyed, moved, simulate_rearranged keyed moved {} { hull := ⟨100⟩, implants := [⟨300⟩] }⟩

end Fitting.Snapshot
