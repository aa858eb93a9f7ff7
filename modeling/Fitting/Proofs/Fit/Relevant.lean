import Fitting.Proofs.Fit.Collected
import Fitting.Proofs.Fit.Sheets

/-!
# The rows that a loadout reaches

A simulation asks for the rows of the types that take part, and for the definitions of the effects
that these types are linked to.  No other row has a say in its result.

* `Snapshot.relevant`    the rows that a loadout reaches;
* `assembly_relevant`    with these rows alone the same fit is assembled, with the same effects;
* `simulate_relevant`    so the result is the same, too, for all snapshots with the same relevant
                         rows.
-/

namespace Fitting

namespace Snapshot

/-- the rows that a loadout reaches, in their order -/
def relevant (s : Snapshot) (l : Loadout) (rules : Rules) : Snapshot where
  attributes := s.attributes
  types := s.types.filter (fun t => (l.participants rules).contains t.id)
  typeAttributes := s.typeAttributes.filter (fun row => (l.participants rules).contains row.type)
  typeEffects := s.typeEffects.filter (fun link => (l.participants rules).contains link.type)
  effects := s.effects.filter fun e =>
    s.typeEffects.any fun link => (l.participants rules).contains link.type && link.effect = e.id
  dbuffs := s.dbuffs.filter (fun row => (l.participants rules).contains row.type)

/-- a simulation with an engine of its own -/
def simulate (s : Snapshot) (rules : Rules) (l : Loadout) : Except SourceError Report := do
  let engine ← Engine.ofSources s.sources rules
  engine.simulate s.sources l

section
variable (s : Snapshot) (l : Loadout) (rules : Rules)

theorem simulate_eq : s.simulate rules l =
    .ok (Engine.report ⟨.ofList s.attributes, rules⟩
      (Engine.run ⟨.ofList s.attributes, rules⟩ (s.assembly l rules))) := rfl

theorem filter_filter_self {α : Type} (p : α → Bool) (rows : List α) :
    (rows.filter p).filter p = rows.filter p := by
  rw [List.filter_filter]
  simp only [Bool.and_self]

theorem linked_of_asked {e : EffectDefinition}
    (asked : (effectKeys (effectsByType (s.effectSource.links
      (l.participants rules)))).contains e.id) :
    s.typeEffects.any
      fun link => (l.participants rules).contains link.type && link.effect = e.id := by
  obtain ⟨link, hl, he⟩ := mem_effectKeys_effectsByType.mp asked
  obtain ⟨hl, hp⟩ := List.mem_filter.mp hl
  have hb : ((l.participants rules).contains link.type && decide (link.effect = e.id)) = true := by
    rw [hp, he]
    simp
  exact List.any_eq_true.mpr ⟨link, hl, hb⟩

/-- the relevant definitions are all that are asked for -/
theorem definitions_relevant :
    (s.relevant l rules).effectSource.definitions
        (effectKeys (effectsByType (s.effectSource.links (l.participants rules)))) =
      s.effectSource.definitions
        (effectKeys (effectsByType (s.effectSource.links (l.participants rules)))) := by
  show (s.effects.filter _).filter _ = s.effects.filter _
  rw [List.filter_filter]
  refine List.filter_congr fun e _ => ?_
  cases asked :
      (effectKeys (effectsByType (s.effectSource.links (l.participants rules)))).contains e.id with
  | false => rfl
  | true => rw [s.linked_of_asked l rules asked]; rfl

/-- with the relevant rows alone the same fit is assembled, and the same effects are -/
theorem assembly_relevant : (s.relevant l rules).assembly l rules = s.assembly l rules := by
  have records : (s.relevant l rules).typeSource.records (l.participants rules)
      = s.typeSource.records (l.participants rules) := filter_filter_self _ _
  have values : (s.relevant l rules).typeSource.attributes (l.participants rules)
      = s.typeSource.attributes (l.participants rules) := filter_filter_self _ _
  have links : (s.relevant l rules).effectSource.links (l.participants rules)
      = s.effectSource.links (l.participants rules) := filter_filter_self _ _
  have buffs : (s.relevant l rules).dbuffSource.collections (l.participants rules)
      = s.dbuffSource.collections (l.participants rules) := filter_filter_self _ _
  unfold assembly Assembly.ofRows
  dsimp only
  rw [records, values, links, buffs, definitions_relevant]

theorem simulate_of_relevant : (s.relevant l rules).simulate rules l = s.simulate rules l := by
  rw [simulate_eq, simulate_eq, assembly_relevant]
  rfl

end

/-- a simulation has a result, and the relevant rows alone have the same one; so has every snapshot
that has the same relevant rows, whatever other rows there are and wherever they stand -/
theorem simulate_relevant (s : Snapshot) (rules : Rules) (l : Loadout) :
    ∃ report, s.simulate rules l = .ok report ∧ (s.relevant l rules).simulate rules l = .ok report ∧
      ∀ t : Snapshot, t.relevant l rules = s.relevant l rules →
        t.simulate rules l = .ok report := by
  refine ⟨_, s.simulate_eq l rules, (s.simulate_of_relevant l rules).trans (s.simulate_eq l rules),
    ?_⟩
  intro t same
  rw [← t.simulate_of_relevant, same, s.simulate_of_relevant]
  exact s.simulate_eq l rules

end Snapshot

end Fitting
