import Fitting.Proofs.Modifier.Index
import Fitting.Proofs.Fit.Attached
import Fitting.Proofs.Fit.Collected

/-!
# Where the edges of a simulation come from

Every edge of a simulation is an entry of the description of an effect that its source carries.

* `Origin`         the source of an edge, its effect and the entry it was made from;
* `Engine.origin`  every edge has one.
-/

namespace Fitting

namespace Engine

/-- the modifiers of a type are those of its effects -/
theorem forType_run (g : Engine) (a : Assembly) (t : TypeId) : (g.run a).index.forType t =
    (a.typeEffects[t]?.getD []).flatMap (ModifierIndex.modifiersOf a.effects a.dbuffs t) :=
  ModifierIndex.forType_ofEffects a.effects a.dbuffs a.typeEffects t

end Engine

/-- the edge `e` on the cell `c` is the entry `raw` of the description of an effect that `source`
carries -/
structure Origin (g : Engine) (a : Assembly) (c : Cell) (e : Edge) (source : Item)
    (effect : EffectDefinition) (raw : RawModifier) : Prop where
  carried : a.fit.get? e.source = some source ∧ e.effect ∈ source.effects
  defined : a.effects[e.effect]? = some effect
  stated : ∃ description, effect.description = some description ∧ raw ∈ statedModifiers description
  modified : raw.modified = c.attr
  edge : e = Fit.edgeOf g.catalog g.rules e.source source
    (ModifierIndex.tie source.type effect e.effect a.dbuffs[e.effect]? raw)

/-- every edge of a simulation comes from an effect that its source carries -/
theorem Engine.origin (g : Engine) (s : Snapshot) (l : Loadout) {c : Cell} {e : Edge}
    (h : e ∈ (g.run (s.assembly l g.rules)).fit.edges c) :
    ∃ source effect raw, Origin g (s.assembly l g.rules) c e source effect raw := by
  rcases Fit.mem_edges_attachAll (f := (s.assembly l g.rules).fit) h with h | ⟨att, ha, rfl, rfl⟩
  · -- nothing acts on anything before
    rw [Snapshot.edges_assembly] at h
    exact absurd h List.not_mem_nil
  · obtain ⟨source, item, hi, m, hm, target, _, rfl⟩ := Fit.mem_attachments.mp ha
    have hm' : m ∈ (g.run (s.assembly l g.rules)).index.forType item.type := hm
    rw [g.forType_run, List.mem_flatMap] at hm'
    obtain ⟨key, hk, hm'⟩ := hm'
    obtain ⟨effect, description, raw, known, stated, hr, rfl⟩ :=
      ModifierIndex.mem_modifiersOf hm'
    have carried : key ∈ item.effects := Snapshot.effects_assembly _ _ hi ▸ hk
    exact ⟨item, effect, raw, ⟨hi, carried⟩, known, ⟨description, stated, hr⟩, rfl, rfl⟩

end Fitting
