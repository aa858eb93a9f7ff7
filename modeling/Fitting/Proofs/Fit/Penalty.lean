import Fitting.Proofs.Fit.Origin

/-!
# Which buffs are penalized for stacking

The edges of a warfare buff are to be penalized whatever they act on and whatever their source is.
They are recognised by the sign of their synthetic effect, and the effect of a buff is its negated
key: so it is the buffs with a positive key that are recognised, and all others are treated as any
other effect.

* `isSynthetic_effect`   the effect of a buff is below zero exactly if the key of the buff is above;
* `buffs_penalized`      which edges of buffs are penalized.
-/

namespace Fitting

/-- negation keeps the keys above the least one apart from zero -/
theorem isSynthetic_effect {d : DbuffId} (h : Int32.minValue < d.value) :
    d.effect.isSynthetic = decide (0 < d.value) := by
  have lower := Int32.lt_iff_toInt_lt.mp h
  have hmin : Int32.minValue.toInt = -2147483648 := rfl
  have upper := d.value.toInt_le
  have hmax : Int32.maxValue.toInt = 2147483647 := rfl
  -- only the least key is its own negation
  have hneg : (-d.value).toInt = -d.value.toInt := by
    rw [Int32.toInt_neg, Int.bmod_eq_of_le] <;> omega
  have hzero : (0 : Int32).toInt = 0 := rfl
  refine decide_eq_decide.mpr ?_
  show -d.value < 0 ↔ 0 < d.value
  rw [Int32.lt_iff_toInt_lt, Int32.lt_iff_toInt_lt, hneg]
  omega

/-- the tag of an edge and its effect are of one row -/
theorem Origin.row {g : Engine} {s : Snapshot} {l : Loadout} {c : Cell} {e : Edge} {source : Item}
    {effect : EffectDefinition} {raw : RawModifier} {tag : DbuffTag}
    (h : Origin g (s.assembly l g.rules) c e source effect raw) (ht : e.dbuff = some tag) :
    ∃ row ∈ s.dbuffs, e.effect = row.effect ∧ tag = row.tag := by
  have htag : (s.assembly l g.rules).dbuffs[e.effect]? = some tag := by
    rw [← ht]
    exact (congrArg Edge.dbuff h.edge).symm
  rw [Snapshot.assembly, Assembly.dbuffs_ofRows] at htag
  obtain ⟨row, hr, rfl⟩ := Option.map_eq_some_iff.mp htag
  have hm := List.mem_of_find?_eq_some hr
  have heff : row.effect = e.effect := by simpa using List.find?_some hr
  exact ⟨row, (List.mem_filter.mp hm).1, heff.symm, rfl⟩

/-- an edge of a buff with a positive key is penalized; any other is penalized as if it were of no
buff, unless its attribute is stackable or its source exempt -/
theorem buffs_penalized (g : Engine) (s : Snapshot) (l : Loadout)
    (ids : ∀ row ∈ s.dbuffs, Int32.minValue < row.dbuff.value) :
    ∃ sim, g.stages s.sources l = .ok sim ∧
      ∀ c e tag, e ∈ sim.fit.edges c → e.dbuff = some tag →
        ∃ source, sim.assembly.fit.get? e.source = some source ∧
          e.penalized = (decide (0 < tag.dbuff.value) ||
            (!g.catalog.isStackable c.attr && !g.rules.isExempt source.category)) := by
  refine ⟨_, g.stages_sources s l, fun c e tag he ht => ?_⟩
  obtain ⟨source, effect, raw, origin⟩ := g.origin s l he
  obtain ⟨row, hr, heff, rfl⟩ := origin.row ht
  refine ⟨source, origin.carried.1, ?_⟩
  have hp : e.penalized = (!g.catalog.isStackable raw.modified && !g.rules.isExempt source.category
      || e.effect.isSynthetic) := congrArg Edge.penalized origin.edge
  rw [hp, origin.modified, heff, DbuffRow.effect, isSynthetic_effect (ids row hr), Bool.or_comm]
  rfl

/-! ### one buff -/

/-- a hull that owns one warfare buff, on its velocity -/
def burstHull (key : Int32) : Snapshot where
  types := [{ id := ⟨100⟩, name := "hull", group := ⟨10⟩, category := .ship }]
  typeAttributes := [⟨⟨100⟩, ⟨37⟩, 200.0⟩, ⟨⟨100⟩, ⟨60⟩, 20.0⟩]
  dbuffs :=
    [{ type := ⟨100⟩
       dbuff := ⟨key⟩
       mode := .maximum
       description := "[\x7b\"func\": \"ItemModifier\", \"domain\": \"shipID\",
         \"modifiedAttributeID\": 37, \"modifyingAttributeID\": 60, \"operation\": 6\x7d]" }]

/-- the edge of this buff -/
def burstEdge (key : Int32) (penalized : Bool) : Edge where
  source := Fit.hull
  sourceAttribute := ⟨60⟩
  operation := .postPercent
  effect := ⟨-key⟩
  category := .active
  penalized := penalized
  dbuff := some ⟨⟨key⟩, .maximum⟩

/-- the buff 5 is penalized, though its source is exempt -/
theorem buffs_penalized_positive :
    (∀ row ∈ (burstHull 5).dbuffs, Int32.minValue < row.dbuff.value) ∧
    ∃ sim, bareEngine.stages (burstHull 5).sources { hull := ⟨100⟩ } = .ok sim ∧
      burstEdge 5 true ∈ sim.fit.edges ⟨Fit.hull, ⟨37⟩⟩ ∧
      ∃ source, sim.assembly.fit.get? Fit.hull = some source ∧
        (burstEdge 5 true).penalized =
          (decide ((0 : Int32) < 5) ||
            (!bareEngine.catalog.isStackable ⟨37⟩ &&
              !bareEngine.rules.isExempt source.category)) := by
  have ids : ∀ row ∈ (burstHull 5).dbuffs, Int32.minValue < row.dbuff.value := by decide
  obtain ⟨sim, run, h⟩ := buffs_penalized bareEngine (burstHull 5) { hull := ⟨100⟩ } ids
  have attached : burstEdge 5 true ∈ sim.fit.edges ⟨Fit.hull, ⟨37⟩⟩ := by
    rw [Engine.stages_sources] at run
    rw [← Except.ok.inj run]
    decide +kernel
  exact ⟨ids, sim, run, attached, h _ _ _ attached rfl⟩

/-- the buff -5 is not -/
theorem buff_not_penalized : ∃ sim,
    bareEngine.stages (burstHull (-5)).sources { hull := ⟨100⟩ } = .ok sim ∧
      burstEdge (-5) false ∈ sim.fit.edges ⟨Fit.hull, ⟨37⟩⟩ := by
  refine ⟨_, Engine.stages_sources _ _ _, ?_⟩
  decide +kernel

end Fitting
