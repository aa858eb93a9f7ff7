import Fitting.Fit.Correction
import Fitting.Proofs.Fit.Attached
import Fitting.Proofs.Resolution.Queries

/-!
# What corrections leave alone

Both corrections change single cells of the resolved values: mutations those that they name, of the
module or the drone that has them, and the propulsion module the velocity of the hull.

* `Values.get?_modify`   a change of one item keeps the cells that it does not touch;
* `getElem?_mutate`      the mutations of an item multiply each attribute that they name;
* `Uncorrected`          no correction is meant for a cell;
* `get?_correct`         such a cell keeps its value;
* `mem_correct`          and no attribute of an item gets a value or loses it.
-/

namespace Fitting

/-- a change of one item keeps a cell of another item, and one that the change does not touch -/
theorem Values.get?_modify {values : Values} {h : Handle}
    {change : Map AttributeId Float → Map AttributeId Float}
    {c : Cell} (kept : h = c.item → ∀ row, (change row)[c.attr]? = row[c.attr]?) :
    Values.get? (values.modify h change) c = values.get? c := by
  show (values.modify h change)[c.item]?.bind _ = _
  rw [Std.ExtTreeMap.getElem?_modify]
  split
  next same =>
    have item : h = c.item := Std.LawfulEqOrd.eq_of_compare same
    show _ = values[c.item]?.bind _
    rw [← item]
    cases values[h]? with
    | none => rfl
    | some row => exact kept item row
  next => rfl

namespace Fit

/-- a value with its multiplier, if there is one -/
def scaled (multiplier : Option Float) (value : Float) : Float :=
  match multiplier with
  | some m => value * m
  | none => value

theorem map_scaled_none (value : Option Float) : value.map (scaled none) = value := by
  cases value <;> rfl

/-- each attribute of an item is met once, if at all -/
theorem getElem?_mutate (mutations : Mutations) (resolved : Map AttributeId Float)
    (a : AttributeId) :
    (mutate mutations resolved)[a]? = resolved[a]?.map (scaled mutations[a]?) := by
  unfold mutate
  rw [Map.getElem?_foldl_modify mutations (fun multiplier value => value * multiplier)]
  cases mutations[a]? with
  | none => exact (map_scaled_none _).symm
  | some multiplier => rfl

theorem getElem?_mutate_unnamed {mutations : Mutations} {a : AttributeId} (unnamed : a ∉ mutations)
    (resolved : Map AttributeId Float) : (mutate mutations resolved)[a]? = resolved[a]? := by
  rw [getElem?_mutate, Std.ExtTreeMap.getElem?_eq_none unnamed, map_scaled_none]

/-- no correction is meant for the cell -/
structure Uncorrected (f : Fit) (rules : Rules) (c : Cell) : Prop where
  unmutated : rules.corrections → rules.applyMutations →
    ∀ mutations, (f.get? c.item).bind Item.mutations? = some mutations → c.attr ∉ mutations
  unsped : rules.corrections → (f.propulsionModule? rules).isSome → c ≠ ⟨hull, .maxVelocity⟩

section
variable {f : Fit} {catalog : Catalog} {rules : Rules} {values : Values} {c : Cell}

theorem get?_applyMutations
    (unmutated : ∀ mutations, (f.get? c.item).bind Item.mutations? = some mutations →
      c.attr ∉ mutations) :
    (f.applyMutations values).get? c = values.get? c := by
  refine List.foldlRecOn (motive := fun v : Values => v.get? c = values.get? c) _ _ rfl
    fun v same h _ => ?_
  split
  next mutations own =>
    have kept : h = c.item → ∀ row, (mutate mutations row)[c.attr]? = row[c.attr]? := by
      rintro rfl
      exact getElem?_mutate_unnamed (unmutated mutations own)
    exact (Values.get?_modify kept).trans same
  next => exact same

theorem get?_applyPropulsion
    (unsped : (f.propulsionModule? rules).isSome → c ≠ ⟨hull, .maxVelocity⟩) :
    (f.applyPropulsion catalog rules values).get? c = values.get? c := by
  unfold applyPropulsion
  split
  next => rfl
  next module chosen =>
    dsimp only
    split
    · rfl
    · apply Values.get?_modify
      intro item row
      have other : compare AttributeId.maxVelocity c.attr ≠ .eq := fun attr =>
        unsped (Option.isSome_of_eq_some chosen)
          (cell_eq item.symm (Std.LawfulEqOrd.eq_of_compare attr).symm)
      rw [Std.ExtTreeMap.getElem?_modify, if_neg other]

/-- a cell that no correction is meant for keeps its value -/
theorem get?_correct (uncorrected : f.Uncorrected rules c) :
    (f.correct catalog rules values).get? c = values.get? c := by
  unfold correct
  split
  next on =>
    dsimp only
    rw [get?_applyPropulsion (uncorrected.unsped on)]
    split
    next mutating => exact get?_applyMutations (uncorrected.unmutated on mutating)
    next => rfl
  next => rfl

end

/-! ### the attributes that have a value -/

section
variable {a : AttributeId} {h : Handle}

theorem mem_mutate {mutations : Mutations} {resolved : Map AttributeId Float} :
    a ∈ mutate mutations resolved ↔ a ∈ resolved := by
  rw [← Std.ExtTreeMap.isSome_getElem?_iff_mem, getElem?_mutate, Option.isSome_map,
    Std.ExtTreeMap.isSome_getElem?_iff_mem]

/-- a change of values, but not of the attributes that have one -/
theorem mem_modify_values {values : Values} {k : Handle}
    {change : Map AttributeId Float → Map AttributeId Float} (same : ∀ r, a ∈ change r ↔ a ∈ r) :
    a ∈ (values.modify k change)[h]?.getD ∅ ↔ a ∈ values[h]?.getD ∅ := by
  rw [Std.ExtTreeMap.getElem?_modify]
  split
  next hk =>
    obtain rfl := Std.LawfulEqOrd.eq_of_compare hk
    cases values[k]? with
    | none => rfl
    | some r => exact same r
  next => rfl

variable (f : Fit) (catalog : Catalog) (rules : Rules) (values : Values)

theorem mem_applyMutations : a ∈ (f.applyMutations values)[h]?.getD ∅ ↔ a ∈ values[h]?.getD ∅ := by
  refine List.foldlRecOn
    (motive := fun v : Values => a ∈ v[h]?.getD ∅ ↔ a ∈ values[h]?.getD ∅) _ _ Iff.rfl
    fun v same k _ => ?_
  split
  · exact (mem_modify_values fun _ => mem_mutate).trans same
  · exact same

theorem mem_applyPropulsion :
    a ∈ (f.applyPropulsion catalog rules values)[h]?.getD ∅ ↔ a ∈ values[h]?.getD ∅ := by
  unfold applyPropulsion
  split
  · rfl
  · dsimp only
    split
    · rfl
    · exact mem_modify_values fun _ => Std.ExtTreeMap.mem_modify

/-- corrections change values, but not the attributes that have one -/
theorem mem_correct : a ∈ (f.correct catalog rules values)[h]?.getD ∅ ↔ a ∈ values[h]?.getD ∅ := by
  unfold correct
  split
  · dsimp only
    rw [mem_applyPropulsion]
    split
    · exact f.mem_applyMutations values
    · rfl
  · rfl

end

end Fit

end Fitting
