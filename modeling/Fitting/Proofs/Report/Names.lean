import Mathlib.Tactic.SplitIfs
import Fitting.Proofs.Resolution.Queries
import Fitting.Report.Basic

/-!
# Attributes by name

An item of a report has its values twice, by number and by name.  The names come from three places,
and two attributes may have one name: definitions may share it, a definition may take a standard
name, and it may be spelled as a number.

* `Catalog.Names`            where the name of an attribute comes from;
* `names_iff`                every attribute has one name, the reported one;
* `ResolvedItem.Indexed`     both tables of an item say the same, as far as names allow,
* `indexed_resolved`         and they do in every item of a report.
-/

namespace Fitting

/-- the attributes that have a name even if the reference data does not define them -/
def standardNames : List (AttributeId × String) :=
  [(.mass, "mass"), (.capacity, "capacity"), (.volume, "volume"), (.skillLevel, "skillLevel")]

/-- the name of an attribute is that of its definition, else its standard one, else its number -/
inductive Catalog.Names (c : Catalog) (a : AttributeId) : String → Prop where
  | defined {d : AttributeDefinition} : c.get? a = some d → Names c a d.name
  | standard {name : String} : c.get? a = none → (a, name) ∈ standardNames → Names c a name
  | number : c.get? a = none → a ∉ standardNames.map Prod.fst → Names c a (toString a.value.toInt)

theorem AttributeId.standardName?_eq_some (a : AttributeId) (name : String) :
    a.standardName? = some name ↔ (a, name) ∈ standardNames := by
  have distinct : [mass, capacity, volume, skillLevel].Nodup := by decide
  unfold standardName? standardNames
  simp only [List.mem_cons, List.not_mem_nil, or_false, Prod.mk.injEq]
  split_ifs <;> grind

theorem AttributeId.standardName?_eq_none (a : AttributeId) :
    a.standardName? = none ↔ a ∉ standardNames.map Prod.fst := by
  simp only [Option.eq_none_iff_forall_ne_some, Ne, standardName?_eq_some, List.mem_map,
    Prod.exists, exists_and_right, exists_eq_right, not_exists]

theorem Catalog.names_iff (c : Catalog) (a : AttributeId) (name : String) :
    c.Names a name ↔ c.reportName a = name := by
  unfold reportName
  constructor
  · rintro (known | ⟨unknown, standard⟩ | ⟨unknown, other⟩)
    · rw [known]
    · rw [unknown]
      dsimp only
      rw [(a.standardName?_eq_some name).mpr standard, Option.getD_some]
    · rw [unknown]
      dsimp only
      rw [a.standardName?_eq_none.mpr other, Option.getD_none, Key.digits]
  · rintro rfl
    cases known : c.get? a with
    | some d => exact .defined known
    | none =>
      cases standard : a.standardName? with
      | some name => exact .standard known ((a.standardName?_eq_some name).mp standard)
      | none => exact .number known (a.standardName?_eq_none.mp standard)

/-- what the two tables of an item say, where `value?` gives the value of an attribute that has
one -/
structure ResolvedItem.Indexed (r : ResolvedItem) (catalog : Catalog)
    (value? : AttributeId → Option Float) : Prop where
  byId : ∀ a, r.get? a = value? a
  /-- the names of the item are those of its attributes -/
  names : ∀ name, name ∈ r.attributesByName ↔ ∃ a, (value? a).isSome ∧ catalog.Names a name
  /-- of several attributes with one name the greatest counts -/
  greatest : ∀ name v, r.getByName? name = some v ↔ ∃ a, value? a = some v ∧ catalog.Names a name ∧
    ∀ b, (value? b).isSome → catalog.Names b name → b.value ≤ a.value
  /-- so an attribute that shares its name with no greater one is found in both ways -/
  agree : ∀ a name, (value? a).isSome → catalog.Names a name →
    (∀ b, (value? b).isSome → catalog.Names b name → ¬ a.value < b.value) →
      r.getByName? name = r.get? a

theorem Report.indexed_resolved (catalog : Catalog) (values : Values) (item : Item) :
    (Report.resolved catalog values item).Indexed catalog fun a => values.get? ⟨item.id, a⟩ := by
  have row : ∀ a, (values[item.id]?.getD ∅)[a]? = values.get? ⟨item.id, a⟩ :=
    values.getElem?_row item.id
  have order : ∀ a b : AttributeId, (compare b a).isLE ↔ b.value ≤ a.value := fun a b =>
    Std.isLE_compare (a := b.value) (b := a.value)
  have greatest : ∀ name v, (Report.resolved catalog values item).getByName? name = some v ↔
      ∃ a, values.get? ⟨item.id, a⟩ = some v ∧ catalog.Names a name ∧
        ∀ b, (values.get? ⟨item.id, b⟩).isSome → catalog.Names b name → b.value ≤ a.value := by
    intro name v
    have last := Map.rekeyed_eq_some (values[item.id]?.getD ∅) catalog.reportName name v
    simp only [row, ← Std.ExtTreeMap.isSome_getElem?_iff_mem, order, ← Catalog.names_iff] at last
    exact last
  constructor
  case byId => exact row
  case names =>
    intro name
    have entry : ∀ a, (∃ v, (a, v) ∈ (values[item.id]?.getD ∅).toList) ↔
        (values.get? ⟨item.id, a⟩).isSome := by
      intro a
      simp only [Std.ExtTreeMap.mem_toList_iff_getElem?_eq_some, row, Option.isSome_iff_exists]
    refine Map.mem_lastRows.trans ?_
    simp only [Prod.exists, exists_and_right, entry, Catalog.names_iff]
  case greatest => exact greatest
  case agree =>
    intro a name valued named last
    obtain ⟨v, hv⟩ := Option.isSome_iff_exists.mp valued
    have found : (Report.resolved catalog values item).getByName? name = some v :=
      (greatest name v).mpr ⟨a, hv, named, fun b hb same => Int32.not_lt.mp (last b hb same)⟩
    rw [found]
    exact ((row a).trans hv).symm

end Fitting
