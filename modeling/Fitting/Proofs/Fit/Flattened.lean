import Fitting.Document.Reference
import Fitting.Proofs.Fit.Arranged
import Fitting.Proofs.Fit.Stated

/-!
# A type table taken apart and put together again

A type table keeps together what a snapshot spreads over three lists of rows.  Assembling a fit
brings the rows of a type together again, each kind of them in a way of its own: of records the last
one counts, of values the last one of each attribute, and links are all kept, each once.

* `TypeEntry.about`        the entries of a type;
* `TypeEntry.value?`       the values of several entries, those of later entries over those of
                           earlier ones;
* `filter_flattened`       the rows of a type are those of its entries;
* `Item.Flattened`         an item as the entries of its type describe it;
* `assemble_flattened`     the items of a fit that is assembled from a type table are all of this
                           kind.
-/

namespace Fitting

namespace TypeEntry

/-- the entries of a type -/
def about (entries : List TypeEntry) (t : TypeId) : List TypeEntry :=
  entries.filter fun e => e.record.id = t

/-- the value of an attribute in the last of the entries that have one -/
def value? (entries : List TypeEntry) (a : AttributeId) : Option Float :=
  entries.reverse.findSome? fun e => e.attributes[a]?

/-- the record of the last entry -/
def record? (entries : List TypeEntry) : Option ItemType := entries.getLast?.map record

end TypeEntry

/-- an item as the entries of its type describe it.  How far a skill is trained is no matter of its
type. -/
structure Item.Flattened (entries : List TypeEntry) (i : Item) : Prop where
  attributes : ∀ a, (i.kind = .skill → a ≠ .skillLevel) →
    i.attributes[a]? =
      ((TypeEntry.value? entries a).or
        ((TypeEntry.record? entries).bind fun record => record.physical? a)).map
        fun base => { base, edges := [] }
  name : i.name = (TypeEntry.record? entries).map ItemType.name
  group : i.group = ((TypeEntry.record? entries).map ItemType.group).getD ⟨0⟩
  category : i.category = ((TypeEntry.record? entries).map ItemType.category).getD ⟨0⟩
  effects : i.effects = (entries.flatMap TypeEntry.effects).eraseDups

theorem Item.Flattened.base?_eq {entries : List TypeEntry} {i : Item} (h : i.Flattened entries)
    {a : AttributeId} (other : i.kind = .skill → a ≠ .skillLevel) :
    i.base? a =
      (TypeEntry.value? entries a).or
        ((TypeEntry.record? entries).bind fun record => record.physical? a) := by
  rw [Item.base?, h.attributes a other, Option.map_map]
  exact Option.map_id'

/-! ### the rows of a type -/

section
variable (entries : List TypeEntry) (t : TypeId)

/-- rows that entries give, each row under the type of its entry -/
theorem filter_flattened {ρ : Type} {rows : TypeEntry → List ρ} {type : ρ → TypeId}
    (own : ∀ e, ∀ row ∈ rows e, type row = e.record.id) :
    (entries.flatMap rows).filter (fun row => type row = t) =
      (TypeEntry.about entries t).flatMap rows := by
  unfold TypeEntry.about
  induction entries with
  | nil => rfl
  | cons e entries ih =>
    rw [List.flatMap_cons, List.filter_append, ih, List.filter_cons]
    by_cases h : e.record.id = t
    · have all : (rows e).filter (fun row => type row = t) = rows e :=
        List.filter_eq_self.mpr fun row hr => decide_eq_true ((own e row hr).trans h)
      rw [all, if_pos (decide_eq_true h), List.flatMap_cons]
    · have none : (rows e).filter (fun row => type row = t) = [] :=
        List.filter_eq_nil_iff.mpr fun row hr same =>
          h ((own e row hr).symm.trans (of_decide_eq_true same))
      rw [none, if_neg (by simpa using h), List.nil_append]

theorem filter_records : ((TypeEntry.snapshot entries).types.filter fun row => row.id = t) =
    (TypeEntry.about entries t).map TypeEntry.record :=
  List.filter_map

theorem filter_values :
    ((TypeEntry.snapshot entries).typeAttributes.filter fun row => row.type = t) =
    (TypeEntry.about entries t).flatMap fun e =>
      e.attributes.toList.map (fun (a, value) => ⟨e.record.id, a, value⟩) := by
  refine filter_flattened entries t fun e row hr => ?_
  obtain ⟨_, -, rfl⟩ := List.mem_map.mp hr
  rfl

theorem filter_links : ((TypeEntry.snapshot entries).typeEffects.filter fun link => link.type = t) =
    (TypeEntry.about entries t).flatMap fun e =>
      e.effects.map (fun effect => { type := e.record.id, effect }) := by
  refine filter_flattened entries t fun e link hl => ?_
  obtain ⟨_, -, rfl⟩ := List.mem_map.mp hl
  rfl

end

/-- the value of an attribute in the rows of one entry -/
theorem getLast?_rows (e : TypeEntry) (a : AttributeId) :
    ((e.attributes.toList.map fun (a, value) => AttributeRow.mk e.record.id a value).filter
      fun row => row.attr = a).getLast?.map AttributeRow.value = e.attributes[a]? := by
  rw [List.filter_map, List.getLast?_map, Option.map_map, List.getLast?_filter]
  have found := Map.find?_toList (List.reverse_perm e.attributes.toList) a
  refine (congrArg (Option.map Prod.snd) found).trans ?_
  rw [Option.map_map]
  exact Option.map_id'

/-! ### what the sources say of a type -/

/-- the rows that a type table gives for the types of a loadout -/
def TypeEntry.rows (entries : List TypeEntry) (l : Loadout) (rules : Rules) : Rows :=
  l.rows rules (snapshot entries).typeSource (snapshot entries).effectSource
    (some (snapshot entries).dbuffSource)

section
variable (entries : List TypeEntry) {l : Loadout} {rules : Rules} {t : TypeId}
  (asked : t ∈ l.participants rules)
include asked

theorem record?_flattened :
    (TypeEntry.rows entries l rules).record? t = TypeEntry.record? (TypeEntry.about entries t) := by
  have rows :=
    (filter_asked ItemType.id (TypeEntry.snapshot entries).types (l.participants rules) t).trans
      ((if_pos asked).trans (filter_records entries t))
  exact (congrArg List.getLast? rows).trans (List.getLast?_map ..)

theorem value?_flattened (a : AttributeId) :
    (TypeEntry.rows entries l rules).value? t a =
      TypeEntry.value? (TypeEntry.about entries t) a := by
  have rows : ((TypeEntry.rows entries l rules).values.filter fun row => row.type = t) = _ :=
    (filter_asked AttributeRow.type (TypeEntry.snapshot entries).typeAttributes _ t).trans
      ((if_pos asked).trans (filter_values entries t))
  have both :
      ((TypeEntry.rows entries l rules).values.filter fun row => row.type = t ∧ row.attr = a) =
      ((TypeEntry.rows entries l rules).values.filter fun row => row.type = t).filter
        fun row => row.attr = a := by
    rw [List.filter_filter]
    simp only [Bool.decide_and, Bool.and_comm]
  unfold Rows.value? TypeEntry.value?
  rw [both, rows, List.filter_flatMap, List.getLast?_flatMap, List.map_findSome?]
  exact congrArg (fun f => List.findSome? f _) (funext fun e => getLast?_rows e a)

theorem linked_flattened :
    (TypeEntry.rows entries l rules).linked t =
      (TypeEntry.about entries t).flatMap TypeEntry.effects := by
  have rows :=
    (filter_asked EffectLink.type (TypeEntry.snapshot entries).typeEffects
      (l.participants rules) t).trans
      ((if_pos asked).trans (filter_links entries t))
  refine (congrArg (List.map EffectLink.effect) rows).trans ?_
  rw [List.map_flatMap]
  simp only [List.map_map, Function.comp_def, List.map_id']

end

/-! ### the items of a fit -/

/-- Every item of a fit that is assembled from a type table is as the entries of its type describe
it.  An item of a type without entries has nothing. -/
theorem assemble_flattened (entries : List TypeEntry) (l : Loadout) (rules : Rules)
    (silent : l.pilot.attributes = ∅) :
    ∃ a, assemble (TypeEntry.snapshot entries).sources l rules = .ok a ∧
      ∀ h item, a.fit.get? h = some item →
        item.Flattened (TypeEntry.about entries item.type) ∧
        (TypeEntry.about entries item.type = [] →
          item.name = none ∧ item.group = ⟨0⟩ ∧ item.category = ⟨0⟩ ∧ item.effects = [] ∧
          ∀ a, (item.kind = .skill → a ≠ AttributeId.skillLevel) →
            item.attributes[a]? = none) := by
  obtain ⟨a, assembled, stated⟩ := assemble_stated (TypeEntry.snapshot entries).typeSource
    (TypeEntry.snapshot entries).effectSource (some (TypeEntry.snapshot entries).attributeSource)
    (some (TypeEntry.snapshot entries).dbuffSource) l rules
  refine ⟨a, assembled, fun h item found => ?_⟩
  have asked : item.type ∈ l.participants rules :=
    ((Fit.LaidOut.of_assemble assembled).types item.type).mpr ⟨h, item, found, rfl⟩
  have own : item.Stated (TypeEntry.rows entries l rules) l := stated.items h item found
  have flattened : item.Flattened (TypeEntry.about entries item.type) := by
    constructor
    · intro a other
      have ungiven : l.given? item.role a = none := by
        cases role : item.role with
        | pilot =>
          show l.pilot.attributes[a]? = none
          rw [silent]
          exact Std.ExtTreeMap.getElem?_empty
        | skill level => exact if_neg (other (congrArg Role.kind role))
        | _ => rfl
      rw [own.attributes, ungiven, Option.none_or, Rows.base?, value?_flattened entries asked,
        record?_flattened entries asked]
    · rw [own.name, record?_flattened entries asked]
    · rw [own.group, record?_flattened entries asked]
    · rw [own.category, record?_flattened entries asked]
    · -- a type table has no warfare buffs
      have unowned : (TypeEntry.rows entries l rules).owned item.type = [] := rfl
      rw [own.effects, unowned, List.filter_nil, List.eraseDups_nil, List.append_nil,
        linked_flattened entries asked]
  refine ⟨flattened, fun unknown => ?_⟩
  rw [unknown] at flattened
  exact ⟨flattened.name, flattened.group, flattened.category, flattened.effects,
    flattened.attributes⟩

/-- two entries of one type: the second one has another value for the attribute 37 and no mass -/
def describedTwice : List TypeEntry :=
  [{ record := { id := ⟨100⟩, name := "draft", group := ⟨25⟩, category := ⟨6⟩, mass := some 5.0 }
     attributes := ((∅ : Map AttributeId Float).insert ⟨37⟩ 200.0).insert ⟨38⟩ 40.0
     effects := [⟨11⟩, ⟨10⟩] },
    { record := { id := ⟨100⟩, name := "final", group := ⟨26⟩, category := ⟨6⟩, volume := some 7.0 }
      attributes := (∅ : Map AttributeId Float).insert ⟨37⟩ 300.0
      effects := [⟨10⟩, ⟨12⟩] }]

theorem assemble_flattened_twice : ({ hull := ⟨100⟩ } : Loadout).pilot.attributes = ∅ ∧
    ∃ a item, assemble (TypeEntry.snapshot describedTwice).sources { hull := ⟨100⟩ } {} = .ok a ∧
      a.fit.get? Fit.hull = some item ∧ item.name = some "final" ∧
        item.effects = [⟨11⟩, ⟨10⟩, ⟨12⟩] ∧
      item.base? ⟨37⟩ = some 300.0 ∧ item.base? ⟨38⟩ = some 40.0 ∧ item.base? .mass = none ∧
      item.base? .volume = some 7.0 := by
  refine ⟨rfl, ?_⟩
  obtain ⟨a, assembled, described⟩ := assemble_flattened describedTwice { hull := ⟨100⟩ } {} rfl
  obtain rfl := Except.ok.inj assembled
  have hull : Item.Flattened describedTwice _ := (described Fit.hull _ rfl).1
  exact ⟨_, _, rfl, rfl, hull.name, hull.effects, hull.base?_eq nofun, hull.base?_eq nofun,
    hull.base?_eq nofun, hull.base?_eq nofun⟩

end Fitting
