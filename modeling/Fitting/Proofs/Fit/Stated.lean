import Fitting.Proofs.Fit.EffectOrder
import Fitting.Proofs.Fit.Places

/-!
# What the sources state of an item

The sources answer with rows.  Of one thing there may be several rows that contradict each other, or
none, and the loadout has a say of its own.  Which of them counts differs from one property of an
item to the next.

* `Rows`              all that the sources answer about the types of a loadout;
* `Rows.base?`        of several values of an attribute the last one counts, and the record of the
                      type, which is again the last one, counts where there is no value at all;
* `Loadout.given?`    the values that the loadout gives to the pilot and to skills, which count
                      before any row;
* `Item.Stated`       an item as the rows and the loadout state it;
* `Assembly.Stated`   an assembled fit of such items; of several rows of a warfare buff the first
                      one counts;
* `assemble_stated`   every assembled fit is of this kind.
-/

namespace Fitting

/-! ### the rows -/

/-- the rows that the sources give for the types of a loadout -/
structure Rows where
  records : List ItemType
  values : List AttributeRow
  links : List EffectLink
  buffs : List DbuffRow

/-- each source is asked about all types that take part; without a source of warfare buffs there are
none -/
def Loadout.rows (l : Loadout) (rules : Rules) (types : ItemTypeSource) (effects : EffectSource)
    (dbuffs : Option DbuffSource) : Rows where
  records := types.records (l.participants rules)
  values := types.attributes (l.participants rules)
  links := effects.links (l.participants rules)
  buffs := (dbuffs.map fun source => source.collections (l.participants rules)).getD []

/-- the attribute value that a record states besides the rows of its type -/
def ItemType.physical? (record : ItemType) (a : AttributeId) : Option Float :=
  if a = .mass then record.mass
  else if a = .capacity then record.capacity
  else if a = .volume then record.volume
  else none

namespace Rows
variable (r : Rows)

/-- the last record of a type -/
def record? (t : TypeId) : Option ItemType :=
  (r.records.filter fun record => record.id = t).getLast?

/-- the last value of an attribute of a type -/
def value? (t : TypeId) (a : AttributeId) : Option Float :=
  (r.values.filter fun row => row.type = t ∧ row.attr = a).getLast?.map AttributeRow.value

/-- the base value of an attribute of a type: the last value, or else what the last record states -/
def base? (t : TypeId) (a : AttributeId) : Option Float :=
  (r.value? t a).or ((r.record? t).bind fun record => record.physical? a)

/-- the effects that a type is linked to -/
def linked (t : TypeId) : List EffectId :=
  (r.links.filter fun link => link.type = t).map EffectLink.effect

/-- the synthetic effects of the warfare buffs that a type owns -/
def owned (t : TypeId) : List EffectId :=
  (r.buffs.filter fun row => row.type = t).map DbuffRow.effect

/-- the first row of a warfare buff, whichever type owns it -/
def buff? (d : DbuffId) : Option DbuffRow := (r.buffs.filter fun row => row.dbuff = d).head?

end Rows

/-- the value that the loadout itself gives to an attribute of an item: any attribute of the pilot,
and the level of a skill -/
def Loadout.given? (l : Loadout) (role : Role) (a : AttributeId) : Option Float :=
  match role with
  | .pilot => l.pilot.attributes[a]?
  | .skill level => if a = .skillLevel then some (Float.ofNat level.toNat) else none
  | _ => none

/-- an item as the rows of its type and the loadout state it, before anything acts on it -/
structure Item.Stated (r : Rows) (l : Loadout) (i : Item) : Prop where
  attributes : ∀ a, i.attributes[a]? =
    ((l.given? i.role a).or (r.base? i.type a)).map fun base => { base, edges := [] }
  name : i.name = (r.record? i.type).map ItemType.name
  group : i.group = ((r.record? i.type).map ItemType.group).getD ⟨0⟩
  category : i.category = ((r.record? i.type).map ItemType.category).getD ⟨0⟩
  effects : i.effects =
    (r.linked i.type).eraseDups ++ ((r.owned i.type).filter fun e => e ∉ r.linked i.type).eraseDups

/-- an assembled fit of such items.  The synthetic effect of a warfare buff has the negated id of
the buff, is active and named after it; its mode and its description are on the first row of the
buff. -/
structure Assembly.Stated (r : Rows) (l : Loadout) (a : Assembly) : Prop where
  items : ∀ h item, a.fit.get? h = some item → item.Stated r l
  buffs : ∀ d : DbuffId, a.dbuffs[(⟨-d.value⟩ : EffectId)]? =
    (r.buff? d).map fun row => { dbuff := d, mode := row.mode }
  definitions : ∀ (d : DbuffId) (row : DbuffRow), r.buff? d = some row →
    a.effects[(⟨-d.value⟩ : EffectId)]? = some
      { id := ⟨-d.value⟩
        name := "dbuff" ++ d.digits
        category := .active
        description := some row.description }

/-- nothing is stated of the id of an item -/
theorem Item.Stated.withId {r : Rows} {l : Loadout} {i : Item} (stated : i.Stated r l)
    (h : Handle) :
    (i.withId h).Stated r l :=
  ⟨stated.attributes, stated.name, stated.group, stated.category, stated.effects⟩

/-! ### the item of a type -/

/-- what the rows say, type by type -/
def Rows.sheets (r : Rows) : TypeSheets where
  records := Map.lastRows ItemType.id id r.records
  attributes := attributesByType r.values
  effects := addDbuffEffects (effectsByType r.links) r.buffs

namespace Rows
variable (r : Rows) (t : TypeId)

theorem records_eq : r.sheets.records[t]? = r.record? t := by
  refine (Map.getElem?_lastRows ItemType.id id r.records t).trans ?_
  rw [Option.map_id, record?, List.getLast?_filter]
  rfl

theorem values_eq (a : AttributeId) : (r.sheets.attributes[t]?.getD ∅)[a]? = r.value? t a := by
  have rows : r.sheets.attributes[t]?.getD ∅ = _ := getD_attributesByType r.values t
  rw [rows, Map.getElem?_lastRows, value?, ← List.getLast?_filter, List.filter_filter]
  simp only [Bool.decide_and, Bool.and_comm]

theorem effects_eq : r.sheets.effects[t]?.getD [] =
    (r.linked t).eraseDups ++ ((r.owned t).filter fun e => e ∉ r.linked t).eraseDups := by
  have unlinked : (r.owned t).removeAll (r.linked t) = (r.owned t).filter fun e =>
      e ∉ r.linked t := by
    simp [List.removeAll]
  rw [← unlinked, ← List.eraseDups_append]
  exact getD_addDbuffEffects r.links r.buffs t

end Rows

theorem getElem?_fillGap (attributes : Map AttributeId Attribute) (gap : AttributeId × Option Float)
    (a : AttributeId) :
    (TypeSheets.fillGap attributes gap)[a]? =
      attributes[a]?.or (if gap.1 = a then gap.2.map fun base => { base } else none) := by
  obtain ⟨slot, value⟩ := gap
  cases value with
  | none => simp [TypeSheets.fillGap]
  | some value => exact Map.getElem?_insertIfNew_or attributes slot a { base := value }

theorem getElem?_fillGaps (attributes : Map AttributeId Attribute) (record : ItemType)
    (a : AttributeId) :
    ([(AttributeId.mass, record.mass), (AttributeId.capacity, record.capacity),
      (AttributeId.volume, record.volume)].foldl TypeSheets.fillGap attributes)[a]? =
      attributes[a]?.or ((record.physical? a).map fun base => { base }) := by
  -- no two of the gaps are of one attribute, so each can be filled on its own
  have distinct : AttributeId.mass ≠ .capacity ∧ AttributeId.mass ≠ .volume ∧
      AttributeId.capacity ≠ .volume := by decide
  simp only [List.foldl_cons, List.foldl_nil, getElem?_fillGap, Option.or_assoc]
  unfold ItemType.physical?
  by_cases mass : a = .mass
  · simp [mass, distinct.1.symm, distinct.2.1.symm]
  · by_cases capacity : a = .capacity
    · simp [capacity, distinct.1, distinct.1.symm, distinct.2.2.symm]
    · by_cases volume : a = .volume
      · simp [volume, distinct.2.1, distinct.2.1.symm, distinct.2.2, distinct.2.2.symm]
      · simp [mass, capacity, volume, Ne.symm mass, Ne.symm capacity, Ne.symm volume]

theorem Rows.baseAttributes_eq (r : Rows) (t : TypeId) (a : AttributeId) :
    (r.sheets.baseAttributes t)[a]? = (r.base? t a).map fun base => { base } := by
  have stated : ((r.sheets.attributes[t]?.getD ∅).map
      fun _ value => ({ base := value } : Attribute))[a]? =
      (r.value? t a).map fun base => { base } := by
    rw [Std.ExtTreeMap.getElem?_map, r.values_eq]
  unfold TypeSheets.baseAttributes Rows.base?
  rw [r.records_eq]
  cases r.record? t with
  | none => simpa using stated
  | some record =>
    refine (getElem?_fillGaps _ record a).trans ?_
    rw [stated, Option.map_or]
    rfl

theorem Item.getElem?_withBases (i : Item) (values : Map AttributeId Float) (a : AttributeId) :
    (i.withBases values).attributes[a]? =
      (values[a]?.map fun base => { base }).or i.attributes[a]? :=
  Map.getElem?_overlay values (fun base => ({ base } : Attribute)) i.attributes a

/-! ### the items of a fit -/

namespace Rows
variable (r : Rows) (l : Loadout)

/-- all but its attributes an item has from the rows of its type -/
theorem stated_of_attributes (t : TypeId) (role : Role) {attributes : Map AttributeId Attribute}
    (h : ∀ a, attributes[a]? = ((l.given? role a).or (r.base? t a)).map fun base => { base }) :
    ({ r.sheets.item t role with attributes } : Item).Stated r l where
  attributes := h
  name := congrArg (Option.map ItemType.name) (r.records_eq t)
  group := congrArg (fun record => (Option.map ItemType.group record).getD ⟨0⟩) (r.records_eq t)
  category :=
    congrArg (fun record => (Option.map ItemType.category record).getD ⟨0⟩) (r.records_eq t)
  effects := r.effects_eq t

theorem stated_item (t : TypeId) {role : Role} (silent : ∀ a, l.given? role a = none) :
    (r.sheets.item t role).Stated r l := by
  refine r.stated_of_attributes l t role fun a => ?_
  rw [silent, Option.none_or]
  exact r.baseAttributes_eq t a

theorem stated_pilot (t : TypeId) :
    ((r.sheets.item t .pilot).withBases l.pilot.attributes).Stated r l := by
  refine r.stated_of_attributes l t .pilot fun a => ?_
  refine (Item.getElem?_withBases _ l.pilot.attributes a).trans ?_
  have own : (r.sheets.item t .pilot).attributes[a]? = _ := r.baseAttributes_eq t a
  rw [own, ← Option.map_or]
  rfl

theorem stated_skill (t : TypeId) (level : UInt8) : (r.sheets.skillItem (t, level)).Stated r l := by
  refine r.stated_of_attributes l t (.skill level) fun a => ?_
  have own : (r.sheets.item t (.skill level)).attributes[a]? = _ := r.baseAttributes_eq t a
  rw [Std.ExtTreeMap.getElem?_insert, own]
  unfold Loadout.given?
  by_cases h : AttributeId.skillLevel = a
  · simp [h]
  · have hc : compare AttributeId.skillLevel a ≠ .eq :=
      fun he => h (Std.LawfulEqOrd.eq_of_compare he)
    simp [hc, Ne.symm h]

theorem stated_placed (p : Place) : (r.sheets.placed l.pilot.attributes p).Stated r l := by
  obtain ⟨type, role⟩ := p
  cases role with
  | pilot => exact r.stated_pilot l type
  | skill level => exact r.stated_skill l type level
  | _ => exact r.stated_item l type fun _ => rfl

theorem stated_fit (rules : Rules) : (r.sheets.fit l rules).Every fun item => item.Stated r l := by
  intro h item found
  have stands : (h, item) ∈ (r.sheets.fit l rules).entries := Fit.mem_entries.mpr found
  rw [r.sheets.entries_fit_places] at stands
  obtain ⟨-, _, there, rfl⟩ := Fit.mem_itemsFrom stands
  obtain ⟨p, -, rfl⟩ := List.mem_map.mp there
  exact (r.stated_placed l p).withId h

end Rows

/-! ### the synthetic effects -/

theorem DbuffId.effect_inj {d d' : DbuffId} : d.effect = d'.effect ↔ d = d' := by
  refine ⟨fun h => ?_, congrArg _⟩
  -- the negation wraps, and is one-to-one all the same
  have negated : -d.value = -d'.value := congrArg Key.value h
  cases d
  cases d'
  exact congrArg Key.mk (Int32.neg_inj.mp negated)

theorem Rows.find?_effect (r : Rows) (d : DbuffId) :
    (r.buffs.find? fun row => row.effect = d.effect) = r.buff? d := by
  rw [buff?, List.head?_filter]
  refine List.find?_congr fun row _ => ?_
  exact decide_eq_decide.mpr DbuffId.effect_inj

theorem Rows.buff?_dbuff {r : Rows} {d : DbuffId} {row : DbuffRow} (first : r.buff? d = some row) :
    row.dbuff = d := by
  rw [buff?, List.head?_filter] at first
  simpa using List.find?_some first

/-! ### the whole assembly -/

section
variable (types : ItemTypeSource) (effects : EffectSource) (attributes : Option AttributeSource)
  (dbuffs : Option DbuffSource) (l : Loadout) (rules : Rules)

theorem assemble_eq :
    assemble { types := some types, effects := some effects, attributes, dbuffs } l rules =
    .ok (.ofRows l rules types effects (l.rows rules types effects dbuffs).buffs) := by
  cases dbuffs <;> rfl

/-- every item of an assembled fit is as the rows and the loadout state it, and so are the warfare
buffs -/
theorem assemble_stated :
    ∃ a,
      assemble { types := some types, effects := some effects, attributes, dbuffs } l rules =
        .ok a ∧
      a.Stated (l.rows rules types effects dbuffs) l := by
  refine ⟨_, assemble_eq types effects attributes dbuffs l rules, ?_, fun d => ?_,
    fun d row first => ?_⟩
  · exact (l.rows rules types effects dbuffs).stated_fit l rules
  · refine (Assembly.dbuffs_ofRows ..).trans ((congrArg _ (Rows.find?_effect _ d)).trans ?_)
    refine Option.map_congr fun row first => ?_
    rw [← Rows.buff?_dbuff first]
    rfl
  · obtain rfl := Rows.buff?_dbuff first
    refine (Assembly.effects_ofRows ..).trans ?_
    have found := (Rows.find?_effect _ row.dbuff).trans first
    exact congrArg (fun o => (Option.map DbuffRow.definition o).or _) found

end

end Fitting
