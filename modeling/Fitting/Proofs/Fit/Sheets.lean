import Fitting.Fit.Assembly
import Fitting.Proofs.Tables

/-!
# What the sheets say of a type

The sheets are filled row by row, in the order of the rows.  What they say of a type depends on the
rows of that type alone.

* `getD_attributesByType`   the attribute values of a type, the last row of an attribute being the
                            one that counts;
* `attributesByType_append_self`, `attributesByType_perm`   rows that come twice, or in another
                                                            order;
* `mem_effectsByType`       the effects of a type are those that it is linked to,
* `mem_addDbuffEffects`     and those of the warfare buffs that it owns;
* `foldl_addEffect_of_mem`  an effect that a type has already is not added again;
* `mem_effectKeys`          the effects of all types together;
* `records_sheets`, `values_sheets`   what a snapshot says of a type that is asked for.
-/

namespace Fitting

/-- what the sources of a snapshot say about the types of a loadout -/
def Snapshot.sheets (s : Snapshot) (l : Loadout) (rules : Rules) : TypeSheets where
  records := Map.lastRows ItemType.id id (s.typeSource.records (l.participants rules))
  attributes := attributesByType (s.typeSource.attributes (l.participants rules))
  effects := addDbuffEffects (effectsByType (s.effectSource.links (l.participants rules)))
    (s.dbuffSource.collections (l.participants rules))

/-! ### attribute values -/

theorem getD_attributesByType (rows : List AttributeRow) (t : TypeId) :
    (attributesByType rows)[t]?.getD ∅ =
      Map.lastRows AttributeRow.attr AttributeRow.value
        (rows.filter (fun row => row.type = t)) := by
  unfold attributesByType
  induction rows using List.reverseRecOn with
  | nil => rfl
  | append_singleton rows row ih =>
    rw [List.foldl_append, List.foldl_cons, List.foldl_nil, Std.ExtTreeMap.getElem?_alter,
      List.filter_append]
    by_cases h : row.type = t
    · subst h
      rw [if_pos Std.ReflCmp.compare_self, Option.getD_some, ih]
      simp [Map.lastRows]
    · have hc : compare row.type t ≠ .eq := fun he => h (Std.LawfulEqOrd.eq_of_compare he)
      rw [if_neg hc, ih]
      simp [h]

theorem mem_attributesByType {rows : List AttributeRow} {t : TypeId} :
    t ∈ attributesByType rows ↔ ∃ row ∈ rows, row.type = t := by
  unfold attributesByType
  induction rows using List.reverseRecOn with
  | nil => simp
  | append_singleton rows row ih =>
    rw [List.foldl_append, List.foldl_cons, List.foldl_nil, Std.ExtTreeMap.mem_alter]
    by_cases h : row.type = t
    · subst h
      simp
    · have hc : compare row.type t ≠ .eq := fun he => h (Std.LawfulEqOrd.eq_of_compare he)
      simp [hc, h, ih]

/-- the values of all types are those of each type that has rows -/
theorem attributesByType_congr {rows rows' : List AttributeRow}
    (types : ∀ t, (∃ row ∈ rows, row.type = t) ↔ ∃ row ∈ rows', row.type = t)
    (values : ∀ t : TypeId,
      Map.lastRows AttributeRow.attr AttributeRow.value (rows.filter (fun row => row.type = t)) =
        Map.lastRows AttributeRow.attr AttributeRow.value
          (rows'.filter (fun row => row.type = t))) :
    attributesByType rows = attributesByType rows' := by
  apply Std.ExtTreeMap.ext_getElem?
  intro t
  have known : t ∈ attributesByType rows ↔ t ∈ attributesByType rows' := by
    rw [mem_attributesByType, mem_attributesByType]
    exact types t
  have same : (attributesByType rows)[t]?.getD ∅ = (attributesByType rows')[t]?.getD ∅ := by
    rw [getD_attributesByType, getD_attributesByType]
    exact values t
  rw [← Std.ExtTreeMap.isSome_getElem?_iff_mem, ← Std.ExtTreeMap.isSome_getElem?_iff_mem] at known
  -- a type without rows is told apart from one whose values are none
  cases h : (attributesByType rows)[t]? <;> cases h' : (attributesByType rows')[t]? <;>
    simp_all

theorem attributesByType_append_self (rows : List AttributeRow) :
    attributesByType (rows ++ rows) = attributesByType rows := by
  apply attributesByType_congr
  · intro t
    simp
  · intro t
    rw [List.filter_append]
    exact Map.lastRows_append_self _ _ _

theorem attributesByType_perm {rows rows' : List AttributeRow}
    (h : (rows.map fun row => (row.type, row.attr)).Nodup) (perm : rows.Perm rows') :
    attributesByType rows = attributesByType rows' := by
  apply attributesByType_congr
  · intro t
    simp only [perm.mem_iff]
  · intro t
    -- among the rows of one type the attributes alone tell the rows apart
    have pairs : ((rows.filter (fun row => row.type = t)).map fun row => (row.type, row.attr)) =
        ((rows.filter (fun row => row.type = t)).map AttributeRow.attr).map (Prod.mk t) := by
      rw [List.map_map]
      refine List.map_congr_left fun row hr => ?_
      have ht : row.type = t := by simpa using (List.mem_filter.mp hr).2
      rw [ht]
      rfl
    have nodup := h.sublist ((rows.filter_sublist (p := fun row => row.type = t)).map _)
    rw [pairs] at nodup
    exact Map.lastRows_perm _ nodup.of_map (perm.filter _)

/-! ### effects -/

section
variable {m : Map TypeId (List EffectId)} {t : TypeId} {e : EffectId}

theorem mem_addEffect {type : TypeId} {effect : EffectId} :
    e ∈ (addEffect m type effect)[t]?.getD [] ↔ e ∈ m[t]?.getD [] ∨ type = t ∧ effect = e := by
  unfold addEffect
  rw [Std.ExtTreeMap.getElem?_alter]
  by_cases h : type = t
  · subst h
    rw [if_pos Std.ReflCmp.compare_self, Option.getD_some]
    by_cases known : effect ∈ m[type]?.getD []
    · rw [if_pos (List.contains_iff_mem.mpr known)]
      refine ⟨.inl, ?_⟩
      rintro (he | ⟨-, rfl⟩)
      · exact he
      · exact known
    · rw [if_neg (mt List.contains_iff_mem.mp known), List.mem_append, List.mem_singleton]
      simp [eq_comm]
  · have hc : compare type t ≠ .eq := fun he => h (Std.LawfulEqOrd.eq_of_compare he)
    rw [if_neg hc]
    simp [h]

theorem addEffect_of_mem {type : TypeId} {effect : EffectId} (known : effect ∈ m[type]?.getD []) :
    addEffect m type effect = m := by
  unfold addEffect
  apply Std.ExtTreeMap.ext_getElem?
  intro t
  rw [Std.ExtTreeMap.getElem?_alter]
  split
  next h =>
    obtain rfl := Std.LawfulEqOrd.eq_of_compare h
    dsimp only
    rw [if_pos (List.contains_iff_mem.mpr known)]
    cases hk : m[type]? with
    | none =>
      rw [hk] at known
      exact absurd known List.not_mem_nil
    | some keys => rfl
  next => rfl

theorem foldl_addEffect_of_mem {ρ : Type} (type : ρ → TypeId) (effect : ρ → EffectId)
    (rows : List ρ) (known : ∀ row ∈ rows, effect row ∈ m[type row]?.getD []) :
    rows.foldl (fun m row => addEffect m (type row) (effect row)) m = m := by
  induction rows with
  | nil => rfl
  | cons row rows ih =>
    rw [List.foldl_cons, addEffect_of_mem (known row List.mem_cons_self)]
    exact ih fun other h => known other (List.mem_cons_of_mem row h)

theorem mem_foldl_addEffect {ρ : Type} (type : ρ → TypeId) (effect : ρ → EffectId) (rows : List ρ) :
    ∀ m : Map TypeId (List EffectId),
      e ∈ (rows.foldl (fun m row => addEffect m (type row) (effect row)) m)[t]?.getD [] ↔
        e ∈ m[t]?.getD [] ∨ ∃ row ∈ rows, type row = t ∧ effect row = e := by
  induction rows with
  | nil => exact fun m => by simp
  | cons row rows ih =>
    intro m
    rw [List.foldl_cons, ih, mem_addEffect, List.exists_mem_cons_iff, or_assoc]

/-- the effects of a type are those that it is linked to -/
theorem mem_effectsByType {links : List EffectLink} :
    e ∈ (effectsByType links)[t]?.getD [] ↔ ∃ link ∈ links, link.type = t ∧ link.effect = e := by
  unfold effectsByType
  rw [mem_foldl_addEffect EffectLink.type EffectLink.effect]
  simp

/-- and those of the warfare buffs that it owns -/
theorem mem_addDbuffEffects {rows : List DbuffRow} :
    e ∈ (addDbuffEffects m rows)[t]?.getD [] ↔
      e ∈ m[t]?.getD [] ∨ ∃ row ∈ rows, row.type = t ∧ row.effect = e :=
  mem_foldl_addEffect DbuffRow.type DbuffRow.effect rows m

theorem effectsByType_append_self (links : List EffectLink) :
    effectsByType (links ++ links) = effectsByType links := by
  unfold effectsByType
  rw [List.foldl_append]
  exact foldl_addEffect_of_mem EffectLink.type EffectLink.effect links
    fun link h => mem_effectsByType.mpr ⟨link, h, rfl, rfl⟩

theorem addDbuffEffects_append_self (m : Map TypeId (List EffectId)) (rows : List DbuffRow) :
    addDbuffEffects m (rows ++ rows) = addDbuffEffects m rows := by
  unfold addDbuffEffects
  rw [List.foldl_append]
  exact foldl_addEffect_of_mem DbuffRow.type DbuffRow.effect rows
    fun row h => mem_addDbuffEffects.mpr (.inr ⟨row, h, rfl, rfl⟩)

theorem mem_effectKeys : e ∈ effectKeys m ↔ ∃ t : TypeId, e ∈ m[t]?.getD [] := by
  unfold effectKeys
  rw [Std.ExtTreeSet.mem_ofList, List.contains_iff_mem, List.mem_flatten, Map.values_eq]
  simp only [List.mem_map, Prod.exists, Std.ExtTreeMap.mem_toList_iff_getElem?_eq_some,
    exists_eq_right]
  constructor
  · rintro ⟨keys, ⟨t, ht⟩, he⟩
    exact ⟨t, by simpa [ht] using he⟩
  · rintro ⟨t, he⟩
    cases ht : m[t]? with
    | none => simp [ht] at he
    | some keys => exact ⟨keys, ⟨t, ht⟩, by simpa [ht] using he⟩

/-- an effect that some type is linked to -/
theorem mem_effectKeys_effectsByType {links : List EffectLink} :
    e ∈ effectKeys (effectsByType links) ↔ ∃ link ∈ links, link.effect = e := by
  rw [mem_effectKeys]
  simp only [mem_effectsByType]
  constructor
  · rintro ⟨_, link, hl, -, he⟩
    exact ⟨link, hl, he⟩
  · rintro ⟨link, hl, he⟩
    exact ⟨link.type, link, hl, rfl, he⟩

end

/-! ### the sheets of a snapshot -/

/-- of the rows that a source gives, those of one type -/
theorem filter_asked {ρ : Type} (type : ρ → TypeId) (rows : List ρ) (asked : KeySet .itemType)
    (t : TypeId) :
    ((rows.filter fun row => asked.contains (type row)).filter fun row => type row = t) =
      if t ∈ asked then rows.filter fun row => type row = t else [] := by
  rw [List.filter_filter]
  split
  next known =>
    refine List.filter_congr fun row _ => ?_
    by_cases h : type row = t
    · have here : asked.contains (type row) := h ▸ known
      rw [here, Bool.and_true]
    · simp [h]
  next unknown =>
    refine List.filter_eq_nil_iff.mpr fun row _ h => ?_
    rw [Bool.and_eq_true, decide_eq_true_iff] at h
    exact unknown (h.1 ▸ h.2)

namespace Snapshot
variable (s : Snapshot) {l : Loadout} {rules : Rules} {t : TypeId}
  (asked : t ∈ l.participants rules)
include asked

/-- the record of a type that is asked for is the last one there is -/
theorem records_sheets :
    (s.sheets l rules).records[t]? = (Map.lastRows ItemType.id id s.types)[t]? := by
  refine Map.lastRows_filter fun row _ hk => ?_
  rw [hk]
  exact asked

/-- its values are those of all its rows -/
theorem values_sheets : (s.sheets l rules).attributes[t]?.getD ∅ =
    Map.lastRows AttributeRow.attr AttributeRow.value
      (s.typeAttributes.filter (fun row => row.type = t)) := by
  refine (getD_attributesByType _ t).trans (congrArg _ ?_)
  exact (filter_asked AttributeRow.type s.typeAttributes _ t).trans (if_pos asked)

end Snapshot

end Fitting
