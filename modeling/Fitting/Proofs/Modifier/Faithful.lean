import Mathlib.Algebra.BigOperators.Group.Finset.Basic
import Fitting.Proofs.Modifier.Index

/-!
# Decoding once and decoding every time

The index keeps what it has decoded, and one effect may stand in the lists of many types and many
times in one list.  What the index holds is what decoding each effect wherever it stands would give.

* `decodedAnew`           what is decoded from an effect's own description, read again;
* `decodedFor`            the modifiers that this gives a type;
* `described_eq`, `modifiersOf_eq`   what the index takes over from an effect is no more and no
                                     less;
* `foldl_addType_kept`    what is kept of an effect, from list to list;
* `forEffect_ofEffects`   so an effect is known if some type carries it;
* `size_eq_sum`           the size of an index, type by type;
* `ofEffects_faithful`    the index agrees with decoding every time.
-/

namespace Fitting.ModifierIndex

section
variable (effects : Map EffectId EffectDefinition) (dbuffs : Map EffectId DbuffTag)

/-- what the description of an effect states, if it has one -/
def described (e : EffectId) : Option (List RawModifier) :=
  (effects[e]?.bind EffectDefinition.description).map statedModifiers

/-! ### what is kept of an effect -/

theorem decodeOne_kept (type : TypeId) (kept : Map EffectId (List RawModifier) × List Modifier)
    (key e : EffectId) :
    (decodeOne effects dbuffs type kept key).1[e]? =
      kept.1[e]?.or (if key = e then described effects e else none) := by
  obtain ⟨decoded, modifiers⟩ := kept
  unfold decodeOne described
  dsimp only
  cases known : effects[key]? with
  | none =>
    by_cases same : key = e
    · subst same
      simp [known]
    · simp [same]
  | some effect =>
    cases stated : effect.description with
    | none =>
      by_cases same : key = e
      · subst same
        simp [known, stated]
      · simp [same, stated]
    | some description =>
      simp only [stated]
      rw [Map.getElem?_insertIfNew_or]
      by_cases same : key = e
      · subst same
        cases decoded[key]? <;> simp [known, stated]
      · simp [same]

theorem or_ite {α : Type} (p q : Prop) [Decidable p] [Decidable q] (d : Option α) :
    (if p then d else none).or (if q then d else none) = if p ∨ q then d else none := by
  by_cases hp : p <;> by_cases hq : q <;> simp [hp, hq]

theorem foldl_decodeOne_kept (type : TypeId) (keys : List EffectId) (e : EffectId) :
    ∀ kept : Map EffectId (List RawModifier) × List Modifier,
      (keys.foldl (decodeOne effects dbuffs type) kept).1[e]? =
        kept.1[e]?.or (if e ∈ keys then described effects e else none) := by
  induction keys with
  | nil => exact fun kept => Option.or_none.symm
  | cons key keys ih =>
    intro kept
    rw [List.foldl_cons, ih, decodeOne_kept, Option.or_assoc, or_ite]
    simp only [List.mem_cons, eq_comm]

theorem foldl_addType_kept (lists : List (TypeId × List EffectId)) (e : EffectId) :
    ∀ x : ModifierIndex,
      (lists.foldl (fun x (type, keys) => x.addType effects dbuffs type keys) x).byEffect[e]? =
        x.byEffect[e]?.or (if ∃ row ∈ lists, e ∈ row.2 then described effects e else none) := by
  induction lists with
  | nil =>
    intro x
    simp
  | cons row lists ih =>
    intro x
    obtain ⟨type, keys⟩ := row
    have added : (x.addType effects dbuffs type keys).byEffect[e]? =
        x.byEffect[e]?.or (if e ∈ keys then described effects e else none) :=
      foldl_decodeOne_kept effects dbuffs type keys e (x.byEffect, [])
    rw [List.foldl_cons, ih, added, Option.or_assoc, or_ite]
    simp only [List.exists_mem_cons_iff]

theorem forEffect_ofEffects (lists : List (TypeId × List EffectId)) (e : EffectId) :
    (ofEffects effects dbuffs lists).forEffect e =
      if ∃ row ∈ lists, e ∈ row.2 then (described effects e).getD [] else [] := by
  have kept : (ofEffects effects dbuffs lists).byEffect[e]? =
      if ∃ row ∈ lists, e ∈ row.2 then described effects e else none := by
    refine (foldl_addType_kept effects dbuffs lists e empty).trans ?_
    rw [show empty.byEffect[e]? = none from Std.ExtTreeMap.getElem?_empty, Option.none_or]
  unfold forEffect
  rw [kept]
  split <;> rfl

/-! ### the size of an index -/

variable {effects dbuffs}

/-- the size of an index is that of the lists of any types, if only no other type has modifiers -/
theorem size_eq_sum (x : ModifierIndex) (types : Finset TypeId)
    (others : ∀ t ∉ types, x.forType t = []) :
    x.size = ∑ t ∈ types, (x.forType t).length := by
  have filed : ∀ row ∈ x.byType.toList, row.2.length = (x.forType row.1).length := by
    rintro ⟨t, ms⟩ row
    unfold forType
    rw [Std.ExtTreeMap.mem_toList_iff_getElem?_eq_some.mp row]
    rfl
  calc
    x.size = (x.byType.toList.map fun row => row.2.length).sum := by
      unfold size
      rw [List.length_flatten, Map.values_eq, List.map_map]
      rfl
    _ = ((x.byType.toList.map Prod.fst).map fun t => (x.forType t).length).sum := by
      rw [List.map_map]
      exact congrArg List.sum (List.map_congr_left filed)
    _ = ∑ t ∈ (x.byType.toList.map Prod.fst).toFinset, (x.forType t).length :=
      (List.sum_toFinset _ (Map.nodup_toList x.byType)).symm
    _ = ∑ t ∈ types, (x.forType t).length := by
      refine Finset.sum_congr_of_eq_on_inter (fun t _ ht => ?_) (fun t _ ht => ?_) fun t _ _ => rfl
      · rw [others t ht]
        rfl
      · have absent : x.byType[t]? = none := by
          cases here : x.byType[t]? with
          | none => rfl
          | some ms =>
            have row := Std.ExtTreeMap.mem_toList_iff_getElem?_eq_some.mpr here
            exact absurd (List.mem_toFinset.mpr (List.mem_map_of_mem (f := Prod.fst) row)) ht
        unfold forType
        rw [absent]
        rfl

/-! ### decoding every time -/

variable (effects dbuffs)

/-- what is decoded from the description of an effect, with all entries dropped that are errors -/
def decodedAnew (e : EffectId) : List RawModifier :=
  match effects[e]?.bind EffectDefinition.description with
  | none => []
  | some description => (decodeDescription description).filterMap Except.toOption

/-- the modifiers that an effect gives a type if its description is decoded for this type -/
def decodedFor (t : TypeId) (e : EffectId) : List Modifier :=
  match effects[e]? with
  | none => []
  | some effect => (decodedAnew effects e).map fun raw =>
    { raw with sourceType := t, effect := e, category := effect.category, dbuff := dbuffs[e]? }

theorem described_eq (e : EffectId) : (described effects e).getD [] = decodedAnew effects e := by
  unfold described decodedAnew
  cases effects[e]?.bind EffectDefinition.description <;> rfl

theorem modifiersOf_eq (t : TypeId) (e : EffectId) :
    modifiersOf effects dbuffs t e = decodedFor effects dbuffs t e := by
  unfold modifiersOf decodedFor decodedAnew
  cases effects[e]? with
  | none => rfl
  | some effect =>
    rw [Option.bind_some]
    dsimp only
    cases effect.description <;> rfl

theorem mem_decodedFor {effects : Map EffectId EffectDefinition} {dbuffs : Map EffectId DbuffTag}
    {t : TypeId} {e : EffectId} {m : Modifier} (hm : m ∈ decodedFor effects dbuffs t e) :
    m.sourceType = t ∧ m.effect = e ∧ m.dbuff = dbuffs[e]? ∧ ∃ effect description,
      effects[e]? = some effect ∧ effect.description = some description ∧
        m.category = effect.category ∧ .ok m.toRawModifier ∈ decodeDescription description := by
  unfold decodedFor at hm
  split at hm
  · cases hm
  next effect known =>
    obtain ⟨raw, hr, rfl⟩ := List.mem_map.mp hm
    unfold decodedAnew at hr
    rw [known, Option.bind_some] at hr
    cases stated : effect.description with
    | none => simp [stated] at hr
    | some description =>
      simp only [stated, List.mem_filterMap] at hr
      obtain ⟨entry, he, ok⟩ := hr
      cases entry with
      | error _ => cases ok
      | ok raw' =>
        obtain rfl := Option.some.inj ok
        exact ⟨rfl, rfl, rfl, effect, description, known, stated, rfl, he⟩

/-! ### the index and its rows -/

/-- an index holds what decoding every effect of the rows where it stands would give -/
structure Faithful (lists : List (TypeId × List EffectId)) (x : ModifierIndex) : Prop where
  forType : ∀ t, x.forType t = lists.flatMap fun (type, keys) =>
    if type = t then keys.flatMap (decodedFor effects dbuffs t) else []
  forEffect : ∀ e, x.forEffect e = if ∃ row ∈ lists, e ∈ row.2 then decodedAnew effects e else []
  size : x.size = ∑ t ∈ (lists.map Prod.fst).toFinset, (x.forType t).length
  /-- what a type has from an effect is in the effect's own words, skills that are the source
  included -/
  own : ∀ t, ∀ m ∈ x.forType t, m.sourceType = t ∧ m.dbuff = dbuffs[m.effect]? ∧
    ∃ row ∈ lists, row.1 = t ∧ m.effect ∈ row.2 ∧
      ∃ effect description, effects[m.effect]? = some effect ∧
        effect.description = some description ∧
        m.category = effect.category ∧ .ok m.toRawModifier ∈ decodeDescription description

/-- the index that decodes each description once agrees with decoding every time -/
theorem ofEffects_faithful (lists : List (TypeId × List EffectId)) :
    Faithful effects dbuffs lists (ofEffects effects dbuffs lists) := by
  have forType : ∀ t, (ofEffects effects dbuffs lists).forType t = lists.flatMap fun (type, keys) =>
      if type = t then keys.flatMap (decodedFor effects dbuffs t) else [] := by
    intro t
    have each : modifiersOf effects dbuffs t = decodedFor effects dbuffs t :=
      funext (modifiersOf_eq effects dbuffs t)
    rw [← each]
    exact foldl_addType dbuffs lists t empty decoded_empty
  refine ⟨forType, fun e => ?_, size_eq_sum _ _ fun t ht => ?_, fun t m hm => ?_⟩
  · rw [forEffect_ofEffects effects dbuffs lists, described_eq]
  · rw [forType t]
    refine List.flatMap_eq_nil_iff.mpr fun row hr => if_neg ?_
    rintro rfl
    exact ht (List.mem_toFinset.mpr (List.mem_map_of_mem hr))
  · rw [forType t] at hm
    obtain ⟨⟨type, keys⟩, row, hm⟩ := List.mem_flatMap.mp hm
    dsimp only at hm
    split at hm
    next same =>
      subst same
      obtain ⟨key, hk, hm⟩ := List.mem_flatMap.mp hm
      obtain ⟨source, rfl, dbuff, words⟩ := mem_decodedFor hm
      exact ⟨source, dbuff, _, row, rfl, hk, words⟩
    next => cases hm

end

end Fitting.ModifierIndex
