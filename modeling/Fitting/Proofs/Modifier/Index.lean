import Fitting.Modifier.Index
import Fitting.Proofs.Tables

/-!
# What the index holds

The index decodes each description once and keeps what it has decoded.  What it files does not
depend on that: an effect gives a type what its own description states.

* `modifiersOf`         the modifiers that one effect gives a type;
* `Decoded`             what is kept of an effect is what its description states;
* `decodeList_eq`       so a list of effects gives its modifiers one effect after the other;
* `forType_ofEffects`   the modifiers of a type are those of its effect list.
-/

namespace Fitting.ModifierIndex

section
variable (effects : Map EffectId EffectDefinition) (dbuffs : Map EffectId DbuffTag)

/-- the modifiers that an effect gives a type -/
def modifiersOf (type : TypeId) (key : EffectId) : List Modifier :=
  match effects[key]? with
  | none => []
  | some effect =>
    match effect.description with
    | none => []
    | some description => (statedModifiers description).map (tie type effect key dbuffs[key]?)

/-- what is kept of an effect is what its description states -/
def Decoded (decoded : Map EffectId (List RawModifier)) : Prop :=
  ∀ (key : EffectId) (kept : List RawModifier) (effect : EffectDefinition) (description : String),
    decoded[key]? = some kept → effects[key]? = some effect →
      effect.description = some description → kept = statedModifiers description

/-- one effect decoded, as `decodeList` does it -/
def decodeOne (type : TypeId) :
    Map EffectId (List RawModifier) × List Modifier → EffectId →
      Map EffectId (List RawModifier) × List Modifier :=
  fun (decoded, modifiers) key =>
    match effects[key]? with
    | none => (decoded, modifiers)
    | some effect =>
      match effect.description with
      | none => (decoded, modifiers)
      | some description =>
        let stated := match decoded[key]? with
          | some stated => stated
          | none => statedModifiers description
        (decoded.insertIfNew key stated, modifiers ++ stated.map (tie type effect key dbuffs[key]?))

variable {effects}

theorem decoded_empty : Decoded effects ∅ := by
  intro key kept effect description h
  simp at h

theorem Decoded.insertIfNew {decoded : Map EffectId (List RawModifier)}
    (h : Decoded effects decoded)
    {key : EffectId} {effect : EffectDefinition} {description : String}
    (known : effects[key]? = some effect) (stated : effect.description = some description) :
    Decoded effects (decoded.insertIfNew key (statedModifiers description)) := by
  intro key' kept effect' description' hk known' stated'
  rw [Std.ExtTreeMap.getElem?_insertIfNew] at hk
  split at hk
  next hc =>
    obtain rfl : key = key' := Std.LawfulEqOrd.eq_of_compare hc.1
    obtain rfl : effect = effect' := Option.some.inj (known.symm.trans known')
    obtain rfl : description = description' := Option.some.inj (stated.symm.trans stated')
    exact (Option.some.inj hk).symm
  next => exact h key' kept effect' description' hk known' stated'

theorem decodeOne_eq (type : TypeId) {decoded : Map EffectId (List RawModifier)}
    (h : Decoded effects decoded) (modifiers : List Modifier) (key : EffectId) :
    Decoded effects (decodeOne effects dbuffs type (decoded, modifiers) key).1 ∧
    (decodeOne effects dbuffs type (decoded, modifiers) key).2
      = modifiers ++ modifiersOf effects dbuffs type key := by
  unfold decodeOne modifiersOf
  dsimp only
  cases known : effects[key]? with
  | none => exact ⟨h, (List.append_nil _).symm⟩
  | some effect =>
    cases stated : effect.description with
    | none => simpa [stated] using h
    | some description =>
      have hkept : (match decoded[key]? with
          | some stated => stated
          | none => statedModifiers description) = statedModifiers description := by
        cases hk : decoded[key]? with
        | none => rfl
        | some kept => exact h key kept effect description hk known stated
      simp only [stated, hkept]
      exact ⟨h.insertIfNew known stated, trivial⟩

theorem foldl_decodeOne (type : TypeId) (keys : List EffectId) :
    ∀ (decoded : Map EffectId (List RawModifier)) (modifiers : List Modifier),
      Decoded effects decoded →
        Decoded effects (keys.foldl (decodeOne effects dbuffs type) (decoded, modifiers)).1 ∧
        (keys.foldl (decodeOne effects dbuffs type) (decoded, modifiers)).2
          = modifiers ++ keys.flatMap (modifiersOf effects dbuffs type) := by
  induction keys with
  | nil => exact fun decoded modifiers h => ⟨h, (List.append_nil _).symm⟩
  | cons key keys ih =>
    intro decoded modifiers h
    obtain ⟨hd, hm⟩ := decodeOne_eq dbuffs type h modifiers key
    obtain ⟨hd', hm'⟩ := ih _ (decodeOne effects dbuffs type (decoded, modifiers) key).2 hd
    refine ⟨hd', hm'.trans ?_⟩
    rw [hm, List.flatMap_cons, List.append_assoc]

theorem decodeList_eq (type : TypeId) {decoded : Map EffectId (List RawModifier)}
    (h : Decoded effects decoded) (keys : List EffectId) :
    Decoded effects (decodeList effects dbuffs type decoded keys).1 ∧
    (decodeList effects dbuffs type decoded keys).2
      = keys.flatMap (modifiersOf effects dbuffs type) :=
  foldl_decodeOne dbuffs type keys decoded [] h

/-! ### the modifiers of a type -/

theorem addType_eq {x : ModifierIndex} (h : Decoded effects x.byEffect) (type : TypeId)
    (keys : List EffectId) (t : TypeId) :
    Decoded effects (x.addType effects dbuffs type keys).byEffect ∧
    (x.addType effects dbuffs type keys).forType t =
      x.forType t ++ if type = t then keys.flatMap (modifiersOf effects dbuffs t) else [] := by
  obtain ⟨hd, hm⟩ := decodeList_eq dbuffs type h keys
  refine ⟨hd, ?_⟩
  unfold forType addType
  dsimp only
  rw [hm]
  -- a type without modifiers is not filed
  by_cases empty : keys.flatMap (modifiersOf effects dbuffs type) = []
  · rw [empty]
    by_cases ht : type = t
    · subst ht
      simp [empty]
    · simp [ht]
  · have hne : (keys.flatMap (modifiersOf effects dbuffs type)).isEmpty = false := by
      simpa using empty
    rw [hne, if_neg Bool.false_ne_true, Std.ExtTreeMap.getElem?_alter]
    by_cases ht : type = t
    · subst ht
      simp
    · have hc : compare type t ≠ .eq := fun he => ht (Std.LawfulEqOrd.eq_of_compare he)
      simp [ht, hc]

theorem foldl_addType (lists : List (TypeId × List EffectId)) (t : TypeId) :
    ∀ x : ModifierIndex, Decoded effects x.byEffect →
      (lists.foldl (fun x (type, keys) => x.addType effects dbuffs type keys) x).forType t =
        x.forType t ++ lists.flatMap (fun (type, keys) =>
          if type = t then keys.flatMap (modifiersOf effects dbuffs t) else []) := by
  induction lists with
  | nil => exact fun x _ => (List.append_nil _).symm
  | cons row lists ih =>
    intro x h
    obtain ⟨type, keys⟩ := row
    obtain ⟨hd, hf⟩ := addType_eq dbuffs h type keys t
    rw [List.foldl_cons, ih _ hd, hf, List.flatMap_cons, List.append_assoc]

/-- the modifiers of a type are those of its effects, in the order of its effect list -/
theorem forType_ofEffects (effects : Map EffectId EffectDefinition)
    (dbuffs : Map EffectId DbuffTag) (lists : Map TypeId (List EffectId)) (t : TypeId) :
    (ofEffects effects dbuffs lists.toList).forType t =
      (lists[t]?.getD []).flatMap (modifiersOf effects dbuffs t) := by
  unfold ofEffects
  rw [foldl_addType dbuffs lists.toList t empty decoded_empty]
  refine (Map.flatMap_toList lists (List.flatMap (modifiersOf effects dbuffs t)) t).trans ?_
  cases lists[t]? with
  | none => rfl
  | some keys => rfl

/-- a modifier of a type comes from one of its effects -/
theorem mem_modifiersOf {effects : Map EffectId EffectDefinition} {dbuffs : Map EffectId DbuffTag}
    {type : TypeId} {key : EffectId} {m : Modifier} (h : m ∈ modifiersOf effects dbuffs type key) :
    ∃ effect description raw, effects[key]? = some effect ∧ effect.description = some description ∧
      raw ∈ statedModifiers description ∧ m = tie type effect key dbuffs[key]? raw := by
  unfold modifiersOf at h
  split at h
  · exact absurd h List.not_mem_nil
  next effect known =>
    split at h
    · exact absurd h List.not_mem_nil
    next description stated =>
      obtain ⟨raw, hr, rfl⟩ := List.mem_map.mp h
      exact ⟨effect, description, raw, known, stated, hr, rfl⟩

end

end Fitting.ModifierIndex
