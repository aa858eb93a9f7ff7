import Fitting.Proofs.Fit.Origin
import Fitting.Proofs.Fit.Sheets
import Fitting.Proofs.Modifier.Faithful

/-!
# The order of the effects of a type

Nothing sorts the effects of a type.  They stand in the order of its links, and behind them stand
those of its warfare buffs, whose keys are below zero.  The modifiers of the type are in this order
too.

* `Snapshot.effectOrder`   the effects of a type, each where a row names it first;
* `typeEffects_assembly`   the assembled fit has them in this order;
* `Engine.effect_order`    when the modifiers of a type are in the order of the keys of their
                           effects, and what another order of the links does to them.
-/

namespace Fitting

/-! ### each effect where it comes first -/

section
variable {α : Type} [BEq α] [LawfulBEq α]

theorem eraseDups_concat (l : List α) (a : α) :
    (l ++ [a]).eraseDups = if l.contains a then l.eraseDups else l.eraseDups ++ [a] := by
  rw [List.eraseDups_append]
  by_cases h : a ∈ l <;> simp [List.removeAll, List.eraseDups_cons, h]

theorem nodup_eraseDups (l : List α) : l.eraseDups.Nodup := by
  induction l using List.reverseRecOn with
  | nil => exact List.nodup_nil
  | append_singleton l a ih =>
    rw [eraseDups_concat]
    split
    next => exact ih
    next new =>
      have absent : a ∉ l.eraseDups := by simpa using new
      exact List.nodup_append.mpr ⟨ih, List.nodup_singleton a, fun b hb c hc same =>
        absent (List.mem_singleton.mp hc ▸ same ▸ hb)⟩

end

/-- effects that are added row by row stand where they come first -/
theorem foldl_addEffect_eq {ρ : Type} (type : ρ → TypeId) (effect : ρ → EffectId)
    {m : Map TypeId (List EffectId)}
    {t : TypeId} {before : List EffectId} (start : m[t]?.getD [] = before.eraseDups)
    (rows : List ρ) :
    (rows.foldl (fun m row => addEffect m (type row) (effect row)) m)[t]?.getD [] =
      (before ++ (rows.filter fun row => type row = t).map effect).eraseDups := by
  induction rows using List.reverseRecOn with
  | nil => simpa using start
  | append_singleton rows row ih =>
    rw [List.foldl_append, List.foldl_cons, List.foldl_nil, List.filter_append, List.map_append,
      ← List.append_assoc]
    generalize rows.foldl (fun m row => addEffect m (type row) (effect row)) m = filled at ih ⊢
    generalize before ++ (rows.filter fun row => type row = t).map effect = met at ih ⊢
    unfold addEffect
    rw [Std.ExtTreeMap.getElem?_alter]
    by_cases h : type row = t
    · subst h
      rw [if_pos Std.ReflCmp.compare_self, Option.getD_some, ih]
      simp [eraseDups_concat]
    · have hc : compare (type row) t ≠ .eq := fun he => h (Std.LawfulEqOrd.eq_of_compare he)
      rw [if_neg hc, ih]
      simp [h]

/-! ### the effects of a type -/

/-- the effects of a type are those it is linked to, and behind them those of the warfare buffs it
owns -/
theorem getD_addDbuffEffects (links : List EffectLink) (rows : List DbuffRow) (t : TypeId) :
    (addDbuffEffects (effectsByType links) rows)[t]?.getD [] =
      ((links.filter fun link => link.type = t).map EffectLink.effect ++
        (rows.filter fun row => row.type = t).map DbuffRow.effect).eraseDups := by
  have start : (∅ : Map TypeId (List EffectId))[t]?.getD [] =
      ([] : List EffectId).eraseDups := by simp
  have linked := foldl_addEffect_eq EffectLink.type EffectLink.effect start links
  exact foldl_addEffect_eq DbuffRow.type DbuffRow.effect linked rows

namespace Snapshot
variable (s : Snapshot) (l : Loadout) (rules : Rules) (t : TypeId)

/-- the effects of a type that takes part: those it is linked to, then those of the warfare buffs it
owns, each where a row names it first -/
def effectOrder : List EffectId :=
  if t ∈ l.participants rules then
    ((s.typeEffects.filter fun link => link.type = t).map EffectLink.effect ++
      (s.dbuffs.filter fun row => row.type = t).map DbuffRow.effect).eraseDups
  else []

theorem typeEffects_assembly :
    (s.assembly l rules).typeEffects[t]?.getD [] = s.effectOrder l rules t := by
  refine (getD_addDbuffEffects _ _ t).trans ?_
  unfold effectOrder effectSource dbuffSource
  dsimp only
  rw [filter_asked, filter_asked]
  split <;> rfl

theorem nodup_effectOrder : (s.effectOrder l rules t).Nodup := by
  unfold effectOrder
  split
  · exact nodup_eraseDups _
  · exact List.nodup_nil

/-- in another order the links give a type the same effects -/
theorem effectOrder_perm {links : List EffectLink} (perm : s.typeEffects.Perm links) :
    (effectOrder { s with typeEffects := links } l rules t).Perm (s.effectOrder l rules t) := by
  have unique := s.nodup_effectOrder l rules t
  refine (List.perm_ext_iff_of_nodup (nodup_effectOrder _ l rules t) unique).mpr fun e => ?_
  unfold effectOrder
  split
  · have same := ((perm.symm.filter fun link => link.type = t).map EffectLink.effect).append_right
      ((s.dbuffs.filter fun row => row.type = t).map DbuffRow.effect)
    rw [List.mem_eraseDups, List.mem_eraseDups]
    exact same.mem_iff
  · exact Iff.rfl

theorem effects_assembly_perm {links : List EffectLink} (perm : s.typeEffects.Perm links) :
    (assembly { s with typeEffects := links } l rules).effects = (s.assembly l rules).effects := by
  have keys :
      effectKeys (effectsByType
        (effectSource { s with typeEffects := links } |>.links (l.participants rules))) =
      effectKeys (effectsByType (s.effectSource.links (l.participants rules))) := by
    refine Std.ExtTreeSet.ext_mem fun e => ?_
    rw [mem_effectKeys_effectsByType, mem_effectKeys_effectsByType]
    refine exists_congr fun link => and_congr_left fun _ => ?_
    exact (perm.symm.filter fun link => (l.participants rules).contains link.type).mem_iff
  apply Std.ExtTreeMap.ext_getElem?
  intro key
  unfold assembly
  rw [Assembly.effects_ofRows, Assembly.effects_ofRows, keys]
  rfl

end Snapshot

/-! ### the modifiers of a type -/

/-- no key stands behind a greater one -/
def Ascending (keys : List EffectId) : Prop := keys.Pairwise fun e e' => e.value ≤ e'.value

instance (keys : List EffectId) : Decidable (Ascending keys) :=
  inferInstanceAs (Decidable (keys.Pairwise _))

/-- keys that are repeated ascend if those do that are there at all -/
theorem ascending_flatMap_replicate (times : EffectId → Nat) (keys : List EffectId) :
    Ascending (keys.flatMap fun e => List.replicate (times e) e) ↔
      Ascending (keys.filter fun e => times e ≠ 0) := by
  unfold Ascending
  rw [List.pairwise_flatMap, List.pairwise_filter]
  constructor
  · rintro ⟨-, apart⟩
    refine apart.imp fun h some some' => h _ ?_ _ ?_
    · exact List.mem_replicate.mpr ⟨of_decide_eq_true some, rfl⟩
    · exact List.mem_replicate.mpr ⟨of_decide_eq_true some', rfl⟩
  · intro apart
    refine ⟨fun e _ => List.pairwise_replicate.mpr (.inr Int32.le_rfl),
      apart.imp fun h e he e' he' => ?_⟩
    obtain ⟨some, rfl⟩ := List.mem_replicate.mp he
    obtain ⟨some', rfl⟩ := List.mem_replicate.mp he'
    exact h (decide_eq_true some) (decide_eq_true some')

namespace ModifierIndex

theorem map_effect_modifiersOf (effects : Map EffectId EffectDefinition)
    (dbuffs : Map EffectId DbuffTag)
    (type : TypeId) (key : EffectId) : (modifiersOf effects dbuffs type key).map Modifier.effect =
      List.replicate ((described effects key).getD []).length key := by
  refine List.eq_replicate_iff.mpr ⟨?_, fun e he => ?_⟩
  · unfold modifiersOf described
    cases known : effects[key]? with
    | none => rfl
    | some effect =>
      cases stated : effect.description <;> simp [stated]
  · obtain ⟨m, hm, rfl⟩ := List.mem_map.mp he
    obtain ⟨effect, description, raw, -, -, -, rfl⟩ := mem_modifiersOf hm
    rfl

end ModifierIndex

namespace Engine
variable (g : Engine) (s : Snapshot) (l : Loadout) (t : TypeId)

theorem forType_assembly :
    (g.run (s.assembly l g.rules)).index.forType t =
      (s.effectOrder l g.rules t).flatMap
        (ModifierIndex.modifiersOf (s.assembly l g.rules).effects (s.assembly l g.rules).dbuffs
          t) := by
  rw [g.forType_run, s.typeEffects_assembly]

theorem forEffect_assembly {e : EffectId} (carried : e ∈ s.effectOrder l g.rules t) :
    (g.run (s.assembly l g.rules)).index.forEffect e =
      (ModifierIndex.described (s.assembly l g.rules).effects e).getD [] := by
  rw [← s.typeEffects_assembly l g.rules t] at carried
  refine (ModifierIndex.forEffect_ofEffects _ _ (s.assembly l g.rules).typeEffects.toList e).trans
    (if_pos ?_)
  cases h : (s.assembly l g.rules).typeEffects[t]? with
  | none =>
    rw [h] at carried
    cases carried
  | some keys =>
    rw [h] at carried
    exact ⟨(t, keys), Std.ExtTreeMap.mem_toList_iff_getElem?_eq_some.mpr h, carried⟩

theorem effects_forType : ((g.run (s.assembly l g.rules)).index.forType t).map Modifier.effect =
    (s.effectOrder l g.rules t).flatMap fun e =>
      List.replicate ((g.run (s.assembly l g.rules)).index.forEffect e).length e := by
  rw [forType_assembly, List.map_flatMap]
  refine List.flatMap_congr fun e carried => ?_
  rw [ModifierIndex.map_effect_modifiersOf, g.forEffect_assembly s l t carried]

end Engine

/-! ### two links -/

/-- a hull with two effects, each of which modifies an attribute of its own -/
def twoLinks (links : List EffectId) : Snapshot where
  types := [{ id := ⟨100⟩, name := "hull", group := ⟨10⟩, category := .ship }]
  typeAttributes := [⟨⟨100⟩, ⟨50⟩, 1.0⟩, ⟨⟨100⟩, ⟨51⟩, 2.0⟩, ⟨⟨100⟩, ⟨52⟩, 3.0⟩]
  typeEffects := links.map fun e => { type := ⟨100⟩, effect := e }
  effects :=
    [{ id := ⟨10⟩
       name := "first"
       category := .passive
       description := some "[\x7b\"func\": \"ItemModifier\", \"domain\": \"shipID\",
         \"modifiedAttributeID\": 50, \"modifyingAttributeID\": 52, \"operation\": 2\x7d]" },
      { id := ⟨11⟩
        name := "second"
        category := .passive
        description := some "[\x7b\"func\": \"ItemModifier\", \"domain\": \"shipID\",
          \"modifiedAttributeID\": 51, \"modifyingAttributeID\": 52, \"operation\": 2\x7d]" }]

end Fitting
