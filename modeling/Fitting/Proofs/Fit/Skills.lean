import Fitting.Proofs.Fit.Stated

/-!
# Which skills an item requires

Six attributes name the skills that an item requires.  The skills are read off them when the item of
a type is made, and are not read again when the loadout replaces values.  So the skills of an item
are those that its attributes name, but the pilot requires what the rows of its type name, whatever
the loadout says.

* `NamesSkill`          a skill that is named by the values of the six attributes;
* `mem_skillsNamed`     the skills that are read off are those;
* `skills_agree`        which items require the skills that their own attributes name.
-/

namespace Fitting

/-- one of the six attributes has a value that, cut to an integer, is the key of the skill.  No
skill has a key below one. -/
def NamesSkill (base? : AttributeId → Option Float) (skill : TypeId) : Prop :=
  0 < skill.value ∧ ∃ slot ∈ AttributeId.requiredSkills, ∃ base,
    base? slot = some base ∧ (Double.ofFloat base).truncated = skill.value

section
variable {base? base?' : AttributeId → Option Float} {skill : TypeId}

theorem NamesSkill.congr (same : ∀ slot ∈ AttributeId.requiredSkills, base? slot = base?' slot) :
    NamesSkill base? skill ↔ NamesSkill base?' skill := by
  unfold NamesSkill
  refine and_congr_right fun _ => exists_congr fun slot => and_congr_right fun known => ?_
  rw [same slot known]

instance : Decidable (NamesSkill base? skill) :=
  decidable_of_iff (0 < skill.value ∧ ∃ slot ∈ AttributeId.requiredSkills,
      (base? slot).any fun base => (Double.ofFloat base).truncated = skill.value) <| by
    unfold NamesSkill
    simp [Option.any_eq_true]

end

theorem mem_skillsNamed {attributes : Map AttributeId Attribute} {skill : TypeId} :
    skill ∈ TypeSheets.skillsNamed attributes ↔
      NamesSkill (fun a => attributes[a]?.map Attribute.base) skill := by
  unfold TypeSheets.skillsNamed NamesSkill
  rw [List.mem_filterMap]
  simp only [Option.bind_eq_some_iff, Option.map_eq_some_iff]
  constructor
  · rintro ⟨slot, known, _, ⟨state, stated, rfl⟩, positive⟩
    split at positive
    next above =>
      obtain rfl := Option.some.inj positive
      exact ⟨above, slot, known, state.base, ⟨state, stated, rfl⟩, rfl⟩
    next => cases positive
  · rintro ⟨positive, slot, known, _, ⟨state, stated, rfl⟩, cut⟩
    refine ⟨slot, known, skill.value, ⟨state, stated, cut⟩, ?_⟩
    rw [if_pos positive]

theorem TypeSheets.requiredSkills_fit (s : TypeSheets) (l : Loadout) (rules : Rules) :
    (s.fit l rules).Every fun item => item.requiredSkills =
      skillsNamed (s.baseAttributes item.type) :=
  -- neither the values of the pilot nor the level of a skill is read back
  s.every (fun _ _ => rfl) (fun _ _ h => h) (fun _ _ h => h) (fun _ _ _ h => h) l rules

theorem Rows.requires_fit (r : Rows) (l : Loadout) (rules : Rules) :
    (r.sheets.fit l rules).Every fun item => ∀ skill, item.requires skill ↔
      NamesSkill (r.base? item.type) skill := by
  intro h item found skill
  have stated : ∀ a, (r.sheets.baseAttributes item.type)[a]?.map Attribute.base =
      r.base? item.type a := by
    intro a
    rw [r.baseAttributes_eq, Option.map_map]
    exact Option.map_id'
  rw [Item.requires, List.contains_iff_mem, r.sheets.requiredSkills_fit l rules h item found,
    mem_skillsNamed]
  exact NamesSkill.congr fun slot _ => stated slot

/-- the loadout gives the six attributes to no item but the pilot -/
theorem Loadout.given?_requiredSkills (l : Loadout) {role : Role} {slot : AttributeId}
    (known : slot ∈ AttributeId.requiredSkills)
    (spared : role.kind = .pilot → slot ∉ l.pilot.attributes) :
    l.given? role slot = none := by
  have other : slot ≠ .skillLevel := by
    rintro rfl
    exact absurd known (by decide)
  cases role with
  | pilot => exact Std.ExtTreeMap.getElem?_eq_none (spared rfl)
  | skill level => exact if_neg other
  | _ => rfl

theorem Item.Stated.base?_eq {r : Rows} {l : Loadout} {i : Item} (stated : i.Stated r l)
    (a : AttributeId) :
    i.base? a = (l.given? i.role a).or (r.base? i.type a) := by
  rw [Item.base?, stated.attributes, Option.map_map]
  exact Option.map_id'

/-- An item requires the skills that the rows of its type name.  These are the skills that its own
attributes name, unless the loadout gives the pilot other values for them. -/
theorem skills_agree (types : ItemTypeSource) (effects : EffectSource)
    (attributes : Option AttributeSource) (dbuffs : Option DbuffSource) (l : Loadout)
    (rules : Rules) :
    ∃ a,
      assemble { types := some types, effects := some effects, attributes, dbuffs } l rules =
        .ok a ∧
      ∀ h item, a.fit.get? h = some item →
        (∀ skill, item.requires skill ↔
          NamesSkill ((l.rows rules types effects dbuffs).base? item.type) skill) ∧
        ((item.kind = .pilot → ∀ slot ∈ AttributeId.requiredSkills, slot ∉ l.pilot.attributes) →
          ∀ skill, item.requires skill ↔ NamesSkill item.base? skill) := by
  refine ⟨_, assemble_eq types effects attributes dbuffs l rules, fun h item found => ?_⟩
  have typed := (l.rows rules types effects dbuffs).requires_fit l rules h item found
  have stated := (l.rows rules types effects dbuffs).stated_fit l rules h item found
  refine ⟨typed, fun spared skill => (typed skill).trans (NamesSkill.congr fun slot known => ?_)⟩
  have silent := l.given?_requiredSkills known fun pilot => spared pilot slot known
  rw [stated.base?_eq, silent, Option.none_or]

/-! ### a pilot with another skill -/

/-- the type of the pilot requires the skill 3450 -/
def skilledPilot : Snapshot where
  typeAttributes := [⟨Rules.pilotType {}, ⟨182⟩, 3450.0⟩]

/-- the loadout replaces this value -/
def retrained : Loadout := ({ hull := ⟨100⟩ } : Loadout).withPilotAttribute ⟨182⟩ 3300.0

/-- the attributes of the pilot name the skill 3300, and what it requires is the skill 3450 -/
theorem pilot_keeps_skill : ∃ a item, assemble skilledPilot.sources retrained {} = .ok a ∧
    a.fit.get? Fit.pilot = some item ∧
    NamesSkill item.base? ⟨3300⟩ ∧ item.requires ⟨3300⟩ = false ∧
    ¬NamesSkill item.base? ⟨3450⟩ ∧ item.requires ⟨3450⟩ = true := by
  refine ⟨_, _, rfl, rfl, ?_⟩
  decide +kernel

end Fitting
