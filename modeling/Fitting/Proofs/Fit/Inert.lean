import Fitting.Proofs.Fit.Origin
import Fitting.Proofs.Fit.Sheets
import Fitting.Proofs.Fit.Shifted

/-!
# Inert items

A type without effects and warfare buffs modifies nothing.  One more item of it changes what the
sources are asked about, but not what they say of the other types.

* `Inert`               nothing links the type to an effect, and it owns no warfare buff;
* `assembly_insert`     all effects are the same with one more item of the type;
* `item_insert`         so are the items of the types that took part before;
* `inserted_assembly`   the assembled fit has the new item, and nothing else is different;
* `embeds_insert`       so the items of the simulation stand in the new one with the same edges.
-/

namespace Fitting

namespace Snapshot
variable (s : Snapshot)

/-- nothing links the type to an effect, and it owns no warfare buff -/
structure Inert (t : TypeId) : Prop where
  unlinked : ∀ link ∈ s.typeEffects, link.type ≠ t
  unbuffed : ∀ row ∈ s.dbuffs, row.type ≠ t

/-- no effect belongs to an inert type -/
theorem typeEffects_of_inert {s : Snapshot} {t : TypeId} (inert : s.Inert t) (l : Loadout)
    (rules : Rules) :
    (s.assembly l rules).typeEffects[t]?.getD [] = [] := by
  refine List.eq_nil_iff_forall_not_mem.mpr fun e he => ?_
  rcases mem_addDbuffEffects.mp he with he | ⟨row, hr, ht, -⟩
  · obtain ⟨link, hl, ht, -⟩ := mem_effectsByType.mp he
    exact inert.unlinked link (List.mem_of_mem_filter hl) ht
  · exact inert.unbuffed row (List.mem_of_mem_filter hr) ht

end Snapshot

/-- an item that no fit has taken in has an id, too, but the same one whatever its place is -/
theorem TypeSheets.placed_rename (s : TypeSheets) (bases : Map AttributeId Float)
    {ρ : Handle → Handle} (hhull : ρ Fit.hull = Fit.hull) (p : Place) :
    s.placed bases (p.rename ρ) = (s.placed bases p).rename ρ := by
  have unplaced : (s.placed bases (p.rename ρ)).id = ρ (s.placed bases p).id := by
    obtain ⟨type, role⟩ := p
    cases role <;> exact hhull.symm
  unfold Item.rename
  rw [← unplaced]
  obtain ⟨type, role⟩ := p
  cases role <;> rfl

/-- the item that is put in -/
def Snapshot.newItem (s : Snapshot) (l : Loadout) (rules : Rules) (i : Nat) (x : Extra) : Item :=
  (s.sheets (l.insert i x) rules).placed l.pilot.attributes x.place

theorem Snapshot.place_newItem (s : Snapshot) (l : Loadout) (rules : Rules) (i : Nat) (x : Extra) :
    (s.newItem l rules i x).place = x.place :=
  TypeSheets.place_placed _ _ _

theorem Snapshot.type_newItem (s : Snapshot) (l : Loadout) (rules : Rules) (i : Nat) (x : Extra) :
    (s.newItem l rules i x).type = x.type :=
  (congrArg Place.type (s.place_newItem l rules i x)).trans x.type_place

section
variable {l : Loadout} {rules : Rules} {i : Nat} {x : Extra} {before after : List Place}
  (split : l.Split rules i x before after)
include split

theorem Loadout.mem_participants_insert (u : TypeId) :
    u ∈ (l.insert i x).participants rules ↔ u = x.type ∨ u ∈ l.participants rules := by
  have stands : ∀ q, q ∈ (l.insert i x).places rules ↔
      q = x.place ∨ ∃ p ∈ l.places rules, p.rename (Handle.shift before.length) = q := by
    intro q
    rw [split.inserted, split.places, List.perm_middle.mem_iff, List.mem_cons, ← List.map_append,
      List.mem_map]
  simp only [mem_participants, stands]
  constructor
  · rintro ⟨q, rfl | ⟨p, hp, rfl⟩, rfl⟩
    · exact .inl x.type_place
    · exact .inr ⟨p, hp, rfl⟩
  · rintro (rfl | ⟨p, hp, rfl⟩)
    · exact ⟨x.place, .inl rfl, x.type_place⟩
    · exact ⟨_, .inr ⟨p, hp, rfl⟩, rfl⟩

/-- rows of other types that are asked for now were asked for before -/
theorem Loadout.filter_insert {α : Type} {key : α → TypeId} {rows : List α}
    (other : ∀ row ∈ rows, key row ≠ x.type) :
    rows.filter (fun row => ((l.insert i x).participants rules).contains (key row)) =
      rows.filter (fun row => (l.participants rules).contains (key row)) := by
  refine List.filter_congr fun row hr => ?_
  have same := Loadout.mem_participants_insert split (key row)
  rw [or_iff_right (other row hr)] at same
  exact Bool.eq_iff_iff.mpr same

namespace Snapshot
variable {s : Snapshot} (inert : s.Inert x.type)
include inert

theorem links_insert : s.effectSource.links ((l.insert i x).participants rules) =
    s.effectSource.links (l.participants rules) := Loadout.filter_insert split inert.unlinked

theorem collections_insert : s.dbuffSource.collections ((l.insert i x).participants rules) =
    s.dbuffSource.collections (l.participants rules) := Loadout.filter_insert split inert.unbuffed

theorem effects_sheets_insert :
    (s.sheets (l.insert i x) rules).effects = (s.sheets l rules).effects := by
  unfold sheets
  dsimp only
  rw [links_insert split inert, collections_insert split inert]

theorem assembly_insert : s.assembly (l.insert i x) rules = { s.assembly l rules with
    fit := (s.sheets (l.insert i x) rules).fit (l.insert i x) rules } := by
  have links := links_insert split inert
  have buffs := collections_insert split inert
  unfold assembly Assembly.ofRows sheets
  dsimp only
  rw [links, buffs]

/-- the items of the types that took part before are the same -/
theorem item_insert {t : TypeId} (asked : t ∈ l.participants rules) (role : Role) :
    (s.sheets (l.insert i x) rules).item t role = (s.sheets l rules).item t role := by
  have asked' : t ∈ (l.insert i x).participants rules :=
    (Loadout.mem_participants_insert split t).mpr (.inr asked)
  have records := (s.records_sheets asked').trans (s.records_sheets asked).symm
  have values := (s.values_sheets asked').trans (s.values_sheets asked).symm
  have attributes : (s.sheets (l.insert i x) rules).baseAttributes t =
      (s.sheets l rules).baseAttributes t := by
    unfold TypeSheets.baseAttributes
    rw [records, values]
  unfold TypeSheets.item
  rw [records, attributes, effects_sheets_insert split inert]

theorem placed_insert {bases : Map AttributeId Float} {p : Place}
    (asked : p.type ∈ l.participants rules) :
    (s.sheets (l.insert i x) rules).placed bases p = (s.sheets l rules).placed bases p := by
  have items := item_insert split inert asked
  obtain ⟨type, role⟩ := p
  cases role <;> simp only [TypeSheets.placed, TypeSheets.skillItem, items]

end Snapshot

/-- the assembled fit has one more item, and the others are the same under the handles they have
now -/
theorem Snapshot.inserted_assembly {s : Snapshot} (inert : s.Inert x.type) :
    (s.assembly l rules).fit.Inserted before.length (s.newItem l rules i x)
      (s.assembly (l.insert i x) rules).fit := by
  have moved : ∀ ps : List Place, (∀ p ∈ ps, p ∈ l.places rules) →
      (ps.map (Place.rename (Handle.shift before.length))).map
        ((s.sheets (l.insert i x) rules).placed l.pilot.attributes) =
      (ps.map ((s.sheets l rules).placed l.pilot.attributes)).map
        (Item.rename (Handle.shift before.length)) := by
    intro ps hps
    rw [List.map_map, List.map_map]
    refine List.map_congr_left fun p hp => ?_
    have asked : p.type ∈ l.participants rules := Loadout.mem_participants.mpr ⟨p, hps p hp, rfl⟩
    have renamed := TypeSheets.placed_rename (s.sheets (l.insert i x) rules) l.pilot.attributes
      (Handle.shift_hull split.anchors) p
    exact renamed.trans (congrArg _ (placed_insert split inert asked))
  have pilot : (l.insert i x).pilot = l.pilot := by
    cases x <;> rfl
  refine ⟨split.anchors, s.numbered_assembly l rules, s.numbered_assembly (l.insert i x) rules,
    before.map ((s.sheets l rules).placed l.pilot.attributes),
    after.map ((s.sheets l rules).placed l.pilot.attributes), List.length_map _, ?_, ?_⟩
  · show ((s.sheets l rules).fit l rules).entries = _
    rw [TypeSheets.entries_fit_places, split.places, List.map_append]
  · have before' := moved before fun p hp => split.places ▸ List.mem_append_left after hp
    have after' := moved after fun p hp => split.places ▸ List.mem_append_right before hp
    show ((s.sheets (l.insert i x) rules).fit (l.insert i x) rules).entries = _
    rw [TypeSheets.entries_fit_places, split.inserted, pilot, List.map_append, List.map_cons,
      before', after']
    rfl

/-! ### the run -/

namespace Engine
variable (g : Engine) {s : Snapshot} (inert : s.Inert x.type)
include inert

theorem index_insert :
    (g.run (s.assembly (l.insert i x) rules)).index = (g.run (s.assembly l rules)).index := by
  have modifiers : ∀ a, (g.run a).index = .ofEffects a.effects a.dbuffs a.typeEffects.toList :=
    fun _ => rfl
  rw [modifiers, modifiers, Snapshot.assembly_insert split inert]

/-- the items of the simulation stand in the one with the new item, with the same edges -/
theorem embeds_insert : (g.run (s.assembly l rules)).fit.Embeds (Handle.shift before.length)
    (g.run (s.assembly (l.insert i x) rules)).fit := by
  have silent : (g.run (s.assembly l rules)).index.forType (s.newItem l rules i x).type = [] := by
    rw [s.type_newItem, forType_run, Snapshot.typeEffects_of_inert inert]
    rfl
  have embeds := (Snapshot.inserted_assembly split inert).embeds
    (fun c state => Snapshot.edges_of_state_assembly) silent g.catalog g.rules
  have index : (g.run (s.assembly (l.insert i x) rules)).index =
      (g.run (s.assembly l rules)).index :=
    index_insert split g inert
  show Fit.Embeds _ _ (Fit.applyModifiers _ (g.run (s.assembly (l.insert i x) rules)).index _ _).1
  rw [index]
  exact embeds

end Engine

end

end Fitting
