import Fitting.Proofs.Fit.Places

/-!
# The blocks of a fit

The modules of a loadout with their charges, its drones, its fighters, its implants and its skills
stand in a fit block by block.  Only the modules and their charges are mixed.

* `span`              consecutive handles;
* `Stands`            places that stand in a fit from some handle on;
* `LaidOut.blocks`    the list of each kind, and what stands there;
* `LaidOut.walk`      list after list, each module followed by its charge, these are all handles in
                      order.
-/

namespace Fitting

/-! ### consecutive handles -/

/-- `len` handles from `n` on -/
def span (n len : Nat) : List Handle := (List.range' n len).map Handle.mk

theorem span_add (n a b : Nat) : span n (a + b) = span n a ++ span (n + a) b := by
  unfold span
  rw [← List.range'_append_1, List.map_append]

theorem span_succ (n len : Nat) : span n (len + 1) = ⟨n⟩ :: span (n + 1) len := by
  rw [Nat.add_comm, span_add]
  rfl

theorem handlesOf_cons (k : Kind) (n : Nat) (p : Place) (ps : List Place) :
    handlesOf k n (p :: ps) =
    if p.kind = k then ⟨n⟩ :: handlesOf k (n + 1) ps else handlesOf k (n + 1) ps := by
  unfold handlesOf
  rw [List.zipIdx_cons, List.filter_cons]
  by_cases h : p.kind = k <;> simp [h]

theorem handlesOf_map {ι : Type} (place : ι → Place) {kind : Kind} (h : ∀ i, (place i).kind = kind)
    (k : Kind) (is : List ι) : ∀ n, handlesOf k n (is.map place) =
      if kind = k then span n is.length else [] := by
  induction is with
  | nil => exact fun n => by simp [handlesOf, span]
  | cons i is ih =>
    intro n
    rw [List.map_cons, handlesOf_cons, ih, h, List.length_cons, span_succ]
    by_cases hk : kind = k <;> simp [hk]

theorem handlesOf_modulePlaces_of_ne {k : Kind} (hm : k ≠ .module) (hc : k ≠ .charge)
    (ms : List ModuleSpec) : ∀ n, handlesOf k n (modulePlaces n ms) = [] := by
  induction ms with
  | nil => exact fun _ => rfl
  | cons m ms ih =>
    intro n
    unfold modulePlaces
    rw [handlesOf_append, ih, List.append_nil]
    unfold ModuleSpec.places
    cases m.charge <;> simp [handlesOf, Place.kind, Role.kind, hm.symm, hc.symm]

theorem handlesOf_modulePlaces_cons (m : ModuleSpec) (ms : List ModuleSpec) (n : Nat) :
    handlesOf .module n (modulePlaces n (m :: ms)) =
      ⟨n⟩ :: handlesOf .module (n + (m.places n).length)
        (modulePlaces (n + (m.places n).length) ms) := by
  have first : handlesOf .module n (m.places n) = [⟨n⟩] := by
    unfold ModuleSpec.places
    cases m.charge <;> simp [handlesOf, Place.kind, Role.kind]
  rw [modulePlaces, handlesOf_append, first]
  rfl

namespace Fit

/-- these places stand in the fit from the handle `n` on -/
def Stands (f : Fit) (n : Nat) (ps : List Place) : Prop :=
  ∀ i p, ps[i]? = some p → (f.get? ⟨n + i⟩).map Item.place = some p

theorem stands_places (f : Fit) : f.Stands 0 f.places := by
  intro i p hp
  rwa [getElem?_places, ← Nat.zero_add i] at hp

theorem Stands.append {f : Fit} {n : Nat} {ps qs : List Place} (h : f.Stands n (ps ++ qs)) :
    f.Stands n ps ∧ f.Stands (n + ps.length) qs := by
  refine ⟨fun i p hp => h i p ?_, fun i p hp => ?_⟩
  · rw [List.getElem?_append_left (List.getElem?_eq_some_iff.mp hp).1, hp]
  · have later := h (ps.length + i) p
      (by rw [List.getElem?_append_right (by omega), Nat.add_sub_cancel_left, hp])
    rwa [← Nat.add_assoc] at later

theorem Stands.cons {f : Fit} {n : Nat} {p : Place} {ps : List Place} (h : f.Stands n (p :: ps)) :
    (∃ item, f.get? ⟨n⟩ = some item ∧ item.place = p) ∧ f.Stands (n + 1) ps := by
  have parts : f.Stands n ([p] ++ ps) := h
  exact ⟨Option.map_eq_some_iff.mp (h 0 p rfl), parts.append.2⟩

/-- what is found in a block of places of one kind -/
theorem Stands.filterMap_span {f : Fit} {ι β : Type} (place : ι → Place) {look : Handle → Option β}
    (view : ι → β)
    (found : ∀ h item i, f.get? h = some item → item.place = place i → look h = some (view i))
    (is : List ι) :
    ∀ n, f.Stands n (is.map place) → (span n is.length).filterMap look = is.map view := by
  induction is with
  | nil => exact fun _ _ => rfl
  | cons i is ih =>
    intro n h
    obtain ⟨⟨item, hi, hp⟩, rest⟩ := Stands.cons h
    rw [List.length_cons, span_succ, List.filterMap_cons, found _ item i hi hp, ih _ rest]
    rfl

end Fit

namespace Loadout
variable (l : Loadout)

def afterModules : Nat := 2 + (modulePlaces 2 l.modules).length

def afterDrones : Nat := l.afterModules + l.drones.length

def afterFighters : Nat := l.afterDrones + l.fighters.length

def afterImplants : Nat := l.afterFighters + l.implants.length

end Loadout

namespace Fit

/-- the list of each kind in the fit of a loadout, and what stands there -/
structure Blocks (l : Loadout) (rules : Rules) (f : Fit) : Prop where
  anchors : f.Stands 0 [⟨l.hull, .hull⟩, ⟨rules.pilotType, .pilot⟩]
  modules : f.modules = handlesOf .module 2 (modulePlaces 2 l.modules) ∧
    f.Stands 2 (modulePlaces 2 l.modules)
  drones : f.drones = span l.afterModules l.drones.length ∧
    f.Stands l.afterModules (l.drones.map DroneSpec.place)
  fighters : f.fighters = span l.afterDrones l.fighters.length ∧
    f.Stands l.afterDrones (l.fighters.map FighterSpec.place)
  implants : f.implants = span l.afterFighters l.implants.length ∧
    f.Stands l.afterFighters (l.implants.map implantPlace)
  skills : f.skills = span l.afterImplants l.pilot.skills.toList.length ∧
    f.Stands l.afterImplants (l.pilot.skills.toList.map skillPlace)

section
variable {l : Loadout} {rules : Rules} {f : Fit}

theorem LaidOut.blocks (hf : f.LaidOut l rules) : f.Blocks l rules := by
  have lists : ∀ k, f.listed k = handlesOf k 0 (l.places rules) := by
    intro k
    rw [hf.sorted k, handlesWhere_kind, hf.places]
  have drones := fun k => handlesOf_map DroneSpec.place (fun _ => rfl) k l.drones
  have fighters := fun k => handlesOf_map FighterSpec.place (fun _ => rfl) k l.fighters
  have implants := fun k => handlesOf_map implantPlace (fun _ => rfl) k l.implants
  have skills := fun k => handlesOf_map skillPlace (fun _ => rfl) k l.pilot.skills.toList
  have parts : ∀ k, f.listed k =
      handlesOf k 0 [⟨l.hull, .hull⟩, ⟨rules.pilotType, .pilot⟩] ++
        handlesOf k 2 (modulePlaces 2 l.modules)
        ++ (if .drone = k then span l.afterModules l.drones.length else [])
        ++ (if .fighter = k then span l.afterDrones l.fighters.length else [])
        ++ (if .implant = k then span l.afterFighters l.implants.length else [])
        ++ (if .skill = k then span l.afterImplants l.pilot.skills.toList.length else []) := by
    intro k
    rw [lists]
    unfold Loadout.places
    simp only [handlesOf_append, drones, fighters, implants, skills, List.length_append,
      List.length_map, List.length_cons, List.length_nil, Nat.zero_add]
    rfl
  have stands : f.Stands 0 (l.places rules) := hf.places ▸ f.stands_places
  unfold Loadout.places at stands
  obtain ⟨stands, atSkills⟩ := stands.append
  obtain ⟨stands, atImplants⟩ := stands.append
  obtain ⟨stands, atFighters⟩ := stands.append
  obtain ⟨stands, atDrones⟩ := stands.append
  obtain ⟨atAnchors, atModules⟩ := stands.append
  simp only [List.length_append, List.length_map, List.length_cons, List.length_nil, Nat.zero_add]
    at atModules atDrones atFighters atImplants atSkills
  have anchors : ∀ k, k ≠ .hull → k ≠ .pilot →
      handlesOf k 0 [⟨l.hull, .hull⟩, ⟨rules.pilotType, .pilot⟩] = [] := by
    intro k hh hp
    simp [handlesOf, Place.kind, Role.kind, hh.symm, hp.symm]
  have others := fun k hm hc => handlesOf_modulePlaces_of_ne (k := k) hm hc l.modules 2
  refine ⟨atAnchors, ⟨?_, atModules⟩, ⟨?_, atDrones⟩, ⟨?_, atFighters⟩, ⟨?_, atImplants⟩,
    ⟨?_, atSkills⟩⟩
  · exact (parts .module).trans (by simp [anchors])
  · exact (parts .drone).trans (by simp [anchors, others])
  · exact (parts .fighter).trans (by simp [anchors, others])
  · exact (parts .implant).trans (by simp [anchors, others])
  · exact (parts .skill).trans (by simp [anchors, others])

/-! ### all handles in order -/

/-- a module, and the charge that is loaded into it -/
def withCharge (f : Fit) (m : Handle) : List Handle := m :: ((f.get? m).bind Item.charge?).toList

theorem flatMap_withCharge (ms : List ModuleSpec) : ∀ n, f.Stands n (modulePlaces n ms) →
    (handlesOf .module n (modulePlaces n ms)).flatMap f.withCharge =
      span n (modulePlaces n ms).length := by
  induction ms with
  | nil => exact fun _ _ => rfl
  | cons m ms ih =>
    intro n h
    have parts : f.Stands n (m.places n ++ modulePlaces (n + (m.places n).length) ms) := h
    obtain ⟨first, rest⟩ := parts.append
    obtain ⟨⟨item, hi, hp⟩, -⟩ := Stands.cons first
    have role : item.role = _ := congrArg Place.role hp
    have own : f.withCharge ⟨n⟩ = span n (m.places n).length := by
      unfold withCharge Item.charge? ModuleSpec.places
      rw [hi, Option.bind_some, role]
      cases m.charge <;> rfl
    rw [handlesOf_modulePlaces_cons, List.flatMap_cons, own, ih _ rest, ← span_add,
      ← List.length_append]
    rfl

/-- list after list, each module followed by its charge, these are all handles in their order -/
theorem LaidOut.walk (hf : f.LaidOut l rules) :
    [hull, pilot] ++ f.modules.flatMap f.withCharge ++ f.drones
    ++ f.fighters ++ f.implants ++ f.skills = f.handles := by
  have blocks := hf.blocks
  have all : f.handles = span 0 (l.places rules).length := by
    rw [← hf.places, length_places, span, ← List.range_eq_range']
    rfl
  rw [blocks.modules.1, flatMap_withCharge _ _ blocks.modules.2, blocks.drones.1, blocks.fighters.1,
    blocks.implants.1, blocks.skills.1, all]
  unfold Loadout.places
  simp only [List.length_append, List.length_map, span_add, Nat.zero_add, List.length_cons,
    List.length_nil]
  rfl

end

end Fit

end Fitting
