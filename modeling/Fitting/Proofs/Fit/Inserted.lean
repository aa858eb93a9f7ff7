import Mathlib.Data.List.InsertIdx
import Fitting.Proofs.Fit.Blocks
import Fitting.Proofs.Resolution.Rename

/-!
# One more item

An item that is put into a loadout shifts the handles of all items after it.

* `Handle.shift`       the handles once an item has been put in;
* `Extra`              a module without charge, a drone, a fighter or an implant;
* `Loadout.Split`      the places before such an item and after it;
* `exists_split`       it can be put in at any position of its list;
* `Fit.listed_insert`  the lists of the fit are then the same under the handles they have now, with
                       one new.
-/

namespace Fitting

/-- the handles once an item has been put in at `p` -/
def Handle.shift (p : Nat) (h : Handle) : Handle := if h.index < p then h else ⟨h.index + 1⟩

namespace Handle
variable {p : Nat}

theorem shift_of_lt {h : Handle} (hp : h.index < p) : h.shift p = h := if_pos hp

theorem shift_of_le {h : Handle} (hp : p ≤ h.index) : h.shift p = ⟨h.index + 1⟩ :=
  if_neg (Nat.not_lt.mpr hp)

theorem shift_injective (p : Nat) : Function.Injective (shift p) := by
  rintro ⟨i⟩ ⟨j⟩ h
  unfold shift at h
  dsimp only at h
  split at h <;> split at h <;> simp only [mk.injEq] at h ⊢ <;> omega

theorem shift_hull (anchors : 2 ≤ p) : Fit.hull.shift p = Fit.hull :=
  shift_of_lt (show 0 < p by omega)

theorem shift_pilot (anchors : 2 ≤ p) : Fit.pilot.shift p = Fit.pilot :=
  shift_of_lt (show 1 < p by omega)

/-- the handle of the item that has been put in -/
theorem shift_ne (h : Handle) : h.shift p ≠ ⟨p⟩ := by
  obtain ⟨i⟩ := h
  unfold shift
  dsimp only
  split <;> simp only [ne_eq, mk.injEq] <;> omega

end Handle

theorem insertIdx_length {α : Type} (before after : List α) (x : α) :
    (before ++ after).insertIdx before.length x = before ++ x :: after := by
  induction before with
  | nil => rfl
  | cons a before ih =>
    rw [List.cons_append, List.length_cons, List.insertIdx_succ_cons, ih]
    rfl

/-! ### places under other handles -/

def Place.rename (ρ : Handle → Handle) (p : Place) : Place := ⟨p.type, p.role.rename ρ⟩

@[simp] theorem Place.kind_rename (ρ : Handle → Handle) (p : Place) :
    (p.rename ρ).kind = p.kind := by
  obtain ⟨type, role⟩ := p
  cases role <;> rfl

theorem handlesOf_rename (ρ : Handle → Handle) (k : Kind) (n : Nat) (ps : List Place) :
    handlesOf k n (ps.map (Place.rename ρ)) = handlesOf k n ps :=
  handlesOf_map_kind (Place.kind_rename ρ) k n ps

section
variable {p : Nat}

/-- handles before the item that is put in stay as they are -/
theorem handlesOf_before (k : Kind) {n : Nat} {ps : List Place} (h : n + ps.length ≤ p) :
    (handlesOf k n ps).map (Handle.shift p) = handlesOf k n ps := by
  unfold handlesOf
  rw [List.map_map]
  refine List.map_congr_left fun (q, i) hm => ?_
  have position : i < n + ps.length := List.snd_lt_add_of_mem_zipIdx (List.mem_of_mem_filter hm)
  exact Handle.shift_of_lt (show i < p by omega)

/-- handles after it move up by one -/
theorem handlesOf_after (k : Kind) {n : Nat} (h : p ≤ n) (ps : List Place) :
    (handlesOf k n ps).map (Handle.shift p) = handlesOf k (n + 1) ps := by
  unfold handlesOf
  rw [List.zipIdx_succ, List.filter_map, List.map_map, List.map_map]
  refine List.map_congr_left fun (q, i) hm => ?_
  have position : n ≤ i := List.le_snd_of_mem_zipIdx (List.mem_of_mem_filter hm)
  exact Handle.shift_of_le (show p ≤ i by omega)

theorem modulePlaces_append (ms rest : List ModuleSpec) : ∀ n, modulePlaces n (ms ++ rest) =
    modulePlaces n ms ++ modulePlaces (n + (modulePlaces n ms).length) rest := by
  induction ms with
  | nil => exact fun _ => rfl
  | cons m ms ih =>
    intro n
    rw [List.cons_append, modulePlaces, ih, modulePlaces, List.length_append, List.append_assoc,
      Nat.add_assoc]

theorem modulePlaces_before (ms : List ModuleSpec) : ∀ n, n + (modulePlaces n ms).length ≤ p →
    (modulePlaces n ms).map (Place.rename (Handle.shift p)) = modulePlaces n ms := by
  induction ms with
  | nil => exact fun _ _ => rfl
  | cons m ms ih =>
    intro n h
    rw [modulePlaces, List.length_append] at h
    have rest := ih (n + (m.places n).length) (by omega)
    have first : (m.places n).map (Place.rename (Handle.shift p)) = m.places n := by
      unfold ModuleSpec.places at h ⊢
      cases hc : m.charge with
      | none => rfl
      | some load =>
        rw [hc] at h
        have last : Handle.shift p ⟨n + 1⟩ = ⟨n + 1⟩ :=
          Handle.shift_of_lt (show n + 1 < p by simp at h; omega)
        have own : Handle.shift p ⟨n⟩ = ⟨n⟩ := Handle.shift_of_lt (show n < p by simp at h; omega)
        simp [Place.rename, Role.rename, last, own]
    rw [modulePlaces, List.map_append, first, rest]

theorem modulePlaces_after (ms : List ModuleSpec) : ∀ n, p ≤ n →
    (modulePlaces n ms).map (Place.rename (Handle.shift p)) = modulePlaces (n + 1) ms := by
  induction ms with
  | nil => exact fun _ _ => rfl
  | cons m ms ih =>
    intro n h
    have rest := ih (n + (m.places n).length) (by omega)
    have first : (m.places n).map (Place.rename (Handle.shift p)) = m.places (n + 1) := by
      have next : Handle.shift p ⟨n + 1⟩ = ⟨n + 2⟩ := Handle.shift_of_le (Nat.le_succ_of_le h)
      have own : Handle.shift p ⟨n⟩ = ⟨n + 1⟩ := Handle.shift_of_le h
      unfold ModuleSpec.places
      cases m.charge <;> simp [Place.rename, Role.rename, next, own]
    have width : (m.places (n + 1)).length = (m.places n).length := by
      rw [← first, List.length_map]
    rw [modulePlaces, List.map_append, first, rest, modulePlaces, width, Nat.add_right_comm]

end

/-! ### a loadout with one more item -/

/-- an item that can be put into a loadout on its own -/
inductive Extra where
  | module (m : ModuleSpec) (empty : m.charge = none)
  | drone (d : DroneSpec)
  | fighter (q : FighterSpec)
  | implant (type : TypeId)

namespace Extra

def type : Extra → TypeId
  | .module m _ => m.type
  | .drone d => d.type
  | .fighter q => q.type
  | .implant type => type

def place : Extra → Place
  | .module m _ =>
    ⟨m.type, .module
      { rack := m.rack, quantity := m.quantity, status := m.status, charge := none,
        mutations := m.mutations }⟩
  | .drone d => d.place
  | .fighter q => q.place
  | .implant type => implantPlace type

theorem type_place (x : Extra) : x.place.type = x.type := by
  cases x <;> rfl

end Extra

namespace Loadout

/-- how many items of this kind there are -/
def count (l : Loadout) : Extra → Nat
  | .module _ _ => l.modules.length
  | .drone _ => l.drones.length
  | .fighter _ => l.fighters.length
  | .implant _ => l.implants.length

/-- one more item, at the position `i` of its list -/
def insert (l : Loadout) (i : Nat) : Extra → Loadout
  | .module m _ => { l with modules := l.modules.insertIdx i m }
  | .drone d => { l with drones := l.drones.insertIdx i d }
  | .fighter q => { l with fighters := l.fighters.insertIdx i q }
  | .implant type => { l with implants := l.implants.insertIdx i type }

theorem exists_append {α : Type} {xs : List α} {i : Nat} (h : i ≤ xs.length) :
    ∃ before after, xs = before ++ after ∧ before.length = i :=
  ⟨xs.take i, xs.drop i, (List.take_append_drop i xs).symm, List.length_take_of_le h⟩

/-- the places of hull, pilot and some of the modules -/
def front (l : Loadout) (rules : Rules) (ms : List ModuleSpec) : List Place :=
  [⟨l.hull, .hull⟩, ⟨rules.pilotType, .pilot⟩] ++ modulePlaces 2 ms

theorem length_front (l : Loadout) (rules : Rules) (ms : List ModuleSpec) :
    (l.front rules ms).length = 2 + (modulePlaces 2 ms).length :=
  List.length_append

theorem front_before (l : Loadout) (rules : Rules) (ms : List ModuleSpec) {p : Nat}
    (h : (l.front rules ms).length ≤ p) :
    (l.front rules ms).map (Place.rename (Handle.shift p)) = l.front rules ms := by
  rw [length_front] at h
  unfold front
  rw [List.map_append, modulePlaces_before ms 2 h]
  rfl

theorem handlesOf_front (l : Loadout) (rules : Rules) (ms : List ModuleSpec) {k : Kind}
    (later : k ≠ .hull ∧ k ≠ .pilot ∧ k ≠ .module ∧ k ≠ .charge) :
    handlesOf k 0 (l.front rules ms) = [] := by
  obtain ⟨hull, pilot, module, charge⟩ := later
  have modules := handlesOf_modulePlaces_of_ne module charge ms 2
  unfold front
  rw [handlesOf_append]
  show handlesOf k 0 _ ++ handlesOf k 2 (modulePlaces 2 ms) = []
  rw [modules]
  simp [handlesOf, Place.kind, Role.kind, hull.symm, pilot.symm]

theorem length_handlesOf_front (l : Loadout) (rules : Rules) (ms : List ModuleSpec) :
    (handlesOf .module 0 (l.front rules ms)).length = ms.length := by
  have modules : ∀ n, (handlesOf .module n (modulePlaces n ms)).length = ms.length := by
    induction ms with
    | nil => exact fun _ => rfl
    | cons m ms ih =>
      intro n
      rw [handlesOf_modulePlaces_cons, List.length_cons, ih, List.length_cons]
  unfold front
  rw [handlesOf_append, List.length_append]
  simpa [handlesOf, Place.kind, Role.kind] using modules 2

/-- no place names a handle -/
def NamesNone (ps : List Place) : Prop := ∀ ρ, ps.map (Place.rename ρ) = ps

theorem namesNone_map {ι : Type} (place : ι → Place) (h : ∀ ρ i, (place i).rename ρ = place i)
    (is : List ι) : NamesNone (is.map place) := by
  intro ρ
  rw [List.map_map]
  exact List.map_congr_left fun i _ => h ρ i

theorem NamesNone.append {ps qs : List Place} (hp : NamesNone ps) (hq : NamesNone qs) :
    NamesNone (ps ++ qs) := by
  intro ρ
  rw [List.map_append, hp, hq]

/-- a loadout with one more item: the places before it, its own, and those after it, under the
handles that they have now -/
structure Split (l : Loadout) (rules : Rules) (i : Nat) (x : Extra) (before after : List Place) :
    Prop where
  places : l.places rules = before ++ after
  anchors : 2 ≤ before.length
  position : (handlesOf x.place.kind 0 before).length = i
  inserted : (l.insert i x).places rules = before.map (Place.rename (Handle.shift before.length)) ++
    x.place :: after.map (Place.rename (Handle.shift before.length))

section
variable (l : Loadout) (rules : Rules)

theorem split_module (m : ModuleSpec) (empty : m.charge = none) {i : Nat}
    (bound : i ≤ l.modules.length) :
    ∃ before after, l.Split rules i (.module m empty) before after := by
  obtain ⟨as, bs, hms, rfl⟩ := exists_append bound
  have crew : NamesNone (l.drones.map DroneSpec.place ++ l.fighters.map FighterSpec.place
      ++ l.implants.map implantPlace ++ l.pilot.skills.toList.map skillPlace) :=
    (((namesNone_map _ (fun _ _ => rfl) _).append (namesNone_map _ (fun _ _ => rfl) _)).append
      (namesNone_map _ (fun _ _ => rfl) _)).append (namesNone_map _ (fun _ _ => rfl) _)
  have own : m.places (l.front rules as).length = [(Extra.module m empty).place] := by
    unfold ModuleSpec.places Extra.place
    rw [empty]
    rfl
  refine ⟨l.front rules as, modulePlaces (l.front rules as).length bs
    ++ (l.drones.map DroneSpec.place ++ l.fighters.map FighterSpec.place
      ++ l.implants.map implantPlace ++ l.pilot.skills.toList.map skillPlace), ?_, ?_, ?_, ?_⟩
  · unfold places
    rw [hms, modulePlaces_append, length_front]
    simp only [front, List.append_assoc]
  · rw [length_front]
    exact Nat.le_add_right 2 _
  · exact length_handlesOf_front l rules as
  · have modules : modulePlaces 2 (l.modules.insertIdx as.length m) = modulePlaces 2 as ++
        (Extra.module m empty).place :: modulePlaces ((l.front rules as).length + 1) bs := by
      rw [hms, insertIdx_length, modulePlaces_append, ← length_front l rules, modulePlaces, own]
      rfl
    rw [front_before l rules as (Nat.le_refl _), List.map_append,
      modulePlaces_after bs _ (Nat.le_refl _), crew]
    show [_, _] ++ modulePlaces 2 (l.modules.insertIdx as.length m) ++ _ ++ _ ++ _ ++ _ = _
    rw [modules]
    simp only [front, List.append_assoc, List.cons_append]
    rfl

theorem length_span (n len : Nat) : (span n len).length = len := by
  unfold span
  rw [List.length_map, List.length_range']

/-- one more item in a block of items that name no handles -/
theorem split_block (k : Kind) (later : k ≠ .hull ∧ k ≠ .pilot ∧ k ≠ .module ∧ k ≠ .charge)
    {ι : Type} (place : ι → Place) (kind : ∀ j, (place j).kind = k)
    (free : ∀ ρ j, (place j).rename ρ = place j)
    (head : List Place) {tail : List Place} (hh : NamesNone head)
    (others : ∀ n, handlesOf k n head = [])
    (ht : NamesNone tail) {x : Extra} {j : ι} (own : x.place = place j) {js : List ι} {i : Nat}
    (bound : i ≤ js.length)
    (places : l.places rules = l.front rules l.modules ++ head ++ js.map place ++ tail)
    (inserted : (l.insert i x).places rules =
      l.front rules l.modules ++ head ++ (js.insertIdx i j).map place ++ tail) :
    ∃ before after, l.Split rules i x before after := by
  obtain ⟨as, bs, rfl, rfl⟩ := exists_append bound
  have long : (l.front rules l.modules).length ≤
      (l.front rules l.modules ++ head ++ as.map place).length := by simp
  have stay := l.front_before rules l.modules long
  refine ⟨l.front rules l.modules ++ head ++ as.map place, bs.map place ++ tail, ?_, ?_, ?_, ?_⟩
  · rw [places]
    simp only [List.map_append, List.append_assoc]
  · simp only [List.length_append, length_front]
    omega
  · rw [own, kind, handlesOf_append, handlesOf_append, l.handlesOf_front rules l.modules later,
      others, handlesOf_map place kind, if_pos rfl]
    exact length_span _ _
  · have before := namesNone_map place free as
    have after := namesNone_map place free bs
    rw [inserted, insertIdx_length, own]
    simp only [List.map_append (f := Place.rename _), stay, hh _, before _, after _, ht _]
    simp only [List.map_append, List.map_cons, List.append_assoc, List.cons_append]

/-- one more item can be put in at any position of its list -/
theorem exists_split {i : Nat} {x : Extra} (bound : i ≤ l.count x) :
    ∃ before after, l.Split rules i x before after := by
  have drones := namesNone_map DroneSpec.place (fun _ _ => rfl) l.drones
  have fighters := namesNone_map FighterSpec.place (fun _ _ => rfl) l.fighters
  have implants := namesNone_map implantPlace (fun _ _ => rfl) l.implants
  have skills := namesNone_map skillPlace (fun _ _ => rfl) l.pilot.skills.toList
  cases x with
  | module m empty => exact l.split_module rules m empty bound
  | drone d =>
    refine l.split_block rules .drone (by decide) DroneSpec.place (fun _ => rfl) (fun _ _ => rfl) []
      (fun _ => rfl) (fun _ => rfl) ((fighters.append implants).append skills) rfl bound ?_ ?_
    all_goals simp only [places, front, insert, List.append_assoc, List.nil_append]
  | fighter q =>
    refine l.split_block rules .fighter (by decide) FighterSpec.place (fun _ => rfl)
      (fun _ _ => rfl) _ drones (handlesOf_map DroneSpec.place (fun _ => rfl) _ _)
      (implants.append skills) rfl bound ?_ ?_
    all_goals simp only [places, front, insert, List.append_assoc]
  | implant t =>
    refine l.split_block rules .implant (by decide) implantPlace (fun _ => rfl) (fun _ _ => rfl) _
      (drones.append fighters) (fun n => ?_) skills rfl bound ?_ ?_
    · rw [handlesOf_append, handlesOf_map DroneSpec.place (fun _ => rfl),
        handlesOf_map FighterSpec.place (fun _ => rfl)]
      rfl
    all_goals simp only [places, front, insert, List.append_assoc]

end

end Loadout

/-! ### the lists of a fit with one more item -/

namespace Fit

/-- the lists are the same under the handles they have now, but that of its kind has the new one -/
theorem listed_insert {l : Loadout} {rules : Rules} {i : Nat} {x : Extra}
    {before after : List Place}
    (split : l.Split rules i x before after) {f f' : Fit} (hf : f.LaidOut l rules)
    (hf' : f'.LaidOut (l.insert i x) rules) (k : Kind) :
    f'.listed k = if x.place.kind = k
      then ((f.listed k).map (Handle.shift before.length)).insertIdx i ⟨before.length⟩
      else (f.listed k).map (Handle.shift before.length) := by
  have old : (f.listed k).map (Handle.shift before.length) =
      handlesOf k 0 before ++ handlesOf k (before.length + 1) after := by
    rw [hf.sorted k, handlesWhere_kind, hf.places, split.places, handlesOf_append, List.map_append,
      Nat.zero_add, handlesOf_before k (by omega), handlesOf_after k (Nat.le_refl _)]
  have new : f'.listed k = handlesOf k 0 before ++ (if x.place.kind = k
      then ⟨before.length⟩ :: handlesOf k (before.length + 1) after
      else handlesOf k (before.length + 1) after) := by
    rw [hf'.sorted k, handlesWhere_kind, hf'.places, split.inserted, handlesOf_append,
      handlesOf_rename, List.length_map, Nat.zero_add, handlesOf_cons, handlesOf_rename]
  rw [new, old]
  split
  next hk =>
    subst hk
    rw [← split.position, insertIdx_length]
  next => rfl

end Fit

end Fitting
