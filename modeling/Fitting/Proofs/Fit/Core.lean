import Fitting.Proofs.Fit.Places

/-!
# The core of a loadout

A report shows the racks of modules, all quantities, and the states of drones and fighters, but
nothing is ever computed from them.  The core of a loadout has one and the same rack, quantity and
state in their place.

* `Loadout.core`, `Fit.core`   a loadout and a fit without these details;
* `TypeSheets.fit_core`        the core of a loadout is assembled to the core of its fit;
* `Fit.applyModifiers_core`    the same modifiers are attached to it.
-/

namespace Fitting

/-! ### loadouts -/

def ChargeSpec.core (c : ChargeSpec) : ChargeSpec := { c with quantity := 1 }

/-- the state of a module is no detail: it decides which of its effects count -/
def ModuleSpec.core (m : ModuleSpec) : ModuleSpec :=
  { m with rack := .medium, quantity := 1, charge := m.charge.map ChargeSpec.core }

def DroneSpec.core (d : DroneSpec) : DroneSpec := { d with quantity := 1, status := .online }

def FighterSpec.core (q : FighterSpec) : FighterSpec := { q with quantity := 1, status := .online }

/-- the loadout without the details that only its report shows -/
def Loadout.core (l : Loadout) : Loadout :=
  { l with
    modules := l.modules.map ModuleSpec.core
    drones := l.drones.map DroneSpec.core
    fighters := l.fighters.map FighterSpec.core }

def Role.core : Role → Role
  | .module state => .module { state with rack := .medium, quantity := 1 }
  | .charge owner _ => .charge owner 1
  | .drone state => .drone { state with quantity := 1, status := .online }
  | .fighter _ _ => .fighter 1 .online
  | role => role

@[simp] theorem Role.kind_core (r : Role) : r.core.kind = r.kind := by
  cases r <;> rfl

def Place.core (p : Place) : Place := ⟨p.type, p.role.core⟩

theorem ModuleSpec.places_core (m : ModuleSpec) (n : Nat) :
    m.core.places n = (m.places n).map Place.core := by
  unfold places core
  cases m.charge <;> rfl

theorem modulePlaces_core (ms : List ModuleSpec) : ∀ n, modulePlaces n (ms.map ModuleSpec.core) =
    (modulePlaces n ms).map Place.core := by
  induction ms with
  | nil => exact fun _ => rfl
  | cons m ms ih =>
    intro n
    show m.core.places n ++ modulePlaces (n + (m.core.places n).length) (ms.map ModuleSpec.core) = _
    rw [m.places_core, List.length_map, ih, ← List.map_append]
    rfl

namespace Loadout
variable (l : Loadout) (rules : Rules)

theorem places_core : l.core.places rules = (l.places rules).map Place.core := by
  unfold places core
  simp only [List.map_append, List.map_map, modulePlaces_core]
  rfl

theorem participants_core : l.core.participants rules = l.participants rules := by
  have types : l.core.types rules = l.types rules := by
    rw [← map_type_places, ← map_type_places, places_core, List.map_map]
    rfl
  unfold participants
  rw [types]

end Loadout

/-! ### fits -/

def Item.core (i : Item) : Item := { i with role := i.role.core }

namespace Item
variable (i : Item)

@[simp] theorem moduleStatus?_core : i.core.moduleStatus? = i.moduleStatus? := by
  obtain ⟨role⟩ := i
  cases role <;> rfl

@[simp] theorem charge?_core : i.core.charge? = i.charge? := by
  obtain ⟨role⟩ := i
  cases role <;> rfl

@[simp] theorem owner?_core : i.core.owner? = i.owner? := by
  obtain ⟨role⟩ := i
  cases role <;> rfl

@[simp] theorem mutations?_core : i.core.mutations? = i.mutations? := by
  obtain ⟨role⟩ := i
  cases role <;> rfl

end Item

namespace Fit

/-- the fit without the details that only a report shows -/
def core (f : Fit) : Fit :=
  { f with
    items := f.items.map Item.core
    two_le_size := by simpa using f.two_le_size }

variable (f : Fit)

theorem get?_core (h : Handle) : f.core.get? h = (f.get? h).map Item.core := Array.getElem?_map

theorem entries_core : f.core.entries = f.entries.map (Prod.map id Item.core) := by
  unfold entries core
  rw [Array.toList_map, List.zipIdx_map, List.map_map, List.map_map]
  rfl

theorem idsWhere_core {p : Item → Bool} (same : ∀ i : Item, p i.core = p i) :
    f.core.idsWhere p = f.idsWhere p := by
  have kept : p ∘ Item.core = p := funext same
  unfold idsWhere core
  rw [Array.toList_map, List.filter_map, List.map_map, kept]
  rfl

end Fit

theorem TypeSheets.placed_core (s : TypeSheets) (bases : Map AttributeId Float) (p : Place) :
    s.placed bases p.core = (s.placed bases p).core := by
  obtain ⟨type, role⟩ := p
  cases role <;> rfl

/-- the core of a loadout is assembled to the core of its fit -/
theorem TypeSheets.fit_core (s : TypeSheets) (l : Loadout) (rules : Rules) :
    s.fit l.core rules = (s.fit l rules).core := by
  have lists : ∀ k, (s.fit l.core rules).listed k = (s.fit l rules).listed k := by
    intro k
    rw [s.sorted_fit l.core rules k, s.sorted_fit l rules k, Fit.handlesWhere_kind,
      Fit.handlesWhere_kind, s.places_fit, s.places_fit, l.places_core]
    exact handlesOf_map_kind (g := Place.core) (fun p => p.role.kind_core) k 0 _
  have entries : (s.fit l.core rules).entries = (s.fit l rules).core.entries := by
    have items : (l.core.places rules).map (s.placed l.core.pilot.attributes) =
        ((l.places rules).map (s.placed l.pilot.attributes)).map Item.core := by
      rw [l.places_core, List.map_map, List.map_map]
      exact List.map_congr_left fun p _ => s.placed_core _ p
    rw [Fit.entries_core, s.entries_fit_places, s.entries_fit_places, items]
    exact Fit.itemsFrom_map (fun _ _ => rfl) 0 _
  exact Fit.ext_get? (Fit.get?_congr entries) (lists .module) (lists .drone) (lists .fighter)
    (lists .implant) (lists .skill)

/-! ### modifiers -/

namespace Fit
variable (f : Fit)

theorem targets_core (source : Handle) (sourceType : TypeId) (domain : Domain) :
    f.core.targets source sourceType domain = f.targets source sourceType domain := by
  unfold targets
  rw [get?_core]
  cases f.get? source with
  | none => rfl
  | some item =>
    cases domain with
    | other => simp
    | location =>
      have size : f.core.size = f.size := Array.size_map
      show f.core.handles = f.handles
      unfold handles
      rw [size]
    | locationGroup group => exact f.idsWhere_core (fun _ => rfl)
    | requiredSkill skill => exact f.idsWhere_core (fun _ => rfl)
    | _ => rfl

variable (index : ModifierIndex) (catalog : Catalog) (rules : Rules)

theorem attachments_core :
    f.core.attachments index catalog rules = f.attachments index catalog rules := by
  unfold attachments
  rw [entries_core, List.flatMap_map]
  simp only [targets_core]
  rfl

theorem attachOne_core (att : Attachment) :
    attachOne catalog f.core att = (attachOne catalog f att).core := by
  have extended : ∀ i : Item, extendItem catalog att i.core = (extendItem catalog att i).core := by
    intro i
    have attributes : i.core.attributes = i.attributes := rfl
    unfold extendItem
    rw [attributes]
    cases extend catalog att.target.attr att.edge i.attributes[att.target.attr]? <;> rfl
  rw [attachOne_eq, attachOne_eq]
  refine ext_get? (fun h => ?_) rfl rfl rfl rfl rfl
  rw [get?_modify, get?_core, get?_core, get?_modify]
  split
  · rw [Option.map_map, Option.map_map]
    exact Option.map_congr fun i _ => extended i
  · rfl

/-- what is attached to the core of a fit is what is attached to the fit -/
theorem applyModifiers_core : (f.core.applyModifiers index catalog rules).1 =
    (f.applyModifiers index catalog rules).1.core := by
  unfold applyModifiers
  rw [attachments_core, attachAll_fst, attachAll_fst]
  exact List.foldl_hom core fun g att => g.attachOne_core catalog att

end Fit

end Fitting
