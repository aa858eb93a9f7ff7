import Fitting.Proofs.Fit.Origin
import Fitting.Proofs.Fit.Places
import Fitting.Proofs.Fit.Targets
import Fitting.Proofs.Taken

/-!
# What hull and pilot take

Read without the handles of their sources, the edges that are meant for an attribute of hull or
pilot do not depend on the place of an implant among the others.

* `entries_fit`          the implants of a loadout stand in their order between all other items;
* `Reading`              an edge, read without the handle of its source;
* `readings_meant`       what is meant for an attribute, implant after implant;
* `readings_attached`    what of it the attribute takes.
-/

namespace Fitting

/-! ### the items of a loadout in order -/

namespace TypeSheets
variable (s : TypeSheets) (l : Loadout) (rules : Rules)

/-- the fit before the implants have their turn -/
def beforeImplants : Fit :=
  l.fighters.foldl s.addFighter (l.drones.foldl s.addDrone
    (l.modules.foldl s.addModule (Fit.bare (s.item l.hull .hull) (s.pilot l rules))))

theorem grown_fit : (s.beforeImplants l rules).Grown (s.fit l rules)
    (l.implants.map (s.item · .implant) ++ l.pilot.skills.toList.map s.skillItem) := by
  have implants := Fit.grown_foldl s.addImplant (s.item · .implant) (fun f _ => f.grown_push _)
    l.implants (s.beforeImplants l rules)
  exact implants.trans (Fit.grown_foldl s.addSkill s.skillItem (fun f _ => f.grown_push _) _ _)

theorem entries_fit : (s.fit l rules).entries = (s.beforeImplants l rules).entries ++
    (Fit.itemsFrom (s.beforeImplants l rules).size (l.implants.map (s.item · .implant)) ++
      Fit.itemsFrom ((s.beforeImplants l rules).size + l.implants.length)
        (l.pilot.skills.toList.map s.skillItem)) := by
  rw [s.grown_fit l rules, Fit.itemsFrom_append, List.length_map]

theorem two_le_size_beforeImplants : 2 ≤ (s.beforeImplants l rules).size :=
  (s.beforeImplants l rules).two_le_size

/-- the items before the implants are the same without them -/
theorem get?_fit {h : Handle} (before : h.index < (s.beforeImplants l rules).size) :
    (s.fit l rules).get? h = (s.beforeImplants l rules).get? h :=
  (s.grown_fit l rules).get? before

/-! ### hull and pilot -/

section
variable {c : Cell} (anchor : c.item.index < 2)
include anchor

theorem exists_anchor : ∃ target, (s.beforeImplants l rules).get? c.item = some target :=
  ⟨_, Array.getElem?_eq_getElem (Nat.lt_of_lt_of_le anchor (s.two_le_size_beforeImplants l rules))⟩

theorem get?_fit_anchor :
    (s.fit l rules).get? c.item = (s.beforeImplants l rules).get? c.item :=
  s.get?_fit l rules (Nat.lt_of_lt_of_le anchor (s.two_le_size_beforeImplants l rules))

theorem state?_fit_anchor : (s.fit l rules).state? c = (s.beforeImplants l rules).state? c := by
  unfold Fit.state?
  rw [s.get?_fit_anchor l rules anchor]

/-- from the implants on there is neither hull nor pilot -/
theorem anchor_ne {i : Nat} (hi : (s.beforeImplants l rules).size ≤ i) : c.item ≠ ⟨i⟩ := by
  intro he
  rw [he] at anchor
  exact absurd (Nat.lt_of_lt_of_le anchor ((s.two_le_size_beforeImplants l rules).trans hi))
    (Nat.lt_irrefl _)

end

end TypeSheets

/-! ### edges as they are read -/

/-- an edge, read without the handle of its source -/
structure Reading where
  sourceType : Option TypeId
  sourceAttribute : AttributeId
  operation : Operation
  effect : EffectId
  category : EffectCategory
  penalized : Bool
  dbuff : Option DbuffTag
deriving DecidableEq, Repr

/-- an edge of a source of this type -/
def Edge.reading (sourceType : Option TypeId) (e : Edge) : Reading :=
  ⟨sourceType, e.sourceAttribute, e.operation, e.effect, e.category, e.penalized, e.dbuff⟩

def Reading.assigns (r : Reading) : Bool := r.operation.isAssign

namespace Fit

/-- an edge of the fit with the type of its source -/
def reading (f : Fit) (e : Edge) : Reading := e.reading ((f.get? e.source).map Item.type)

/-- what acts on a cell, as it is read -/
def readings (f : Fit) (c : Cell) : List Reading := (f.edges c).map f.reading

/-- what one item means for a cell, as it is read -/
def readingsFrom (index : ModifierIndex) (catalog : Catalog) (rules : Rules) (c : Cell)
    (target : Item) (source : Handle) (item : Item) : List Reading :=
  (edgesFrom index catalog rules c target source item).map (Edge.reading (some item.type))

section
variable (index : ModifierIndex) (catalog : Catalog) (rules : Rules) {f : Fit} {c : Cell}
  {target : Item}

theorem map_reading_edgesTo (numbered : f.Numbered) (ht : f.get? c.item = some target) :
    (edgesTo c (f.attachments index catalog rules)).map f.reading =
      f.entries.flatMap (fun (source, item) =>
        readingsFrom index catalog rules c target source item) := by
  rw [edgesTo_attachments index catalog rules numbered ht, List.map_flatMap]
  refine List.flatMap_congr fun (source, item) hm => ?_
  refine List.map_congr_left fun e he => ?_
  obtain ⟨m, _, rfl⟩ := List.mem_map.mp he
  show Edge.reading ((f.get? source).map Item.type) _ = _
  rw [mem_entries.mp hm]
  rfl

/-- what an item means does not depend on its id, -/
theorem readingsFrom_withId (source h : Handle) (item : Item) :
    readingsFrom index catalog rules c target source (item.withId h) =
      readingsFrom index catalog rules c target source item := rfl

/-- and items that are not the target itself mean the same for it wherever they stand -/
theorem readingsFrom_elsewhere {source other : Handle} (hs : c.item ≠ source) (ho : c.item ≠ other)
    (item : Item) : readingsFrom index catalog rules c target source item =
      readingsFrom index catalog rules c target other item := by
  have same : ∀ sourceType domain, reaches c.item target source item sourceType domain
      = reaches c.item target other item sourceType domain := by
    intro sourceType domain
    cases domain with
    | item => simp [reaches, hs, ho]
    | _ => rfl
  unfold readingsFrom edgesFrom
  simp only [same, List.map_map]
  rfl

theorem flatMap_itemsFrom {β : Type} {n : Nat} {R : Handle → Item → List β}
    (same : ∀ i, n ≤ i → ∀ item : Item, R ⟨i⟩ (item.withId ⟨i⟩) = R ⟨n⟩ item) (items : List Item) :
    ∀ k, n ≤ k →
      (itemsFrom k items).flatMap (fun (h, item) => R h item) = items.flatMap (R ⟨n⟩) := by
  induction items with
  | nil => exact fun _ _ => rfl
  | cons item items ih =>
    intro k hk
    show R ⟨k⟩ (item.withId ⟨k⟩) ++ (itemsFrom (k + 1) items).flatMap _ = _
    rw [same k hk, ih (k + 1) (Nat.le_succ_of_le hk), List.flatMap_cons]

end

end Fit

/-! ### what hull and pilot take -/

namespace TypeSheets
variable (s : TypeSheets) (index : ModifierIndex) (catalog : Catalog) (rules : Rules)

/-- the fit of a loadout with its modifiers attached -/
def attached (l : Loadout) : Fit :=
  ((s.fit l rules).applyModifiers index catalog rules).1

theorem numbered_attached (l : Loadout) : (s.attached index catalog rules l).Numbered :=
  (s.numbered_fit l rules).attachAll catalog _

/-- what an implant of this type means for a cell of `target` -/
def readingsOfImplant (l : Loadout) (c : Cell) (target : Item) (type : TypeId) : List Reading :=
  Fit.readingsFrom index catalog rules c target ⟨(s.beforeImplants l rules).size⟩
    (s.item type .implant)

/-- what the items before the implants mean for a cell of `target` -/
def readingsBefore (l : Loadout) (c : Cell) (target : Item) : List Reading :=
  (s.beforeImplants l rules).entries.flatMap fun (source, item) =>
    Fit.readingsFrom index catalog rules c target source item

/-- what the items after the implants mean for it -/
def readingsAfter (l : Loadout) (c : Cell) (target : Item) : List Reading :=
  (Fit.itemsFrom ((s.beforeImplants l rules).size + l.implants.length)
    (l.pilot.skills.toList.map s.skillItem)).flatMap fun (source, item) =>
      Fit.readingsFrom index catalog rules c target source item

variable {s} {l : Loadout} {c : Cell} {target : Item}

/-- what is meant for a cell of hull or pilot: implant after implant between all else -/
theorem readings_meant (anchor : c.item.index < 2)
    (ht : (s.beforeImplants l rules).get? c.item = some target) :
    (Fit.edgesTo c ((s.fit l rules).attachments index catalog rules)).map (s.fit l rules).reading =
      s.readingsBefore index catalog rules l c target ++
        (l.implants.flatMap (s.readingsOfImplant index catalog rules l c target) ++
          s.readingsAfter index catalog rules l c target) := by
  have ht' : (s.fit l rules).get? c.item = some target :=
    (s.get?_fit_anchor l rules anchor).trans ht
  have numbered := s.numbered_fit l rules
  rw [Fit.map_reading_edgesTo index catalog rules numbered ht', s.entries_fit, List.flatMap_append,
    List.flatMap_append]
  have implants := Fit.flatMap_itemsFrom (R := Fit.readingsFrom index catalog rules c target)
    (fun i hi item =>
      (Fit.readingsFrom_withId ..).trans <|
        Fit.readingsFrom_elsewhere index catalog rules (s.anchor_ne l rules anchor hi)
          (s.anchor_ne l rules anchor (Nat.le_refl _)) item)
    (l.implants.map (s.item · .implant)) _ (Nat.le_refl _)
  rw [implants, List.flatMap_map]
  rfl

/-- of what is meant for it, a cell of hull or pilot takes all if it is declared, and else all from
the first assignment on -/
theorem readings_attached (anchor : c.item.index < 2)
    (ht : (s.beforeImplants l rules).get? c.item = some target) :
    (s.attached index catalog rules l).readings c =
      taken Reading.assigns ((s.beforeImplants l rules).state? c).isSome
        (s.readingsBefore index catalog rules l c target ++
          (l.implants.flatMap (s.readingsOfImplant index catalog rules l c target) ++
            s.readingsAfter index catalog rules l c target)) := by
  have present : (s.fit l rules).get? c.item ≠ none := by
    rw [s.get?_fit_anchor l rules anchor, ht]
    exact Option.some_ne_none _
  -- attaching changes no type, so an edge reads the same before and after
  have reading : (s.attached index catalog rules l).reading = (s.fit l rules).reading := by
    have types : ∀ item : Item, item.shell.type = item.type := fun _ => rfl
    funext e
    unfold Fit.reading attached Fit.applyModifiers
    rw [← Item.map_shell types, Fit.shell_attachAll, Item.map_shell types]
  have edges := Fit.edges_attachAll catalog present (fun _ => s.edges_of_state_fit)
    ((s.fit l rules).attachments index catalog rules)
  unfold Fit.readings
  rw [reading, ← readings_meant index catalog rules anchor ht, ← s.state?_fit_anchor l rules anchor,
    ← taken_map]
  exact congrArg _ edges

end TypeSheets

end Fitting
