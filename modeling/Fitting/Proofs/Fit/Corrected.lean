import Mathlib.Data.List.Nodup
import Fitting.Proofs.Fit.Corrections

/-!
# What corrections do

Both corrections come down to one factor for a cell.  A module or a drone that is mutated has one
for each attribute that its mutations name, and after that the velocity of the hull has one from the
first propulsion module.  No handle stands twice in the lists of modules and drones, and the hull in
neither, so nothing is multiplied twice.

* `Fit.built`                   a fit that is built by adding items to a hull and a pilot;
* `distinct_built`              its modules and drones have handles of their own;
* `get?_mutated`                what mutations make of a cell;
* `propulsionModule?_eq_some`   the propulsion module is the first one of its kind, in the order of
                                the fit;
* `Corrected`                   what the corrections of a fit make of its values;
* `corrected_correct`           they do so in every fit with distinct handles;
* `Corrected.velocity_eq`       whatever comes after the first propulsion module does not count;
* `correct_exact`               both for a fit that is built item by item.
-/

namespace Fitting

/-! ### fits that are built item by item -/

/-- one more item, and the list that it goes into -/
inductive Addition where
  | module (item : Item)
  | charge (item : Item)
  | drone (item : Item)
  | fighter (item : Item)
  | implant (item : Item)
  | skill (item : Item)

namespace Fit

def add (f : Fit) : Addition → Fit
  | .module item => f.pushModule item
  | .charge item => f.pushCharge item
  | .drone item => f.pushDrone item
  | .fighter item => f.pushFighter item
  | .implant item => f.pushImplant item
  | .skill item => f.pushSkill item

/-- a hull and a pilot, and items that are added one after the other.  An item may have any role. -/
def built (hull pilot : Item) (added : List Addition) : Fit := added.foldl add (bare hull pilot)

/-- modules and drones have handles of their own, after those of hull and pilot -/
structure Distinct (f : Fit) : Prop where
  nodup : (f.modules ++ f.drones).Nodup
  range : ∀ h ∈ f.modules ++ f.drones, 2 ≤ h.index ∧ h.index < f.size

theorem distinct_bare (hull pilot : Item) : (bare hull pilot).Distinct where
  nodup := List.nodup_nil
  range _ h := absurd h List.not_mem_nil

theorem Distinct.next_not_mem {f : Fit} (distinct : f.Distinct) :
    f.next ∉ f.modules ++ f.drones := fun h =>
  Nat.lt_irrefl f.size (distinct.range f.next h).2

theorem Distinct.add {f : Fit} (distinct : f.Distinct) (addition : Addition) :
    (f.add addition).Distinct := by
  have size : (f.add addition).size = f.size + 1 := by
    cases addition <;> exact f.size_push _
  -- the new handle is the next one, if it comes into one of the two lists at all
  have lists : (f.add addition).modules ++ (f.add addition).drones = f.modules ++ f.drones ∨
      ((f.add addition).modules ++ (f.add addition).drones).Perm
        (f.next :: (f.modules ++ f.drones)) := by
    cases addition with
    | module item =>
      refine .inr ?_
      show (f.modules ++ [f.next] ++ f.drones).Perm _
      rw [List.append_assoc, List.singleton_append]
      exact List.perm_middle
    | drone item =>
      refine .inr ?_
      show (f.modules ++ (f.drones ++ [f.next])).Perm _
      rw [← List.append_assoc]
      exact List.perm_append_singleton _ _
    | charge item | fighter item | implant item | skill item => exact .inl rfl
  have two := f.two_le_size
  obtain same | perm := lists
  · refine ⟨same ▸ distinct.nodup, fun h hh => ?_⟩
    have old := distinct.range h (same ▸ hh)
    omega
  · refine ⟨perm.nodup_iff.mpr (List.nodup_cons.mpr ⟨distinct.next_not_mem, distinct.nodup⟩),
      fun h hh => ?_⟩
    obtain rfl | old := List.mem_cons.mp (perm.mem_iff.mp hh)
    · rw [size]
      exact ⟨two, Nat.lt_succ_self f.size⟩
    · have old := distinct.range h old
      omega

theorem distinct_built (hull pilot : Item) (added : List Addition) :
    (built hull pilot added).Distinct :=
  List.foldlRecOn (motive := Distinct) added add (distinct_bare hull pilot)
    fun _ distinct addition _ => distinct.add addition

theorem Distinct.hull_not_mem {f : Fit} (distinct : f.Distinct) :
    hull ∉ f.modules ++ f.drones := fun h =>
  absurd (distinct.range hull h).1 (by decide)

/-! ### mutations -/

/-- the multiplier that the mutations of an item have for one of its attributes -/
def ownMultiplier? (f : Fit) (c : Cell) : Option Float :=
  ((f.get? c.item).bind Item.mutations?).bind (·[c.attr]?)

/-- the multiplier that the rules use for a cell: only those of modules and drones count -/
def multiplier? (f : Fit) (rules : Rules) (c : Cell) : Option Float :=
  if rules.applyMutations ∧ c.item ∈ f.modules ++ f.drones then f.ownMultiplier? c else none

/-- the values with the mutations of one item applied -/
def mutateItem (f : Fit) (values : Values) (h : Handle) : Values :=
  match (f.get? h).bind Item.mutations? with
  | some mutations => values.modify h (mutate mutations)
  | none => values

theorem applyMutations_eq (f : Fit) (values : Values) :
    f.applyMutations values = (f.modules ++ f.drones).foldl f.mutateItem values := rfl

theorem get?_mutateItem (f : Fit) (values : Values) (h : Handle) (c : Cell) :
    (f.mutateItem values h).get? c =
    if h = c.item then (values.get? c).map (scaled (f.ownMultiplier? c)) else values.get? c := by
  unfold mutateItem ownMultiplier?
  by_cases own : h = c.item
  · subst own
    rw [if_pos rfl]
    cases (f.get? c.item).bind Item.mutations? with
    | none => exact (map_scaled_none _).symm
    | some mutations =>
      show (values.modify c.item (mutate mutations))[c.item]?.bind _ =
        Option.map _ (values[c.item]?.bind _)
      rw [Std.ExtTreeMap.getElem?_modify_self]
      cases values[c.item]? with
      | none => rfl
      | some row => exact getElem?_mutate mutations row c.attr
  · rw [if_neg own]
    split
    · exact Values.get?_modify fun same => absurd same own
    · rfl

/-- of handles without repetition each is met once, and so is each of its cells -/
theorem get?_foldl_mutate (f : Fit) (c : Cell) {hs : List Handle} (nodup : hs.Nodup)
    (values : Values) :
    (hs.foldl f.mutateItem values).get? c =
      if c.item ∈ hs then (values.get? c).map (scaled (f.ownMultiplier? c)) else values.get? c := by
  induction hs generalizing values with
  | nil => exact (if_neg List.not_mem_nil).symm
  | cons h hs ih =>
    obtain ⟨own, others⟩ := List.nodup_cons.mp nodup
    rw [List.foldl_cons, ih others, get?_mutateItem]
    by_cases hc : h = c.item
    · subst hc
      rw [if_neg own, if_pos rfl, if_pos List.mem_cons_self]
    · have mem : c.item ∈ h :: hs ↔ c.item ∈ hs := List.mem_cons.trans (or_iff_right (Ne.symm hc))
      simp only [if_neg hc, mem]

section
variable {f : Fit} {rules : Rules} {values : Values}

/-- the values that the second correction reads and changes -/
def mutated (f : Fit) (rules : Rules) (values : Values) : Values :=
  if rules.applyMutations then f.applyMutations values else values

theorem get?_mutated (distinct : f.Distinct) (c : Cell) :
    (f.mutated rules values).get? c = (values.get? c).map (scaled (f.multiplier? rules c)) := by
  unfold mutated multiplier?
  by_cases on : rules.applyMutations = true
  · rw [if_pos on, applyMutations_eq, get?_foldl_mutate f c distinct.nodup]
    by_cases listed : c.item ∈ f.modules ++ f.drones
    · rw [if_pos listed, if_pos ⟨on, listed⟩]
    · rw [if_neg listed, if_neg fun both => listed both.2, map_scaled_none]
  · rw [if_neg on, if_neg fun both => on both.1, map_scaled_none]

theorem mem_mutated {h : Handle} : h ∈ f.mutated rules values ↔ h ∈ values := by
  unfold mutated
  split
  · refine List.foldlRecOn (motive := fun v : Values => h ∈ v ↔ h ∈ values) _ f.mutateItem Iff.rfl
      fun v same k _ => ?_
    unfold mutateItem
    split
    · exact Std.ExtTreeMap.mem_modify.trans same
    · exact same
  · rfl

/-! ### propulsion -/

/-- the item at `h` is a module that is active at least, and it carries an effect of propulsion
modules -/
def Propels (f : Fit) (rules : Rules) (h : Handle) : Prop :=
  ∃ item status, f.get? h = some item ∧ item.moduleStatus? = some status ∧
    (status = .active ∨ status = .overloaded) ∧ ∃ e ∈ item.effects, e ∈ rules.propulsionEffects

/-- the module `m` propels, and no module before it does -/
def FirstPropels (f : Fit) (rules : Rules) (m : Handle) : Prop :=
  ∃ before after, f.modules = before ++ m :: after ∧ f.Propels rules m ∧
    ∀ h ∈ before, ¬ f.Propels rules h

theorem satisfies_active (status : ModuleStatus) :
    status.satisfies .active = true ↔ status = .active ∨ status = .overloaded := by
  cases status <;> decide

/-- the test by which the propulsion module is found -/
def propels (f : Fit) (rules : Rules) (h : Handle) : Bool :=
  match f.get? h with
  | some item => isPropulsion rules item
  | none => false

theorem propulsionModule?_eq : f.propulsionModule? rules = f.modules.find? (f.propels rules) := rfl

theorem propels_iff (h : Handle) : f.propels rules h = true ↔ f.Propels rules h := by
  unfold propels Propels
  cases f.get? h with
  | none => simp
  | some item =>
    unfold isPropulsion
    cases hs : item.moduleStatus? with
    | none => simp [hs]
    | some status => simp [hs, satisfies_active, Rules.isPropulsion]

theorem propulsionModule?_eq_some (m : Handle) :
    f.propulsionModule? rules = some m ↔ f.FirstPropels rules m := by
  unfold FirstPropels
  rw [propulsionModule?_eq, List.find?_eq_some_iff_append]
  simp only [Bool.not_eq_true', ← Bool.not_eq_true, propels_iff]
  constructor
  · rintro ⟨own, before, after, split, earlier⟩
    exact ⟨before, after, split, own, earlier⟩
  · rintro ⟨before, after, split, own, earlier⟩
    exact ⟨own, before, after, split, earlier⟩

theorem propulsionModule?_eq_none :
    f.propulsionModule? rules = none ↔ ∀ h ∈ f.modules, ¬ f.Propels rules h := by
  rw [propulsionModule?_eq, List.find?_eq_none]
  simp only [propels_iff]

end

/-! ### both corrections -/

/-- the cell that the propulsion module acts on -/
def velocity : Cell := ⟨hull, .maxVelocity⟩

/-- the mass of the hull, or the default of its attribute -/
def hullMass (catalog : Catalog) (values : Values) : Float :=
  (values.get? ⟨hull, .mass⟩).getD (catalog.default .mass)

section
variable (f : Fit) (catalog : Catalog) (rules : Rules) (values : Values)

/-- the value of a cell once it is mutated, or the default of its attribute -/
def mutatedValue (c : Cell) : Float :=
  ((values.get? c).map (scaled (f.multiplier? rules c))).getD (catalog.default c.attr)

/-- the factor that the propulsion module `m` has for the velocity of the hull -/
def propulsionFactor (m : Handle) : Float :=
  let boost := f.mutatedValue catalog rules values ⟨m, .speedBoostFactor⟩ *
    f.mutatedValue catalog rules values ⟨m, .speedFactor⟩ / hullMass catalog values
  1.0 + boost / 100.0

/-- what the corrections of a fit make of its values.  No item and no attribute comes or goes; each
cell has its multiplier if the rules have one for it, and only the velocity of the hull has another
factor, from the first propulsion module. -/
structure Corrected (after : Values) : Prop where
  off : ¬ rules.corrections → after = values
  items : ∀ h, h ∈ after ↔ h ∈ values
  cells : ∀ c, (after.get? c).isSome = (values.get? c).isSome
  mutated : rules.corrections → ∀ c, c ≠ velocity →
    after.get? c = (values.get? c).map (scaled (f.multiplier? rules c))
  sped : rules.corrections → ∀ m, f.FirstPropels rules m → ¬ hullMass catalog values == 0.0 →
    after.get? velocity = (values.get? velocity).map (· * f.propulsionFactor catalog rules values m)
  unsped : rules.corrections → (∀ h ∈ f.modules, ¬ f.Propels rules h) ∨
    hullMass catalog values == 0.0 → after.get? velocity = values.get? velocity

end

section
variable {f : Fit} {catalog : Catalog} {rules : Rules} {values : Values}

theorem valueOr_eq (catalog : Catalog) (values : Values) (c : Cell) :
    valueOr catalog values c = (values.get? c).getD (catalog.default c.attr) := by
  unfold valueOr Values.get?
  cases values[c.item]?.bind (·[c.attr]?) <;> rfl

theorem multiplier?_hull (distinct : f.Distinct) (a : AttributeId) :
    f.multiplier? rules ⟨hull, a⟩ = none :=
  if_neg fun both => distinct.hull_not_mem both.2

theorem get?_mutated_hull (distinct : f.Distinct) (a : AttributeId) :
    (f.mutated rules values).get? ⟨hull, a⟩ = values.get? ⟨hull, a⟩ := by
  rw [get?_mutated distinct, multiplier?_hull distinct, map_scaled_none]

theorem valueOr_mutated (distinct : f.Distinct) (c : Cell) :
    valueOr catalog (f.mutated rules values) c = f.mutatedValue catalog rules values c := by
  rw [valueOr_eq, get?_mutated distinct]
  rfl

theorem valueOr_mass (distinct : f.Distinct) :
    valueOr catalog (f.mutated rules values) ⟨hull, .mass⟩ = hullMass catalog values := by
  rw [valueOr_eq, get?_mutated_hull distinct]
  rfl

theorem correct_eq (on : rules.corrections) :
    f.correct catalog rules values = f.applyPropulsion catalog rules (f.mutated rules values) := by
  unfold correct
  rw [if_pos on]
  rfl

theorem mem_applyPropulsion_iff (h : Handle) :
    h ∈ f.applyPropulsion catalog rules values ↔ h ∈ values := by
  unfold applyPropulsion
  split
  · rfl
  · dsimp only
    split
    · rfl
    · exact Std.ExtTreeMap.mem_modify

theorem applyPropulsion_idle
    (idle : f.propulsionModule? rules = none ∨ valueOr catalog values ⟨hull, .mass⟩ == 0.0) :
    f.applyPropulsion catalog rules values = values := by
  unfold applyPropulsion
  split
  · rfl
  next m chosen =>
    obtain none | massless := idle
    · rw [none] at chosen
      cases chosen
    · exact if_pos massless

theorem get?_velocity {m : Handle} (chosen : f.propulsionModule? rules = some m)
    (mass : ¬ valueOr catalog values ⟨hull, .mass⟩ == 0.0) :
    (f.applyPropulsion catalog rules values).get? velocity = (values.get? velocity).map
      (· * (1.0 + boost catalog values m (valueOr catalog values ⟨hull, .mass⟩) / 100.0)) := by
  unfold applyPropulsion
  rw [chosen]
  dsimp only
  rw [if_neg mass]
  show (values.modify hull _)[hull]?.bind _ = Option.map _ (values[hull]?.bind _)
  rw [Std.ExtTreeMap.getElem?_modify_self]
  cases values[hull]? with
  | none => rfl
  | some row => exact Std.ExtTreeMap.getElem?_modify_self

theorem corrected_correct (distinct : f.Distinct) :
    f.Corrected catalog rules values (f.correct catalog rules values) where
  off off := if_neg off
  items h := by
    unfold correct
    split
    · exact (mem_applyPropulsion_iff h).trans mem_mutated
    · rfl
  cells c := by
    rw [← Values.getElem?_row, ← Values.getElem?_row, Bool.eq_iff_iff,
      Std.ExtTreeMap.isSome_getElem?_iff_mem, Std.ExtTreeMap.isSome_getElem?_iff_mem]
    exact f.mem_correct catalog rules values
  mutated on c other := by
    rw [correct_eq on, get?_applyPropulsion fun _ => other, get?_mutated distinct]
  sped on m first mass := by
    have chosen := (propulsionModule?_eq_some m).mpr first
    rw [correct_eq on, get?_velocity chosen (by rwa [valueOr_mass distinct])]
    unfold boost velocity
    rw [valueOr_mass distinct, valueOr_mutated distinct, valueOr_mutated distinct,
      get?_mutated_hull distinct]
    rfl
  unsped on idle := by
    rw [correct_eq on, applyPropulsion_idle, velocity, get?_mutated_hull distinct]
    exact idle.imp propulsionModule?_eq_none.mpr fun massless => by rwa [valueOr_mass distinct]

end

/-! ### further propulsion modules -/

/-- both fits have the first propulsion module `m` and the same modules before it; what comes after
it, and all else, may differ -/
def SharesLead (f f' : Fit) (rules : Rules) (m : Handle) : Prop :=
  ∃ before after after', f.modules = before ++ m :: after ∧ f'.modules = before ++ m :: after' ∧
    (∀ h ∈ m :: before, f'.get? h = f.get? h) ∧ f.Propels rules m ∧
      ∀ h ∈ before, ¬ f.Propels rules h

section
variable {f f' : Fit} {catalog : Catalog} {rules : Rules} {values values' : Values} {m : Handle}

theorem propels_congr {h : Handle} (same : f'.get? h = f.get? h) :
    f'.Propels rules h ↔ f.Propels rules h := by
  unfold Propels
  rw [same]

theorem SharesLead.first (shares : f.SharesLead f' rules m) :
    f.FirstPropels rules m ∧ f'.FirstPropels rules m := by
  obtain ⟨before, after, after', split, split', same, own, earlier⟩ := shares
  obtain ⟨lead, others⟩ := List.forall_mem_cons.mp same
  exact ⟨⟨before, after, split, own, earlier⟩, before, after', split', (propels_congr lead).mpr own,
    fun h hh => (propels_congr (others h hh)).not.mpr (earlier h hh)⟩

theorem SharesLead.multiplier? (shares : f.SharesLead f' rules m) (a : AttributeId) :
    f'.multiplier? rules ⟨m, a⟩ = f.multiplier? rules ⟨m, a⟩ := by
  obtain ⟨before, after, after', split, split', same, -⟩ := shares
  have listed : m ∈ f.modules ++ f.drones := by simp [split]
  have listed' : m ∈ f'.modules ++ f'.drones := by simp [split']
  unfold Fit.multiplier? ownMultiplier?
  simp only [listed, listed', same m List.mem_cons_self]

/-- the velocity of the hull comes from four cells, and from the modules up to the first one that
propels -/
theorem Corrected.velocity_eq {after after' : Values}
    (corrected : f.Corrected catalog rules values after)
    (corrected' : f'.Corrected catalog rules values' after') (shares : f.SharesLead f' rules m)
    (same : ∀ c ∈ [velocity, ⟨hull, .mass⟩, ⟨m, .speedBoostFactor⟩, ⟨m, .speedFactor⟩],
      values'.get? c = values.get? c) : after'.get? velocity = after.get? velocity := by
  simp only [List.forall_mem_cons] at same
  obtain ⟨speed, mass, boost, factor, -⟩ := same
  have masses : hullMass catalog values' = hullMass catalog values := by
    unfold hullMass
    rw [mass]
  have factors : f'.propulsionFactor catalog rules values' m =
      f.propulsionFactor catalog rules values m := by
    unfold propulsionFactor mutatedValue
    rw [masses, boost, factor, shares.multiplier?, shares.multiplier?]
  obtain ⟨first, first'⟩ := shares.first
  by_cases on : rules.corrections = true
  · by_cases massless : hullMass catalog values == 0.0
    · rw [corrected.unsped on (.inr massless), corrected'.unsped on (.inr (masses ▸ massless)),
        speed]
    · rw [corrected.sped on m first massless, corrected'.sped on m first' (masses ▸ massless),
        speed, factors]
  · rw [corrected.off on, corrected'.off on, speed]

end

/-- the whole effect of the corrections, for a fit that is built item by item and any values.  It
does not depend on what comes after the first propulsion module. -/
theorem correct_exact (ship pilot : Item) (added : List Addition) (catalog : Catalog)
    (rules : Rules) (values : Values) :
    (built ship pilot added).Corrected catalog rules values
      ((built ship pilot added).correct catalog rules values) ∧
    ∀ (ship' pilot' : Item) (added' : List Addition) (values' : Values) (m : Handle),
      (built ship pilot added).SharesLead (built ship' pilot' added') rules m →
      (∀ c ∈ [velocity, ⟨hull, .mass⟩, ⟨m, .speedBoostFactor⟩, ⟨m, .speedFactor⟩],
        values'.get? c = values.get? c) →
      ((built ship' pilot' added').correct catalog rules values').get? velocity =
        ((built ship pilot added).correct catalog rules values).get? velocity := by
  have corrected : (built ship pilot added).Corrected catalog rules values _ :=
    corrected_correct (distinct_built ship pilot added)
  refine ⟨corrected, fun ship' pilot' added' values' m shares same => ?_⟩
  exact corrected.velocity_eq (corrected_correct (distinct_built ship' pilot' added')) shares same

/-- a module with mutations that carries an effect of propulsion modules -/
def thruster (status : ModuleStatus) (mutations : Mutations) : Item :=
  { itemOf (.module { rack := .medium, quantity := 1, status, charge := none, mutations }) [] with
    effects := [⟨6730⟩] }

/-- mutations that make the thrust half as strong again -/
def tuned : Mutations := Map.lastRows Prod.fst Prod.snd [(.speedFactor, 1.5)]

/-- a fit with one module that propels, after one that is only online -/
def oneThruster : List Addition := [.module (thruster .online ∅), .module (thruster .active tuned)]

/-- the same with another module that would propel -/
def twoThrusters : List Addition := oneThruster ++ [.module (thruster .overloaded ∅)]

theorem sharesLead_thrusters : (built (itemOf .hull []) (itemOf .pilot []) oneThruster).SharesLead
    (built (itemOf .hull []) (itemOf .pilot []) twoThrusters) {} ⟨3⟩ := by
  have propels : (built (itemOf .hull []) (itemOf .pilot []) oneThruster).Propels {} ⟨3⟩ :=
    ⟨(thruster .active tuned).withId ⟨3⟩, .active, rfl, rfl, .inl rfl, ⟨6730⟩, List.mem_cons_self,
      by decide⟩
  refine ⟨[⟨2⟩], [], [⟨4⟩], rfl, rfl, ?_, propels, ?_⟩
  · simp only [List.forall_mem_cons]
    exact ⟨rfl, rfl, fun _ h => absurd h List.not_mem_nil⟩
  · simp only [List.forall_mem_singleton]
    rintro ⟨item, status, hi, hs, engaged, -⟩
    obtain rfl : (thruster .online ∅).withId ⟨2⟩ = item := Option.some.inj hi
    obtain rfl : ModuleStatus.online = status := Option.some.inj hs
    simp at engaged

/-- the hull has a velocity and a mass, and each module that propels a boost of its own -/
def cruising : Values := Map.lastRows Prod.fst (fun row => Map.lastRows Prod.fst Prod.snd row.2)
  [(hull, [(.maxVelocity, 100.0), (.mass, 1000.0)]),
    (⟨3⟩, [(.speedBoostFactor, 500.0), (.speedFactor, 1.0)]),
    (⟨4⟩, [(.speedBoostFactor, 900.0), (.speedFactor, 1.0)])]

/-- the first thruster is mutated before it counts for the velocity, and another one counts for
nothing -/
theorem correct_exact_thrusters :
    ((built (itemOf .hull []) (itemOf .pilot []) oneThruster).correct .empty {} cruising).get?
      ⟨⟨3⟩, .speedFactor⟩ = some (1.0 * 1.5) ∧
    ((built (itemOf .hull []) (itemOf .pilot []) oneThruster).correct .empty {} cruising).get?
      velocity = some (100.0 * (1.0 + 500.0 * (1.0 * 1.5) / 1000.0 / 100.0)) ∧
    ((built (itemOf .hull []) (itemOf .pilot []) twoThrusters).correct .empty {} cruising).get?
      velocity = some (100.0 * (1.0 + 500.0 * (1.0 * 1.5) / 1000.0 / 100.0)) := by
  have exact := correct_exact (itemOf .hull []) (itemOf .pilot []) oneThruster .empty {} cruising
  have mutated : _ = some (1.0 * 1.5) := exact.1.mutated rfl ⟨⟨3⟩, .speedFactor⟩ (by decide)
  have one : _ = some (100.0 * (1.0 + 500.0 * (1.0 * 1.5) / 1000.0 / 100.0)) :=
    exact.1.sped rfl ⟨3⟩ sharesLead_thrusters.first.1 (by decide)
  have two := exact.2 _ _ twoThrusters cruising ⟨3⟩ sharesLead_thrusters fun _ _ => rfl
  exact ⟨mutated, one, two.trans one⟩

end Fit

end Fitting
