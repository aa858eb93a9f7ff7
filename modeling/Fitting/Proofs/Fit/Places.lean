import Fitting.Proofs.Fit.Collected
import Fitting.Proofs.Fit.Targets

/-!
# The places of a loadout

A loadout alone says which types stand in its fit, in which roles and in which order.  The sources
have a say in what the items of these types are like, and in nothing else.

* `Loadout.places`         hull, pilot, each module with its charge right after it, drones,
                           fighters, implants, and the skills by ascending type;
* `TypeSheets.placed`      the item that stands in a place;
* `entries_fit_places`     an assembled fit holds the items of these places in their order;
* `TypeSheets.fit_induction`   what all steps of the assembly leave true, holds of the fit;
* `Fit.LaidOut`            ids, the places, the lists of the kinds, and modules with their charges;
* `laidOut_assemble`       an assembled fit is laid out as its loadout says;
* `LaidOut.of_assemble`    whatever sources it was assembled from;
* `LaidOut.attachAll`      and attaching modifiers leaves it so.
-/

namespace Fitting

/-- what an item is, without the state that such items have -/
inductive Kind where
  | hull | pilot | module | charge | drone | fighter | implant | skill
deriving DecidableEq, Repr

def Role.kind : Role → Kind
  | .hull => .hull
  | .pilot => .pilot
  | .module _ => .module
  | .charge _ _ => .charge
  | .drone _ => .drone
  | .fighter _ _ => .fighter
  | .implant => .implant
  | .skill _ => .skill

def Item.kind (i : Item) : Kind := i.role.kind

@[simp] theorem Item.kind_withId (i : Item) (h : Handle) : (i.withId h).kind = i.kind := rfl

/-- what a loadout says of an item -/
structure Place where
  type : TypeId
  role : Role

def Place.kind (p : Place) : Kind := p.role.kind

def Item.place (i : Item) : Place := ⟨i.type, i.role⟩

/-! ### the places of a loadout -/

/-- a module that takes the handle `n`, and its charge, which takes the next one -/
def ModuleSpec.places (m : ModuleSpec) (n : Nat) : List Place :=
  ⟨m.type, .module
    { rack := m.rack
      quantity := m.quantity
      status := m.status
      charge := m.charge.map (fun _ => ⟨n + 1⟩)
      mutations := m.mutations }⟩ ::
  (m.charge.map fun load => (⟨load.type, .charge ⟨n⟩ load.quantity⟩ : Place)).toList

/-- modules from the handle `n` on, each with its charge -/
def modulePlaces : Nat → List ModuleSpec → List Place
  | _, [] => []
  | n, m :: ms => m.places n ++ modulePlaces (n + (m.places n).length) ms

def DroneSpec.place (d : DroneSpec) : Place :=
  ⟨d.type, .drone { quantity := d.quantity, status := d.status, mutations := d.mutations }⟩

def FighterSpec.place (f : FighterSpec) : Place := ⟨f.type, .fighter f.quantity f.status⟩

def implantPlace (type : TypeId) : Place := ⟨type, .implant⟩

def skillPlace (trained : TypeId × UInt8) : Place := ⟨trained.1, .skill trained.2⟩

/-- the places of a loadout in the order of its fit -/
def Loadout.places (l : Loadout) (rules : Rules) : List Place :=
  [⟨l.hull, .hull⟩, ⟨rules.pilotType, .pilot⟩]
    ++ modulePlaces 2 l.modules
    ++ l.drones.map DroneSpec.place
    ++ l.fighters.map FighterSpec.place
    ++ l.implants.map implantPlace
    ++ l.pilot.skills.toList.map skillPlace

theorem map_type_modulePlaces (ms : List ModuleSpec) : ∀ n, (modulePlaces n ms).map Place.type =
    ms.flatMap (fun m => m.type :: (m.charge.map ChargeSpec.type).toList) := by
  induction ms with
  | nil => exact fun _ => rfl
  | cons m ms ih =>
    intro n
    have first : (m.places n).map Place.type = m.type :: (m.charge.map ChargeSpec.type).toList := by
      unfold ModuleSpec.places
      cases m.charge <;> rfl
    unfold modulePlaces
    rw [List.map_append, first, ih, List.flatMap_cons]

/-- the types that stand in a fit are those that are asked for -/
theorem Loadout.map_type_places (l : Loadout) (rules : Rules) :
    (l.places rules).map Place.type = l.types rules := by
  unfold places types
  rw [← Std.ExtTreeMap.map_fst_toList_eq_keys]
  simp only [List.map_append, map_type_modulePlaces, List.map_map]
  have implants : l.implants.map (Place.type ∘ implantPlace) = l.implants := List.map_id _
  rw [implants]
  rfl

theorem Loadout.mem_participants {l : Loadout} {rules : Rules} {t : TypeId} :
    t ∈ l.participants rules ↔ ∃ p ∈ l.places rules, p.type = t := by
  unfold participants
  rw [Std.ExtTreeSet.mem_ofList, List.contains_iff_mem, ← map_type_places, List.mem_map]

/-! ### the items of the places -/

namespace Fit

/-- items that are put into a fit one after the other, with the handles they get -/
def itemsFrom (n : Nat) (items : List Item) : List (Handle × Item) :=
  (items.zipIdx n).map (fun (item, i) => (⟨i⟩, item.withId ⟨i⟩))

theorem itemsFrom_append (n : Nat) (items more : List Item) :
    itemsFrom n (items ++ more) = itemsFrom n items ++ itemsFrom (n + items.length) more := by
  unfold itemsFrom
  rw [List.zipIdx_append, List.map_append]

theorem mem_itemsFrom {n : Nat} {items : List Item} {h : Handle} {item : Item}
    (hm : (h, item) ∈ itemsFrom n items) :
    n ≤ h.index ∧ ∃ item' ∈ items, item'.withId h = item := by
  obtain ⟨⟨item', i⟩, hz, he⟩ := List.mem_map.mp hm
  cases he
  exact ⟨List.le_snd_of_mem_zipIdx hz, item', List.fst_mem_of_mem_zipIdx hz, rfl⟩

theorem map_snd_itemsFrom {β : Type} {look : Item → β}
    (blind : ∀ item h, look (item.withId h) = look item) (n : Nat) (items : List Item) :
    (itemsFrom n items).map (fun entry => look entry.2) = items.map look := by
  unfold itemsFrom
  rw [List.map_map, ← congrArg (List.map look) (List.zipIdx_map_fst n items), List.map_map]
  exact List.map_congr_left fun (item, i) _ => blind item ⟨i⟩

theorem itemsFrom_map {change : Item → Item}
    (keeps : ∀ (item : Item) (h : Handle), change (item.withId h) = (change item).withId h)
    (n : Nat) (items : List Item) :
    itemsFrom n (items.map change) = (itemsFrom n items).map (Prod.map id change) := by
  unfold itemsFrom
  rw [List.zipIdx_map, List.map_map, List.map_map]
  exact List.map_congr_left fun (item, i) _ => congrArg (Prod.mk _) (keeps item ⟨i⟩).symm

/-- the entries of a fit say what stands where -/
theorem get?_congr {f g : Fit} (same : f.entries = g.entries) (h : Handle) :
    f.get? h = g.get? h := by
  refine Option.ext fun item => ?_
  rw [← mem_entries, ← mem_entries, same]

theorem entries_push (f : Fit) (item : Item) :
    (f.push item).entries = f.entries ++ itemsFrom f.size [item] := by
  have items : (f.push item).items.toList = f.items.toList ++ [item.withId f.next] :=
    Array.toList_push
  unfold entries
  rw [items, List.zipIdx_append, List.map_append, Nat.zero_add]
  rfl

theorem length_entries (f : Fit) : f.entries.length = f.size := by
  rw [← List.length_map (f := Prod.fst), f.map_fst_entries, handles, List.length_map,
    List.length_range]

/-- `g` is `f` with more items at its end -/
def Grown (f g : Fit) (items : List Item) : Prop :=
  g.entries = f.entries ++ itemsFrom f.size items

theorem grown_nil (f : Fit) : f.Grown f [] := (List.append_nil _).symm

theorem grown_push (f : Fit) (item : Item) : f.Grown (f.push item) [item] := f.entries_push item

theorem Grown.size {f g : Fit} {items : List Item} (hg : f.Grown g items) :
    g.size = f.size + items.length := by
  rw [← length_entries, hg, List.length_append, length_entries, itemsFrom, List.length_map,
    List.length_zipIdx]

theorem Grown.trans {f g k : Fit} {items more : List Item} (hg : f.Grown g items)
    (hk : g.Grown k more) : f.Grown k (items ++ more) := by
  have appended : k.entries = g.entries ++ itemsFrom g.size more := hk
  unfold Grown
  rw [appended, hg, hg.size, List.append_assoc, itemsFrom_append]

/-- what stands in `f` stands in `g` -/
theorem Grown.get? {f g : Fit} {items : List Item} (hg : f.Grown g items) {h : Handle}
    (before : h.index < f.size) : g.get? h = f.get? h := by
  have later : ∀ item, (h, item) ∉ itemsFrom f.size items := fun item hm =>
    Nat.not_le.mpr before (mem_itemsFrom hm).1
  refine Option.ext fun item => ?_
  rw [← mem_entries, ← mem_entries, hg, List.mem_append, or_iff_left (later item)]

theorem grown_foldl {ι : Type} (add : Fit → ι → Fit) (item : ι → Item)
    (hadd : ∀ (f : Fit) (i : ι), f.Grown (add f i) [item i]) (l : List ι) :
    ∀ f : Fit, f.Grown (l.foldl add f) (l.map item) := by
  induction l with
  | nil => exact grown_nil
  | cons i l ih => exact fun f => (hadd f i).trans (ih (add f i))

/-- the places of the items -/
def places (f : Fit) : List Place := f.items.toList.map Item.place

theorem length_places (f : Fit) : f.places.length = f.size := List.length_map _

theorem getElem?_places (f : Fit) (i : Nat) : f.places[i]? = (f.get? ⟨i⟩).map Item.place := by
  unfold places get?
  rw [List.getElem?_map, Array.getElem?_toList]

end Fit

namespace TypeSheets
variable (s : TypeSheets)

def skillItem (trained : TypeId × UInt8) : Item :=
  { s.item trained.1 (.skill trained.2) with
    attributes := (s.item trained.1 (.skill trained.2)).attributes.insert AttributeId.skillLevel
      { base := Float.ofNat trained.2.toNat } }

/-- the item that stands in a place.  The values of the loadout go to the pilot. -/
def placed (bases : Map AttributeId Float) (p : Place) : Item :=
  match p.role with
  | .pilot => (s.item p.type .pilot).withBases bases
  | .skill level => s.skillItem (p.type, level)
  | role => s.item p.type role

theorem place_placed (bases : Map AttributeId Float) (p : Place) :
    (s.placed bases p).place = p := by
  obtain ⟨type, role⟩ := p
  cases role <;> rfl

variable (l : Loadout) (rules : Rules)

theorem grown_addModule (bases : Map AttributeId Float) (f : Fit) (m : ModuleSpec) :
    f.Grown (s.addModule f m) ((m.places f.size).map (s.placed bases)) := by
  rw [s.addModule_eq]
  unfold ModuleSpec.places
  dsimp only
  cases m.charge with
  | none => exact f.grown_push _
  | some load => exact (f.grown_push _).trans (Fit.grown_push _ _)

theorem grown_foldl_addModule (bases : Map AttributeId Float) (ms : List ModuleSpec) :
    ∀ f : Fit, f.Grown (ms.foldl s.addModule f)
      ((modulePlaces f.size ms).map (s.placed bases)) := by
  induction ms with
  | nil => exact Fit.grown_nil
  | cons m ms ih =>
    intro f
    have first := s.grown_addModule bases f m
    have rest := ih (s.addModule f m)
    rw [first.size, List.length_map] at rest
    rw [modulePlaces, List.map_append]
    exact first.trans rest

/-- a fit holds the items of the places of its loadout in their order -/
theorem entries_fit_places :
    (s.fit l rules).entries = Fit.itemsFrom 0
      ((l.places rules).map (s.placed l.pilot.attributes)) := by
  let placed := s.placed l.pilot.attributes
  let f := Fit.bare (s.item l.hull .hull) (s.pilot l rules)
  have modules := s.grown_foldl_addModule l.pilot.attributes l.modules f
  have drones := Fit.grown_foldl s.addDrone (placed ∘ DroneSpec.place)
    (fun f _ => f.grown_push _) l.drones
  have fighters := Fit.grown_foldl s.addFighter (placed ∘ FighterSpec.place)
    (fun f _ => f.grown_push _) l.fighters
  have implants := Fit.grown_foldl s.addImplant (placed ∘ implantPlace)
    (fun f _ => f.grown_push _) l.implants
  have skills := Fit.grown_foldl s.addSkill (placed ∘ skillPlace)
    (fun f _ => f.grown_push _) l.pilot.skills.toList
  have rest := (((modules.trans (drones _)).trans (fighters _)).trans (implants _)).trans (skills _)
  have entries : (s.fit l rules).entries = f.entries ++ Fit.itemsFrom f.size _ := rest
  have joined := Fit.itemsFrom_append 0 [s.item l.hull .hull, s.pilot l rules]
  refine entries.trans ((joined _).symm.trans ?_)
  unfold Loadout.places
  simp only [List.map_append, List.map_map, List.append_assoc]
  rfl

theorem places_fit : (s.fit l rules).places = l.places rules := by
  have kept : ∀ (item : Item) (h : Handle), (item.withId h).place = item.place := fun _ _ => rfl
  unfold Fit.places
  rw [← Fit.map_snd_entries, s.entries_fit_places, List.map_map]
  refine (Fit.map_snd_itemsFrom kept 0 _).trans ?_
  rw [List.map_map]
  exact List.map_id'' (s.place_placed _) _

/-- what all steps of the assembly leave true, holds of the fit -/
theorem fit_induction {I : Fit → Prop} (bare : ∀ hull pilot : Item, hull.role = .hull →
      pilot.role = .pilot → I (Fit.bare hull pilot))
    (modules : ∀ f m, I f → I (s.addModule f m)) (drones : ∀ f d, I f → I (s.addDrone f d))
    (fighters : ∀ f q, I f → I (s.addFighter f q)) (implants : ∀ f t, I f → I (s.addImplant f t))
    (skills : ∀ f t, I f → I (s.addSkill f t)) : I (s.fit l rules) := by
  have h := bare (s.item l.hull .hull) (s.pilot l rules) rfl rfl
  have h := List.foldlRecOn l.modules s.addModule h fun f hf m _ => modules f m hf
  have h := List.foldlRecOn l.drones s.addDrone h fun f hf d _ => drones f d hf
  have h := List.foldlRecOn l.fighters s.addFighter h fun f hf q _ => fighters f q hf
  have h := List.foldlRecOn l.implants s.addImplant h fun f hf t _ => implants f t hf
  exact List.foldlRecOn l.pilot.skills.toList s.addSkill h fun f hf t _ => skills f t hf

end TypeSheets

/-! ### the lists of the kinds -/

/-- the handles of one kind among places that begin at the handle `n` -/
def handlesOf (k : Kind) (n : Nat) (ps : List Place) : List Handle :=
  ((ps.zipIdx n).filter (fun (p, _) => p.kind = k)).map (fun (_, i) => ⟨i⟩)

theorem handlesOf_append (k : Kind) (n : Nat) (ps qs : List Place) :
    handlesOf k n (ps ++ qs) = handlesOf k n ps ++ handlesOf k (n + ps.length) qs := by
  unfold handlesOf
  rw [List.zipIdx_append, List.filter_append, List.map_append]

theorem handlesOf_map_kind {g : Place → Place} (same : ∀ p, (g p).kind = p.kind) (k : Kind)
    (n : Nat) (ps : List Place) : handlesOf k n (ps.map g) = handlesOf k n ps := by
  have kept : (fun q : Place × Nat => decide (q.1.kind = k)) ∘ Prod.map g id =
      fun q => decide (q.1.kind = k) := by
    funext q
    exact congrArg (fun kind => decide (kind = k)) (same q.1)
  unfold handlesOf
  rw [List.zipIdx_map, List.filter_map, List.map_map, kept]
  rfl

namespace Fit

/-- the handles that a fit lists for each kind.  There is no list of the charges. -/
def listed (f : Fit) : Kind → List Handle
  | .hull => [hull]
  | .pilot => [pilot]
  | .module => f.modules
  | .charge => f.handlesWhere (fun i => i.kind = .charge)
  | .drone => f.drones
  | .fighter => f.fighters
  | .implant => f.implants
  | .skill => f.skills

/-- each list holds the items of its kind in the order of the fit -/
def Sorted (f : Fit) : Prop := ∀ k, f.listed k = f.handlesWhere (fun i => i.kind = k)

theorem handlesWhere_push (f : Fit) (item : Item) (p : Item → Bool) :
    (f.push item).handlesWhere p =
      f.handlesWhere p ++ if p (item.withId f.next) then [f.next] else [] := by
  have last : itemsFrom f.size [item] = [(f.next, item.withId f.next)] := rfl
  unfold handlesWhere
  rw [entries_push, last, List.filter_append, List.map_append]
  cases h : p (item.withId f.next) <;> simp [h]

theorem handlesWhere_kind (f : Fit) (k : Kind) :
    f.handlesWhere (fun i => i.kind = k) = handlesOf k 0 f.places := by
  unfold handlesWhere handlesOf places entries
  rw [List.zipIdx_map, List.filter_map, List.filter_map, List.map_map, List.map_map]
  rfl

theorem sorted_bare {hull pilot : Item} (hh : hull.role = .hull) (hp : pilot.role = .pilot) :
    (bare hull pilot).Sorted := by
  have kinds : hull.kind = .hull ∧ pilot.kind = .pilot := by
    unfold Item.kind
    rw [hh, hp]
    exact ⟨rfl, rfl⟩
  rintro (_ | _ | _ | _ | _ | _ | _ | _) <;>
    simp [listed, handlesWhere, entries, bare, kinds, Fit.hull, Fit.pilot]

/-- a new item goes to the end of the list of its kind -/
theorem Sorted.push {f g : Fit} {item : Item} (hf : f.Sorted)
    (items : g.entries = (f.push item).entries)
    (lists : ∀ k, k ≠ .charge → g.listed k = f.listed k ++ if item.kind = k then [f.next] else []) :
    g.Sorted := by
  have same : ∀ p, g.handlesWhere p = (f.push item).handlesWhere p := by
    intro p
    unfold handlesWhere
    rw [items]
  intro k
  by_cases hk : k = .charge
  · subst hk
    rfl
  · rw [lists k hk, hf k, same, handlesWhere_push, Item.kind_withId]
    by_cases kind : item.kind = k <;> simp [kind]

/-! ### modules and their charges -/

/-- a module names a charge that names it, and the other way round -/
def Paired (f : Fit) : Prop :=
  ∀ m c, (f.get? m).bind Item.charge? = some c ↔ (f.get? c).bind Item.owner? = some m

theorem paired_bare {hull pilot : Item} (hh : hull.role = .hull) (hp : pilot.role = .pilot) :
    (bare hull pilot).Paired := by
  have single : ∀ i : Item, i.role = .hull ∨ i.role = .pilot →
      i.charge? = none ∧ i.owner? = none := by
    rintro i (h | h) <;> simp [Item.charge?, Item.owner?, h]
  have alone : (bare hull pilot).Every fun i => i.charge? = none ∧ i.owner? = none :=
    every_bare (single (hull.withId ⟨0⟩) (.inl hh)) (single (pilot.withId ⟨1⟩) (.inr hp))
  intro m c
  have named : ∀ h k, ((bare hull pilot).get? h).bind Item.charge? ≠ some k ∧
      ((bare hull pilot).get? h).bind Item.owner? ≠ some k := by
    intro h k
    cases hi : (bare hull pilot).get? h with
    | none => simp
    | some i => simp [alone h i hi]
  exact iff_of_false (named m c).1 (named c m).2

theorem get?_next (f : Fit) : f.get? f.next = none :=
  Array.getElem?_eq_none (Nat.le_refl _)

/-- nothing in the fit names a handle that is not taken -/
theorem Paired.unnamed {f : Fit} (hf : f.Paired) {n : Handle} (absent : f.get? n = none)
    (h : Handle) :
    (f.get? h).bind Item.charge? ≠ some n ∧ (f.get? h).bind Item.owner? ≠ some n := by
  refine ⟨fun hn => ?_, fun hn => ?_⟩
  · have back := (hf h n).mp hn
    simp [absent] at back
  · have back := (hf n h).mpr hn
    simp [absent] at back

theorem Paired.push {f : Fit} {item : Item} (hf : f.Paired) (hc : item.charge? = none)
    (ho : item.owner? = none) : (f.push item).Paired := by
  have unnamed := hf.unnamed f.get?_next
  intro m c
  rw [get?_push, get?_push]
  by_cases hm : m = f.next <;> by_cases hc' : c = f.next
  · simp [hm, hc', hc, ho]
  · simp [hm, hc', hc, (unnamed c).2]
  · simp [hm, hc', ho, (unnamed m).1]
  · simp [hm, hc', hf m c]

theorem Paired.push_pair {f : Fit} {module charge : Item} (hf : f.Paired)
    (hm : module.charge? = some ⟨f.size + 1⟩) (hm' : module.owner? = none)
    (hc : charge.charge? = none) (hc' : charge.owner? = some f.next) :
    ((f.push module).push charge).Paired := by
  have after : (f.push module).next = ⟨f.size + 1⟩ := congrArg Handle.mk (f.size_push module)
  have distinct : (⟨f.size + 1⟩ : Handle) ≠ f.next := by simp [next]
  have unnamed := hf.unnamed f.get?_next
  have unnamed' := hf.unnamed (n := ⟨f.size + 1⟩) (Array.getElem?_eq_none (Nat.le_succ _))
  intro m c
  rw [get?_push, get?_push, get?_push, get?_push, after]
  by_cases h₁ : m = ⟨f.size + 1⟩
  · subst h₁
    by_cases h₂ : c = ⟨f.size + 1⟩
    · simp [h₂, hc, hc', distinct.symm]
    · by_cases h₃ : c = f.next
      · simp [h₃, hc, hm', distinct.symm]
      · simp [h₂, h₃, hc, (unnamed' c).2]
  · by_cases h₂ : m = f.next
    · subst h₂
      by_cases h₃ : c = ⟨f.size + 1⟩
      · simp [h₁, h₃, hm, hc']
      · by_cases h₄ : c = f.next
        · simp [h₁, h₄, hm, hm', distinct]
        · simp [h₁, h₃, h₄, hm, Ne.symm h₃, (unnamed c).2]
    · by_cases h₃ : c = ⟨f.size + 1⟩
      · simp [h₁, h₂, h₃, hc', Ne.symm h₂, (unnamed' m).1]
      · by_cases h₄ : c = f.next
        · simp [h₁, h₂, h₄, hm', (unnamed m).1, distinct.symm]
        · simp [h₁, h₂, h₃, h₄, hf m c]

/-! ### how a fit is laid out -/

/-- the fit holds the places of the loadout in their order, each item under its handle as its id,
lists the handles of each kind, and has modules and charges that name each other -/
structure LaidOut (l : Loadout) (rules : Rules) (f : Fit) : Prop where
  numbered : f.Numbered
  places : f.places = l.places rules
  sorted : f.Sorted
  paired : f.Paired

end Fit

namespace TypeSheets
variable (s : TypeSheets) (l : Loadout) (rules : Rules)

theorem sorted_fit : (s.fit l rules).Sorted := by
  refine s.fit_induction l rules (fun _ _ => Fit.sorted_bare) (fun f m hf => ?_) (fun f d hf => ?_)
    (fun f q hf => ?_) (fun f t hf => ?_) (fun f t hf => ?_)
  · have fitted : ∀ state, (f.pushModule (s.item m.type (.module state))).Sorted := by
      intro state
      refine hf.push rfl fun k hk => ?_
      cases k <;> simp [Fit.listed, Fit.pushModule, Fit.push, item, Item.kind, Role.kind] at hk ⊢
    rw [s.addModule_eq]
    dsimp only
    cases m.charge with
    | none => exact fitted _
    | some load =>
      refine (fitted _).push rfl fun k hk => ?_
      cases k <;> simp [Fit.listed, Fit.pushCharge, Fit.push, item, Item.kind, Role.kind] at hk ⊢
  all_goals
    refine hf.push rfl fun k hk => ?_
    cases k <;> simp [Fit.listed, addDrone, addFighter, addImplant, addSkill, Fit.pushDrone,
      Fit.pushFighter, Fit.pushImplant, Fit.pushSkill, Fit.push, item, Item.kind, Role.kind] at hk ⊢

theorem paired_fit : (s.fit l rules).Paired := by
  refine s.fit_induction l rules (fun _ _ => Fit.paired_bare) (fun f m hf => ?_)
    (fun f d hf => hf.push rfl rfl) (fun f q hf => hf.push rfl rfl) (fun f t hf => hf.push rfl rfl)
    (fun f t hf => hf.push rfl rfl)
  rw [s.addModule_eq]
  dsimp only
  cases m.charge with
  | none => exact hf.push rfl rfl
  | some load => exact hf.push_pair rfl rfl rfl rfl

theorem numbered_fit : (s.fit l rules).Numbered := by
  refine s.fit_induction l rules (fun hull pilot _ _ => Fit.numbered_bare hull pilot)
    (fun f m hf => ?_) (fun f d hf => hf.push _) (fun f q hf => hf.push _)
    (fun f t hf => hf.push _) (fun f t hf => hf.push _)
  -- the charge is written into the module after both have their ids
  unfold addModule
  dsimp only
  cases m.charge with
  | none => exact hf.push _
  | some load =>
    refine Fit.Numbered.modify ((hf.push _).push _) f.next fun item => ?_
    split <;> rfl

theorem laidOut_fit : (s.fit l rules).LaidOut l rules :=
  ⟨s.numbered_fit l rules, s.places_fit l rules, s.sorted_fit l rules, s.paired_fit l rules⟩

end TypeSheets

namespace Fit.LaidOut
variable {l : Loadout} {rules : Rules} {f g : Fit}

theorem congr
    (hf : f.LaidOut l rules) (shells : ∀ h, (g.get? h).map Item.shell = (f.get? h).map Item.shell)
    (lists : g.modules = f.modules ∧ g.drones = f.drones ∧ g.fighters = f.fighters ∧
      g.implants = f.implants ∧ g.skills = f.skills) : g.LaidOut l rules := by
  have place : ∀ item : Item, item.shell.place = item.place := fun _ => rfl
  have charge : ∀ item : Item, item.shell.charge? = item.charge? := fun _ => rfl
  have owner : ∀ item : Item, item.shell.owner? = item.owner? := fun _ => rfl
  have places : g.places = f.places := by
    refine List.ext_getElem? fun i => ?_
    rw [getElem?_places, getElem?_places, ← Item.map_shell place, shells, Item.map_shell place]
  refine ⟨hf.numbered.of_shells shells, places.trans hf.places, fun k => ?_, fun m c => ?_⟩
  · have sorted := hf.sorted k
    rw [handlesWhere_kind] at sorted ⊢
    rw [places, ← sorted]
    obtain ⟨modules, drones, fighters, implants, skills⟩ := lists
    cases k <;> simp only [listed, handlesWhere_kind, places, modules, drones, fighters, implants,
      skills]
  · have paired := hf.paired m c
    rwa [← Item.bind_shell charge, ← Item.bind_shell owner, shells, shells, Item.bind_shell charge,
      Item.bind_shell owner]

theorem attachAll (hf : f.LaidOut l rules) (catalog : Catalog) (atts : List Attachment) :
    (attachAll catalog f atts).1.LaidOut l rules :=
  attachAll_preserves (fun f att h => h.congr (shell_attachOne att) (lists_attachOne catalog f att))
    atts f hf

end Fit.LaidOut

theorem Snapshot.numbered_assembly (s : Snapshot) (l : Loadout) (rules : Rules) :
    (s.assembly l rules).fit.Numbered :=
  TypeSheets.numbered_fit _ l rules

/-- with a source for types and one for effects there is a fit, and it is laid out as the loadout
says -/
theorem laidOut_assemble (types : ItemTypeSource) (effects : EffectSource)
    (attributes : Option AttributeSource) (dbuffs : Option DbuffSource) (l : Loadout)
    (rules : Rules) :
    ∃ a,
      assemble { types := some types, effects := some effects, attributes, dbuffs } l rules =
        .ok a ∧
      a.fit.LaidOut l rules :=
  ⟨_, rfl, TypeSheets.laidOut_fit _ l rules⟩

/-- there is no other way to come by an assembled fit -/
theorem Fit.LaidOut.of_assemble {s : Sources} {l : Loadout} {rules : Rules} {a : Assembly}
    (h : assemble s l rules = .ok a) : a.fit.LaidOut l rules := by
  obtain ⟨types, effects, attributes, dbuffs⟩ := s
  cases types with
  | none => cases h
  | some types =>
    cases effects with
    | none => cases h
    | some effects =>
      obtain rfl := Except.ok.inj h
      exact TypeSheets.laidOut_fit _ l rules

end Fitting
