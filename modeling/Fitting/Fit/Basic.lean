import Fitting.Fit.Item

/-!
# Fits

A `Fit` holds all items that take part in a simulation in one row, and a handle is a place in it.
The hull comes first and the pilot second.  Items are only ever added at the end, so a handle stays
valid, and the handle a new item gets is `next`.

* `mem_entries`   the entries of a fit are its handles with their items;
* `get?_push`     a new item takes the next handle and leaves the others as they are;
* `get?_modify`   a change reaches one item;
* `Numbered`      every item has the handle it stands at as its id.  New items get theirs, and a
                  change that keeps ids keeps the fit so.
-/

namespace Fitting

/-- the items of a loadout in their order, and the handles of each kind -/
structure Fit where
  items : Array Item
  modules : List Handle
  drones : List Handle
  fighters : List Handle
  implants : List Handle
  skills : List Handle
  two_le_size : 2 ≤ items.size

namespace Fit

def hull : Handle := ⟨0⟩

def pilot : Handle := ⟨1⟩

/-- a hull and a pilot, nothing fitted -/
def bare (hull pilot : Item) : Fit where
  items := #[hull.withId ⟨0⟩, pilot.withId ⟨1⟩]
  modules := []
  drones := []
  fighters := []
  implants := []
  skills := []
  two_le_size := Nat.le_refl 2

def size (f : Fit) : Nat := f.items.size

def next (f : Fit) : Handle := ⟨f.size⟩

def get? (f : Fit) (h : Handle) : Option Item := f.items[h.index]?

def hullItem (f : Fit) : Item :=
  have := f.two_le_size
  f.items[0]

def pilotItem (f : Fit) : Item :=
  have := f.two_le_size
  f.items[1]

def handles (f : Fit) : List Handle := (List.range f.size).map Handle.mk

def entries (f : Fit) : List (Handle × Item) :=
  f.items.toList.zipIdx.map (fun (item, i) => (⟨i⟩, item))

theorem mem_entries {f : Fit} {h : Handle} {item : Item} :
    (h, item) ∈ f.entries ↔ f.get? h = some item := by
  obtain ⟨i⟩ := h
  simp only [entries, get?, List.mem_map, Prod.exists, Prod.mk.injEq, Handle.mk.injEq,
    List.mem_zipIdx_iff_getElem?, Array.getElem?_toList]
  constructor
  · rintro ⟨a, j, hj, rfl, rfl⟩
    exact hj
  · intro hi
    exact ⟨item, i, hi, rfl, rfl⟩

/-- the base value of an attribute an item declares -/
def base? (f : Fit) (c : Cell) : Option Float := (f.get? c.item).bind (·.base? c.attr)

/-! ### adding items -/

/-- one more item, under the next handle and in no list of its kind -/
def push (f : Fit) (item : Item) : Fit :=
  { f with
    items := f.items.push (item.withId f.next)
    two_le_size := by have := f.two_le_size; simp; omega }

@[simp] theorem size_push (f : Fit) (item : Item) : (f.push item).size = f.size + 1 :=
  Array.size_push _

theorem get?_push (f : Fit) (item : Item) (h : Handle) :
    (f.push item).get? h = if h = f.next then some (item.withId f.next) else f.get? h := by
  obtain ⟨i⟩ := h
  simp only [get?, push, next, size, Array.getElem?_push, Handle.mk.injEq]

def pushModule (f : Fit) (item : Item) : Fit :=
  { f.push item with modules := f.modules ++ [f.next] }

/-- a charge is found through its module only -/
def pushCharge (f : Fit) (item : Item) : Fit := f.push item

def pushDrone (f : Fit) (item : Item) : Fit :=
  { f.push item with drones := f.drones ++ [f.next] }

def pushFighter (f : Fit) (item : Item) : Fit :=
  { f.push item with fighters := f.fighters ++ [f.next] }

def pushImplant (f : Fit) (item : Item) : Fit :=
  { f.push item with implants := f.implants ++ [f.next] }

def pushSkill (f : Fit) (item : Item) : Fit :=
  { f.push item with skills := f.skills ++ [f.next] }

/-! ### changing items -/

/-- `change` applied to one item; nothing happens for a handle outside the fit -/
def modify (f : Fit) (h : Handle) (change : Item → Item) : Fit :=
  { f with
    items := f.items.modify h.index change
    two_le_size := by simpa using f.two_le_size }

@[simp] theorem size_modify (f : Fit) (h : Handle) (change : Item → Item) :
    (f.modify h change).size = f.size :=
  Array.size_modify

theorem get?_modify (f : Fit) (h k : Handle) (change : Item → Item) :
    (f.modify h change).get? k = if h = k then (f.get? k).map change else f.get? k := by
  obtain ⟨i⟩ := h
  obtain ⟨j⟩ := k
  simp only [get?, modify, Array.getElem?_modify, Handle.mk.injEq]

/-- another charge, or none, in a module; nothing happens for any other item -/
def setCharge (f : Fit) (module : Handle) (charge : Option Handle) : Fit :=
  f.modify module fun item =>
    match item.role with
    | .module state => { item with role := .module { state with charge } }
    | _ => item

/-- one more edge on an attribute, which is declared with base zero if it was not -/
def attachEdge (f : Fit) (target : Cell) (e : Edge) : Fit :=
  f.modify target.item fun item =>
    let state := item.attributes[target.attr]?.getD { base := 0.0 }
    { item with
      attributes := item.attributes.insert target.attr { state with edges := state.edges ++ [e] } }

/-! ### ids -/

/-- every item has the handle it stands at as its id -/
def Numbered (f : Fit) : Prop := ∀ h item, f.get? h = some item → item.id = h

theorem numbered_bare (hull pilot : Item) : (bare hull pilot).Numbered := by
  rintro ⟨i⟩ item found
  have two : #[hull.withId ⟨0⟩, pilot.withId ⟨1⟩][i]? = some item := found
  match i with
  | 0 => exact (Option.some.inj two) ▸ rfl
  | 1 => exact (Option.some.inj two) ▸ rfl
  | i + 2 => simp at two

theorem Numbered.push {f : Fit} (hf : f.Numbered) (item : Item) : (f.push item).Numbered := by
  intro h other found
  rw [get?_push] at found
  split at found
  next last => exact (Option.some.inj found) ▸ last.symm
  next => exact hf h other found

theorem Numbered.modify {f : Fit} (hf : f.Numbered) (h : Handle) {change : Item → Item}
    (keeps : ∀ item, (change item).id = item.id) : (f.modify h change).Numbered := by
  intro k other found
  rw [get?_modify] at found
  split at found
  · obtain ⟨item, hi, rfl⟩ := Option.map_eq_some_iff.mp found
    exact (keeps item).trans (hf k item hi)
  · exact hf k other found

end Fit

end Fitting
