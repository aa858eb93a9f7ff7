import Fitting.Proofs.Resolution.Queries

/-!
# The same fit with other edges

`Fit.mapEdges` changes what acts on the declared cells and nothing else.

* `edges_mapEdges`      what acts on a cell then;
* `mem_declared_mapEdges`   the same cells are declared;
* `isActive_mapEdges`   which edges are active does not change, nor do the base values;
* `resolveRest_congr`   if all calls agree on two such fits, so does resolving everything.
-/

namespace Fitting

/-- the item with other edges on its attributes -/
def Item.mapEdges (i : Item) (change : AttributeId → List Edge → List Edge) : Item :=
  { i with
    attributes := i.attributes.map (fun a state => { state with edges := change a state.edges }) }

namespace Item
variable (i : Item) (change : AttributeId → List Edge → List Edge)

theorem getElem?_mapEdges (a : AttributeId) : (i.mapEdges change).attributes[a]? =
    i.attributes[a]?.map (fun state => { state with edges := change a state.edges }) :=
  Std.ExtTreeMap.getElem?_map

theorem keys_mapEdges : (i.mapEdges change).attributes.keys = i.attributes.keys :=
  Std.ExtTreeMap.keys_map

theorem base?_mapEdges (a : AttributeId) : (i.mapEdges change).base? a = i.base? a := by
  unfold base?
  rw [getElem?_mapEdges, Option.map_map]
  rfl

theorem edges_mapEdges {a : AttributeId} (h : change a [] = []) :
    (i.mapEdges change).edges a = change a (i.edges a) := by
  unfold edges
  rw [getElem?_mapEdges]
  cases i.attributes[a]? with
  | some state => rfl
  | none => exact h.symm

end Item

namespace Fit

/-- the fit with other edges on the declared cells -/
def mapEdges (f : Fit) (change : Cell → List Edge → List Edge) : Fit :=
  { f with
    items := f.items.mapIdx (fun i item => item.mapEdges (fun a => change ⟨⟨i⟩, a⟩))
    two_le_size := by simpa using f.two_le_size }

section
variable (f : Fit) (change : Cell → List Edge → List Edge)

theorem get?_mapEdges (h : Handle) : (f.mapEdges change).get? h =
    (f.get? h).map (fun item => item.mapEdges (fun a => change ⟨h, a⟩)) :=
  Array.getElem?_mapIdx

theorem get?_mapEdges_eq_none {h : Handle} :
    (f.mapEdges change).get? h = none ↔ f.get? h = none := by
  rw [get?_mapEdges, Option.map_eq_none_iff]

theorem base?_mapEdges (c : Cell) : (f.mapEdges change).base? c = f.base? c := by
  unfold base?
  rw [get?_mapEdges]
  cases f.get? c.item with
  | none => rfl
  | some item => exact item.base?_mapEdges _ c.attr

theorem baseValue_mapEdges (catalog : Catalog) (c : Cell) :
    (f.mapEdges change).baseValue catalog c = f.baseValue catalog c := by
  unfold baseValue
  rw [base?_mapEdges]

theorem isActive_mapEdges : (f.mapEdges change).isActive = f.isActive := by
  funext e
  unfold isActive
  rw [get?_mapEdges]
  cases f.get? e.source with
  | none => rfl
  | some item => rfl

theorem edges_mapEdges {c : Cell} (h : change c [] = []) :
    (f.mapEdges change).edges c = change c (f.edges c) := by
  unfold edges
  rw [get?_mapEdges]
  cases f.get? c.item with
  | none => exact h.symm
  | some item => exact item.edges_mapEdges _ h

theorem entries_mapEdges : (f.mapEdges change).entries =
    f.entries.map (fun (h, item) => (h, item.mapEdges (fun a => change ⟨h, a⟩))) := by
  refine List.ext_getElem? fun i => ?_
  simp only [entries, mapEdges, Array.toList_mapIdx, List.getElem?_map, List.getElem?_zipIdx,
    List.getElem?_mapIdx, Option.map_map, Nat.zero_add, Function.comp_def]

/-- under each id there is the same item with other edges -/
theorem byId_mapEdges (h : Handle) :
    Option.Rel (fun item item' => ∃ change', item' = item.mapEdges change') f.byId[h]?
      (f.mapEdges change).byId[h]? := by
  have pairs : List.Forall₂ (fun item item' : Item => ∃ change', item' = item.mapEdges change')
      f.items.toList (f.mapEdges change).items.toList := by
    rw [← map_snd_entries, ← map_snd_entries, entries_mapEdges, List.map_map,
      List.forall₂_map_left_iff, List.forall₂_map_right_iff]
    exact List.forall₂_same.mpr fun (k, item) _ => ⟨fun a => change ⟨k, a⟩, rfl⟩
  refine Map.lastRows_rel (fun item item' same => ?_) pairs h
  obtain ⟨change', rfl⟩ := same
  exact ⟨rfl, change', rfl⟩

theorem mem_byId_mapEdges {h : Handle} : h ∈ (f.mapEdges change).byId ↔ h ∈ f.byId := by
  rw [← Std.ExtTreeMap.isSome_getElem?_iff_mem, ← Std.ExtTreeMap.isSome_getElem?_iff_mem,
    Map.isSome_eq_of_rel (f.byId_mapEdges change h)]

theorem mem_declared_mapEdges {c : Cell} : c ∈ (f.mapEdges change).declared ↔ c ∈ f.declared := by
  rw [mem_declared_iff, mem_declared_iff]
  have same := f.byId_mapEdges change c.item
  generalize f.byId[c.item]? = item, (f.mapEdges change).byId[c.item]? = item' at same
  cases same with
  | none => rfl
  | some same =>
    obtain ⟨change', rfl⟩ := same
    simp [Item.declares, Item.mapEdges]

variable {f change} {catalog : Catalog}

theorem itemValues_congr
    (hv : ∀ c, (f.mapEdges change).value catalog [] c = f.value catalog [] c) (item : Item)
    (change' : AttributeId → List Edge → List Edge) :
    (f.mapEdges change).itemValues catalog (item.mapEdges change') = f.itemValues catalog item := by
  unfold itemValues
  simp only [hv, Item.keys_mapEdges]
  rfl

theorem resolveRest_congr
    (hv : ∀ c, (f.mapEdges change).value catalog [] c = f.value catalog [] c) :
    (f.mapEdges change).resolveRest catalog = f.resolveRest catalog := by
  unfold resolveRest
  rw [← map_snd_entries, ← map_snd_entries, entries_mapEdges, List.mapM_map, List.mapM_map,
    List.mapM_map]
  simp only [Function.comp_def, itemValues_congr hv]
  rfl

theorem answers_congr
    (hv : ∀ c, (f.mapEdges change).value catalog [] c = f.value catalog [] c)
    (queries : List Cell) :
    (f.mapEdges change).answers catalog queries = f.answers catalog queries := by
  unfold answers
  rw [funext hv]

end

end Fit

end Fitting
