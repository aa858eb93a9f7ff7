import Fitting.Proofs.Tables
import Fitting.Proofs.Resolution.Value

/-!
# Queries one after the other

One resolver answers any number of queries and keeps its cache between them.

* `answers`             the answers to a list of queries;
* `answers_preserves`   what every query leaves true, a list of queries leaves true;
* `byId`                the items by their ids, which in a numbered fit are their handles;
* `declared`            the attributes that these items declare, as cells;
* `resolveRest_snd`     resolving everything is a list of queries, too, one for each attribute of
                        each item;
* `resolveRest_row`     the result has a row for each item of `byId`, made of answers to such
                        queries;
* `isSome_resolveAll_get?`   so it has an entry for each declared cell.
-/

namespace Fitting

/-- what every step of a loop leaves true, the loop leaves true, and what each step says of its
result holds of all results -/
theorem mapM_forall₂ {ι σ α : Type} (run : ι → StateM σ α) {I : σ → Prop} {R : ι → α → Prop}
    (step : ∀ i s, I s → I (run i s).2 ∧ R i (run i s).1) (l : List ι) :
    ∀ s, I s → I (l.mapM run s).2 ∧ List.Forall₂ R l (l.mapM run s).1 := by
  induction l with
  | nil => exact fun s h => ⟨h, .nil⟩
  | cons i l ih =>
    intro s h
    obtain ⟨next, first⟩ := step i s h
    obtain ⟨last, rest⟩ := ih _ next
    rw [List.mapM_cons]
    exact ⟨last, .cons first rest⟩

theorem mapM_preserves {ι σ α : Type} (run : ι → StateM σ α) (I : σ → Prop)
    (hI : ∀ i s, I s → I (run i s).2) (l : List ι) (s : σ) (h : I s) : I (l.mapM run s).2 :=
  (mapM_forall₂ run (R := fun _ _ => True) (fun i s h => ⟨hI i s h, trivial⟩) l s h).1

/-- the resolved value of a cell -/
def Values.get? (values : Values) (c : Cell) : Option Float := values[c.item]?.bind (·[c.attr]?)

/-- an item without a row has no values -/
theorem Values.getElem?_row (values : Values) (h : Handle) (a : AttributeId) :
    (values[h]?.getD ∅)[a]? = values.get? ⟨h, a⟩ := by
  unfold get?
  dsimp only
  cases values[h]? with
  | none => exact Std.ExtTreeMap.getElem?_empty
  | some row => rfl

/-- the values of an item are made of its cells, if it has a row -/
theorem Values.row_congr {v w : Values} {h k : Handle} (rows : h ∈ v ↔ k ∈ w)
    (cells : ∀ a, v.get? ⟨h, a⟩ = w.get? ⟨k, a⟩) : v[h]? = w[k]? := by
  simp only [← Std.ExtTreeMap.isSome_getElem?_iff_mem] at rows
  have hc : ∀ a, v[h]?.bind (·[a]?) = w[k]?.bind (·[a]?) := cells
  cases hv : v[h]? with
  | none =>
    cases hw : w[k]? with
    | none => rfl
    | some n => simp [hv, hw] at rows
  | some m =>
    cases hw : w[k]? with
    | none => simp [hv, hw] at rows
    | some n =>
      refine congrArg some (Std.ExtTreeMap.ext_getElem? fun a => ?_)
      simpa [hv, hw] using hc a

/-- values of the same items that agree on every cell are the same -/
theorem Values.ext_get? {v w : Values} (rows : ∀ h, h ∈ v ↔ h ∈ w)
    (cells : ∀ c, v.get? c = w.get? c) : v = w :=
  Std.ExtTreeMap.ext_getElem? fun h => Values.row_congr (rows h) fun a => cells ⟨h, a⟩

namespace Fit

/-! ### handles and ids -/

section
variable (f : Fit)

theorem map_fst_entries : f.entries.map Prod.fst = f.handles := by
  have positions : f.items.toList.zipIdx.map Prod.snd = List.range f.size := by
    rw [List.zipIdx_map_snd, List.range_eq_range']
    rfl
  unfold entries handles
  rw [← positions, List.map_map, List.map_map]
  rfl

theorem map_snd_entries : f.entries.map Prod.snd = f.items.toList := by
  unfold entries
  rw [List.map_map]
  exact List.zipIdx_map_fst 0 _

theorem nodup_handles : f.handles.Nodup := List.nodup_range.map fun _ _ => Handle.mk.inj

theorem handles_nodup : (f.entries.map Prod.fst).Nodup := f.map_fst_entries ▸ f.nodup_handles

end

/-- the items by their ids; of several items with one id the last one counts -/
def byId (f : Fit) : Map Handle Item := Map.lastRows Item.id id f.items.toList

/-- the attributes that an item declares as cells, in ascending order -/
def cellsOf (item : Item) : List Cell := item.attributes.keys.map (Cell.mk item.id)

/-- the attributes that the items declare, under the ids of the items -/
def declared (f : Fit) : List Cell := f.byId.values.flatMap cellsOf

/-- the cells that are asked for one after the other to resolve everything -/
def asked (f : Fit) : List Cell := f.items.toList.flatMap cellsOf

section
variable {f : Fit}

/-- the ids of a numbered fit are its handles -/
theorem Numbered.map_id (numbered : f.Numbered) : f.items.toList.map Item.id = f.handles := by
  rw [← f.map_fst_entries, ← f.map_snd_entries, List.map_map]
  exact List.map_congr_left fun (h, item) hm => numbered h item (mem_entries.mp hm)

/-- and the item with an id is the one that stands there -/
theorem Numbered.byId_eq (numbered : f.Numbered) (h : Handle) : f.byId[h]? = f.get? h := by
  have distinct : (f.items.toList.map Item.id).Nodup := numbered.map_id ▸ f.nodup_handles
  refine Option.ext fun item => ?_
  unfold byId
  rw [Map.lastRows_eq_some distinct, ← mem_entries]
  simp only [← f.map_snd_entries, List.mem_map, Prod.exists, exists_eq_right]
  constructor
  · rintro ⟨_, ⟨k, hk⟩, rfl, rfl⟩
    rwa [numbered k _ (mem_entries.mp hk)]
  · intro hm
    exact ⟨item, ⟨h, hm⟩, numbered h item (mem_entries.mp hm), rfl⟩

theorem Numbered.mem_byId (numbered : f.Numbered) {h : Handle} : h ∈ f.byId ↔ f.get? h ≠ none := by
  rw [← Std.ExtTreeMap.isSome_getElem?_iff_mem, numbered.byId_eq, Option.isSome_iff_ne_none]

theorem mem_declared_iff {c : Cell} :
    c ∈ f.declared ↔ ∃ item, f.byId[c.item]? = some item ∧ item.declares c.attr := by
  obtain ⟨h, a⟩ := c
  simp only [declared, cellsOf, Map.values_eq, List.mem_flatMap, List.mem_map, Prod.exists,
    Std.ExtTreeMap.mem_toList_iff_getElem?_eq_some, Std.ExtTreeMap.mem_keys, Item.declares,
    Std.ExtTreeMap.contains_iff_mem, Cell.mk.injEq]
  constructor
  · rintro ⟨_, ⟨k, item, hk, rfl⟩, _, ha, rfl, rfl⟩
    exact ⟨item, (Map.mem_of_lastRows hk).2 ▸ hk, ha⟩
  · rintro ⟨item, hi, ha⟩
    exact ⟨item, ⟨h, item, hi, rfl⟩, a, ha, (Map.mem_of_lastRows hi).2, rfl⟩

theorem mem_declared (numbered : f.Numbered) {c : Cell} :
    c ∈ f.declared ↔ ∃ item, f.get? c.item = some item ∧ item.declares c.attr := by
  rw [mem_declared_iff, numbered.byId_eq]

end

/-! ### answers -/

/-- the answers to queries, one after the other -/
def answers (f : Fit) (catalog : Catalog) (queries : List Cell) : StateM Cache (List Float) :=
  queries.mapM (f.value catalog [])

/-- the cache after queries to a new resolver -/
def cacheAfter (f : Fit) (catalog : Catalog) (queries : List Cell) : Cache :=
  (f.answers catalog queries ∅).2

section
variable (f : Fit) (catalog : Catalog)

theorem answers_nil (cache : Cache) : f.answers catalog [] cache = ([], cache) := rfl

theorem answers_cons (c : Cell) (queries : List Cell) (cache : Cache) :
    f.answers catalog (c :: queries) cache =
      ((f.value catalog [] c cache).1
          :: (f.answers catalog queries (f.value catalog [] c cache).2).1,
        (f.answers catalog queries (f.value catalog [] c cache).2).2) := by
  unfold answers
  rw [List.mapM_cons]
  rfl

theorem answers_append (queries more : List Cell) :
    ∀ cache : Cache, f.answers catalog (queries ++ more) cache =
      ((f.answers catalog queries cache).1
          ++ (f.answers catalog more (f.answers catalog queries cache).2).1,
        (f.answers catalog more (f.answers catalog queries cache).2).2) := by
  induction queries with
  | nil => intro cache; rfl
  | cons c queries ih =>
    intro cache
    rw [List.cons_append, answers_cons, ih, answers_cons]
    rfl

variable {f catalog}

theorem answers_preserves (I : Cache → Prop)
    (hI : ∀ c cache, I cache → I (f.value catalog [] c cache).2) (queries : List Cell) :
    ∀ cache, I cache → I (f.answers catalog queries cache).2 :=
  mapM_preserves (f.value catalog []) I hI queries

end

/-! ### resolving everything -/

section
variable (f : Fit) (catalog : Catalog)

/-- to resolve an item is to ask for its cells -/
theorem itemValues_snd (item : Item) (cache : Cache) :
    (f.itemValues catalog item cache).2 = (f.answers catalog (cellsOf item) cache).2 := by
  have pairs : ∀ (attrs : List AttributeId) (cache : Cache), ((attrs.mapM fun a => do
      let value ← f.value catalog [] ⟨item.id, a⟩
      return (a, value) : StateM Cache (List (AttributeId × Float))) cache).2 =
      (f.answers catalog (attrs.map (Cell.mk item.id)) cache).2 := by
    intro attrs
    induction attrs with
    | nil => exact fun _ => rfl
    | cons a attrs ih =>
      intro cache
      rw [List.mapM_cons, List.map_cons, answers_cons]
      exact ih (f.value catalog [] ⟨item.id, a⟩ cache).2
  exact pairs item.attributes.keys cache

/-- to resolve everything is to ask for the cells of all items -/
theorem resolveRest_snd (cache : Cache) :
    (f.resolveRest catalog cache).2 = (f.answers catalog f.asked cache).2 := by
  have rows : ∀ (items : List Item) (cache : Cache), ((items.mapM fun item => do
      let values ← f.itemValues catalog item
      return (item.id, values) : StateM Cache (List (Handle × Map AttributeId Float))) cache).2 =
      (f.answers catalog (items.flatMap cellsOf) cache).2 := by
    intro items
    induction items with
    | nil => exact fun _ => rfl
    | cons item items ih =>
      intro cache
      rw [List.mapM_cons, List.flatMap_cons, answers_append, ← itemValues_snd]
      exact ih (f.itemValues catalog item cache).2
  exact rows f.items.toList cache

/-- the row of an item: an answer for each attribute that it declares, given in a cache of which `I`
holds -/
structure RowOf (I : Cache → Prop) (item : Item) (row : Map AttributeId Float) : Prop where
  keys : ∀ a, a ∈ row ↔ item.declares a
  answers : ∀ (a : AttributeId) (v : Float), row[a]? = some v →
    ∃ cache, I cache ∧ v = (f.value catalog [] ⟨item.id, a⟩ cache).1

variable {f catalog} {I : Cache → Prop} (hI : ∀ c cache, I cache → I (f.value catalog [] c cache).2)
include hI

theorem itemValues_row (item : Item) (cache : Cache) (start : I cache) :
    I (f.itemValues catalog item cache).2 ∧
      f.RowOf catalog I item (f.itemValues catalog item cache).1 := by
  let ask : AttributeId → StateM Cache (AttributeId × Float) := fun a => do
    let value ← f.value catalog [] ⟨item.id, a⟩
    return (a, value)
  obtain ⟨last, pairs⟩ := mapM_forall₂ ask (R := fun a pair => a = pair.1 ∧
      ∃ cache, I cache ∧ pair.2 = (f.value catalog [] ⟨item.id, a⟩ cache).1)
    (fun a cache h => ⟨hI _ cache h, rfl, cache, h, rfl⟩) item.attributes.keys cache start
  have entry : ∀ a : AttributeId, Option.Rel
      (fun a v => ∃ cache, I cache ∧ v = (f.value catalog [] ⟨item.id, a⟩ cache).1)
      (Map.lastRows id id item.attributes.keys : Map AttributeId AttributeId)[a]?
      (f.itemValues catalog item cache).1[a]? :=
    fun a => Map.lastRows_rel (fun _ _ h => h) pairs a
  refine ⟨last, fun a => ?_, fun a v found => ?_⟩
  · have known : a ∈ (Map.lastRows id id item.attributes.keys : Map AttributeId AttributeId) ↔
        item.declares a := by
      rw [Map.mem_lastRows]
      simp [Item.declares]
    rw [← known, ← Std.ExtTreeMap.isSome_getElem?_iff_mem, ← Std.ExtTreeMap.isSome_getElem?_iff_mem,
      Map.isSome_eq_of_rel (entry a)]
  · have answer := entry a
    rw [found] at answer
    cases hk : (Map.lastRows id id item.attributes.keys : Map AttributeId AttributeId)[a]? with
    | none => rw [hk] at answer; cases answer
    | some b =>
      rw [hk] at answer
      obtain rfl : b = a := (Map.mem_of_lastRows hk).2
      cases answer with
      | some answer => exact answer

/-- the result has a row for each item of `byId` -/
theorem resolveRest_row {cache : Cache} (start : I cache) (h : Handle) :
    Option.Rel (f.RowOf catalog I) f.byId[h]? (f.resolveRest catalog cache).1[h]? := by
  let resolve : Item → StateM Cache (Handle × Map AttributeId Float) := fun item => do
    let values ← f.itemValues catalog item
    return (item.id, values)
  obtain ⟨-, rows⟩ := mapM_forall₂ resolve (R := fun item row => item.id = row.1 ∧
      f.RowOf catalog I item row.2)
    (fun item cache h =>
      ⟨(itemValues_row hI item cache h).1, rfl, (itemValues_row hI item cache h).2⟩)
    f.items.toList cache start
  exact Map.lastRows_rel (fun _ _ h => h) rows h

/-- each entry of the result is an answer to a query -/
theorem resolveRest_answer {cache : Cache} (start : I cache) {c : Cell} {v : Float}
    (found : (f.resolveRest catalog cache).1.get? c = some v) :
    ∃ cache, I cache ∧ v = (f.value catalog [] c cache).1 := by
  obtain ⟨row, hr, hv⟩ := Option.bind_eq_some_iff.mp found
  have rows := resolveRest_row hI start c.item
  rw [hr] at rows
  cases hi : f.byId[c.item]? with
  | none => rw [hi] at rows; cases rows
  | some item =>
    rw [hi] at rows
    cases rows with
    | some rows =>
      have answer := rows.answers c.attr v hv
      rwa [(Map.mem_of_lastRows hi).2] at answer

end

section
variable (f : Fit) (catalog : Catalog)

/-- the result has a row for each item, and no other -/
theorem mem_resolveRest (cache : Cache) (h : Handle) :
    h ∈ (f.resolveRest catalog cache).1 ↔ h ∈ f.byId := by
  have rows : Option.Rel (f.RowOf catalog fun _ => True) f.byId[h]?
      (f.resolveRest catalog cache).1[h]? :=
    resolveRest_row (fun _ _ _ => trivial) trivial h
  rw [← Std.ExtTreeMap.isSome_getElem?_iff_mem, ← Std.ExtTreeMap.isSome_getElem?_iff_mem,
    Map.isSome_eq_of_rel rows]

/-- it has an entry for each declared cell, and no other -/
theorem isSome_resolveRest_get? (cache : Cache) (c : Cell) :
    ((f.resolveRest catalog cache).1.get? c).isSome ↔ c ∈ f.declared := by
  have rows : Option.Rel (f.RowOf catalog fun _ => True) f.byId[c.item]?
      (f.resolveRest catalog cache).1[c.item]? :=
    resolveRest_row (fun _ _ _ => trivial) trivial c.item
  rw [mem_declared_iff]
  unfold Values.get?
  generalize f.byId[c.item]? = item, (f.resolveRest catalog cache).1[c.item]? = row at rows
  cases rows with
  | none => simp
  | some row => simpa using row.keys c.attr

theorem isSome_resolveAll_get? (c : Cell) :
    ((f.resolveAll catalog).get? c).isSome ↔ c ∈ f.declared :=
  f.isSome_resolveRest_get? catalog ∅ c

end

/-! ### a fit with a loop -/

/-- an item with attributes and nothing else -/
def itemOf (role : Role) (attributes : List (AttributeId × Attribute)) : Item where
  role := role
  type := ⟨1⟩
  name := none
  group := ⟨1⟩
  category := ⟨1⟩
  effects := []
  requiredSkills := []
  attributes := Map.lastRows Prod.fst Prod.snd attributes

/-- an edge that adds the value of a cell -/
def adding (c : Cell) : Edge where
  source := c.item
  sourceAttribute := c.attr
  operation := .modAdd
  effect := ⟨1⟩
  category := .passive
  penalized := false
  dbuff := none

def looped : Cell := ⟨hull, ⟨1⟩⟩
def boosted : Cell := ⟨hull, ⟨2⟩⟩
def trained : Cell := ⟨pilot, ⟨3⟩⟩

/-- `looped` takes its value from itself and `boosted` from `trained`, on which nothing acts -/
def besideLoop : Fit :=
  bare (itemOf .hull [(⟨1⟩, ⟨1.0, [adding looped]⟩), (⟨2⟩, ⟨2.0, [adding trained]⟩)])
    (itemOf .pilot [(⟨3⟩, ⟨3.0, []⟩)])

end Fit

end Fitting
