import Fitting.Aggregate
import Fitting.Stack
import Fitting.Reference.Catalog
import Fitting.Fit.Basic

/-!
# Resolving values

The value of a cell is the base value of its attribute with the values of all sources applied to it,
and these are resolved in the same way.  A value once resolved is kept in a cache.

* `Fit.value`        the value of a cell.  `opened` holds the cells whose evaluation has begun and
                     is not finished; a cell that is met again while it is open counts as its base
                     value, so a cycle ends;
* `Fit.evaluate`     one step of it, given how to get the values of the sources;
* `Fit.resolveAll`   the values of all attributes that the items declare.

Evaluation ends because every open cell has edges and none is opened twice: what grows less is the
number of cells with edges that are not open, `Fit.unopened`.
-/

namespace Fitting

/-- resolved values by item and attribute -/
abbrev Values := Map Handle (Map AttributeId Float)

/-- values of cells that are resolved already -/
abbrev Cache := Map Cell Float

namespace Fit

/-- what acts on a cell -/
def edges (f : Fit) (c : Cell) : List Edge :=
  match f.get? c.item with
  | some item => item.edges c.attr
  | none => []

/-- the declared base value of a cell, else the default of its attribute -/
def baseValue (f : Fit) (catalog : Catalog) (c : Cell) : Float :=
  match f.base? c with
  | some value => value
  | none => catalog.default c.attr

/-- an edge of a module counts only if the module is engaged enough; any other edge counts -/
def isActive (f : Fit) (e : Edge) : Bool :=
  match (f.get? e.source).bind Item.moduleStatus? with
  | some status => status.satisfies e.category.required
  | none => true

/-! ### several buffs of one kind -/

/-- the edges of each warfare buff with their positions in the list -/
def dbuffGroups (edges : List Edge) : Map DbuffId (List (Edge × Nat)) :=
  edges.zipIdx.foldl
    (fun groups (e, i) =>
      match e.dbuff with
      | some tag => groups.alter tag.dbuff (fun members => some (members.getD [] ++ [(e, i)]))
      | none => groups)
    ∅

/-- the mode of a group, which is that of its first edge -/
def groupMode : List (Edge × Nat) → AggregateMode
  | (e, _) :: _ => (e.dbuff.map DbuffTag.mode).getD .default
  | [] => .default

/-- the positions of the edges of a group that do not count, given the values of their sources -/
def losers (members : List (Edge × Nat)) (values : List Float) : List Nat :=
  match (groupMode members).select values with
  | some winner => (members.eraseIdx winner).map Prod.snd
  | none => []

section
variable {m : Type → Type} [Monad m]

/-- the edges that count when of each warfare buff only one does; the others keep their order -/
def collapse (source : Cell → m Float) (edges : List Edge) : m (List Edge) := do
  let groups := ((dbuffGroups edges).toList.map Prod.snd).filter (fun members => 1 < members.length)
  let lost ← groups.mapM fun members => do
    let values ← members.mapM (fun member => source member.1.cell)
    return losers members values
  return (edges.zipIdx.filter (fun (_, i) => !lost.flatten.contains i)).map Prod.fst

/-- the value of a cell, given how to get the values of its sources -/
def evaluate (f : Fit) (catalog : Catalog) (source : Cell → m Float) (c : Cell) : m Float := do
  let survivors ← collapse source ((f.edges c).filter f.isActive)
  let contributions ← survivors.mapM fun e => do
    let value ← source e.cell
    return (⟨e.operation, value, e.penalized⟩ : Contribution Float)
  let stack : Stack Float := ⟨contributions⟩
  return stack.apply stackingWeight (f.baseValue catalog c) (catalog.highIsGood c.attr)

end

/-! ### cells that may still be opened -/

/-- all cells that something acts on -/
def modified (f : Fit) : List Cell :=
  f.entries.flatMap fun (h, item) =>
    (item.attributes.toList.filter (fun (_, state) => !state.edges.isEmpty)).map
      (fun (a, _) => ⟨h, a⟩)

/-- the modified cells that are not open -/
def unopened (f : Fit) (opened : List Cell) : List Cell :=
  f.modified.filter (fun c => c ∉ opened)

theorem mem_modified (f : Fit) (c : Cell) (h : f.edges c ≠ []) : c ∈ f.modified := by
  unfold edges at h
  split at h
  next item hi =>
    unfold Item.edges at h
    split at h
    next state hs =>
      have he : (c.item, item) ∈ f.entries := mem_entries.mpr hi
      have ha : (c.attr, state) ∈ item.attributes.toList :=
        Std.ExtTreeMap.mem_toList_iff_getElem?_eq_some.mpr hs
      simp only [modified, List.mem_flatMap, List.mem_map, List.mem_filter]
      exact ⟨_, he, _, ⟨ha, by simpa using h⟩, rfl⟩
    next => exact absurd rfl h
  next => exact absurd rfl h

theorem length_unopened_lt (f : Fit) (opened : List Cell) (c : Cell) (h : f.edges c ≠ [])
    (ho : c ∉ opened) : (f.unopened (c :: opened)).length < (f.unopened opened).length := by
  have hsub : f.unopened (c :: opened) = (f.unopened opened).filter (fun d => d ≠ c) := by
    simp only [unopened, List.filter_filter]
    congr 1
    funext d
    by_cases hd : d = c <;> simp [hd]
  have hc : c ∈ f.unopened opened := by
    simp only [unopened, List.mem_filter, decide_eq_true_eq]
    exact ⟨mem_modified f c h, ho⟩
  rw [hsub]
  exact List.length_filter_lt_length_iff_exists.mpr ⟨c, hc, by simp⟩

/-! ### values -/

/-- the value of a cell while the cells `opened` are being evaluated, and the cache after it -/
def value (f : Fit) (catalog : Catalog) (opened : List Cell) (c : Cell) : StateM Cache Float :=
  fun cache =>
    match cache[c]? with
    | some known => (known, cache)
    | none =>
      let base := f.baseValue catalog c
      if (f.get? c.item).isNone then (base, cache)
      else if _h : f.edges c = [] then (base, cache.insert c base)
      else if _ho : c ∈ opened then (base, cache)
      else
        let (result, cache) :=
          (f.evaluate catalog (fun d => f.value catalog (c :: opened) d) c :
            StateM Cache Float) cache
        (result, cache.insert c result)
termination_by (f.unopened opened).length
decreasing_by exact length_unopened_lt f opened c _h _ho

/-- the values of the attributes an item declares -/
def itemValues (f : Fit) (catalog : Catalog) (item : Item) :
    StateM Cache (Map AttributeId Float) := do
  let pairs ← item.attributes.keys.mapM fun a => do
    let value ← f.value catalog [] ⟨item.id, a⟩
    return (a, value)
  return Map.lastRows Prod.fst Prod.snd pairs

/-- the values of all attributes that the items declare, each item under its id, given what the
cache holds already -/
def resolveRest (f : Fit) (catalog : Catalog) : StateM Cache Values := do
  let rows ← f.items.toList.mapM fun item => do
    let values ← f.itemValues catalog item
    return (item.id, values)
  return Map.lastRows Prod.fst Prod.snd rows

/-- the values of all attributes that the items declare -/
def resolveAll (f : Fit) (catalog : Catalog) : Values := (f.resolveRest catalog ∅).1

end Fit

end Fitting
