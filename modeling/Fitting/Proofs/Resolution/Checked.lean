import Mathlib.Data.List.InsertIdx
import Fitting.Proofs.Resolution.Value
import Fitting.Proofs.Resolution.Winners

/-!
# Every access finds what it looks for

Resolving the values of a fit once more, now by position: the edges of a buff are given by their
positions in the list of edges, and what acts on a cell is put into nine groups, one for each
operation.  An access to a position where nothing is stops the whole computation.  None ever does,
and the values are the same.

* `access`                 the member of a list at a position;
* `collapse?_eq`, `evaluate?_eq`, `value?_eq`   each stage finds everything and does what the
                                                unchecked one does;
* `resolveAll?_eq`         so does resolving everything.
-/

namespace Fitting

/-! ### access by position -/

section
variable {m : Type → Type} [Monad m]

/-- the member at a position; without one the computation stops -/
def access {α : Type} (l : List α) (i : Nat) : OptionT m α := OptionT.mk (pure l[i]?)

theorem access_eq {α : Type} {l : List α} {i : Nat} {a : α} (h : l[i]? = some a) :
    (access l i : OptionT m α) = pure a := by
  unfold access
  rw [h]
  rfl

variable [LawfulMonad m]

/-- a loop none of whose steps stops does not stop -/
theorem mapM_lift {ι α : Type} {step? : ι → OptionT m α} {step : ι → m α} {l : List ι}
    (each : ∀ i ∈ l, step? i = liftM (step i)) :
    l.mapM step? = (liftM (l.mapM step) : OptionT m (List α)) := by
  induction l with
  | nil => rw [List.mapM_nil, List.mapM_nil, liftM_pure]
  | cons i l ih =>
    have rest := ih fun j hj => each j (List.mem_cons_of_mem _ hj)
    simp only [List.mapM_cons, each i List.mem_cons_self, rest, liftM_bind, liftM_pure]

/-- what comes after a loop may rely on the number of its results -/
theorem mapM_bind_congr {ι α β : Type} (step : ι → m α) (l : List ι) : ∀ {g g' : List α → m β},
    (∀ results, results.length = l.length → g results = g' results) →
      l.mapM step >>= g = l.mapM step >>= g' := by
  induction l with
  | nil =>
    intro g g' same
    simp only [List.mapM_nil, pure_bind, same [] rfl]
  | cons i l ih =>
    intro g g' same
    simp only [List.mapM_cons, bind_assoc, pure_bind]
    refine bind_congr fun a => ?_
    exact ih fun results length => same (a :: results) (congrArg (· + 1) length)

end

namespace Fit

/-! ### several buffs of one kind -/

/-- one more position in the group of the buff of its edge -/
def place (groups : Map DbuffId (List Nat)) : Edge × Nat → Map DbuffId (List Nat) :=
  fun (e, i) =>
    match e.dbuff with
    | some tag => groups.alter tag.dbuff (fun members => some (members.getD [] ++ [i]))
    | none => groups

/-- the positions of the edges of each warfare buff -/
def positions (edges : List Edge) : Map DbuffId (List Nat) := edges.zipIdx.foldl place ∅

theorem place_map (groups : Map DbuffId (List (Edge × Nat))) (member : Edge × Nat) :
    place (groups.map fun _ members => members.map Prod.snd) member =
      (sortIn groups member).map fun _ members => members.map Prod.snd := by
  obtain ⟨e, i⟩ := member
  unfold place sortIn
  dsimp only
  cases e.dbuff with
  | none => rfl
  | some tag =>
    refine Std.ExtTreeMap.ext_getElem? fun b => ?_
    simp only [Std.ExtTreeMap.getElem?_alter, Std.ExtTreeMap.getElem?_map]
    split
    · cases groups[tag.dbuff]? <;> simp
    · rfl

theorem positions_eq (edges : List Edge) :
    positions edges = (dbuffGroups edges).map fun _ members => members.map Prod.snd := by
  have empty : (∅ : Map DbuffId (List (Edge × Nat))).map
      (fun _ members => members.map Prod.snd) = ∅ := by
    refine Std.ExtTreeMap.ext_getElem? fun b => ?_
    simp
  unfold positions
  rw [dbuffGroups_eq, ← List.foldl_hom (fun groups : Map DbuffId (List (Edge × Nat)) =>
    groups.map fun _ members => members.map Prod.snd) place_map, empty]

/-- each position is one in the list of edges -/
theorem positions_lt {edges : List Edge} {b : DbuffId} {group : List Nat}
    (h : (positions edges)[b]? = some group) :
    ∀ i ∈ group, i < edges.length := by
  rw [positions_eq, Std.ExtTreeMap.getElem?_map] at h
  obtain ⟨members, hb, rfl⟩ := Option.map_eq_some_iff.mp h
  have listed : members ∈ (dbuffGroups edges).toList.map Prod.snd :=
    List.mem_map.mpr ⟨(b, members), Std.ExtTreeMap.mem_toList_iff_getElem?_eq_some.mpr hb, rfl⟩
  intro i hi
  obtain ⟨member, hm, rfl⟩ := List.mem_map.mp hi
  have here : edges[member.2]? = some member.1 := mem_of_mem_group listed hm
  exact (List.getElem?_eq_some_iff.mp here).1

section
variable {m : Type → Type} [Monad m]

/-- the positions of a group that do not count.  The mode is that of the first edge, and the
selected position is one in the group. -/
def dropped? (source : Cell → OptionT m Float) (edges : List Edge) (group : List Nat) :
    OptionT m (List Nat) := do
  let first ← access edges (← access group 0)
  let values ← group.mapM fun i => do source (← access edges i).cell
  match ((first.dbuff.map DbuffTag.mode).getD .default).select values with
  | none => return group
  | some winner =>
    let kept ← access group winner
    return group.filter (· ≠ kept)

def collapse? (source : Cell → OptionT m Float) (edges : List Edge) : OptionT m (List Edge) := do
  let groups := ((positions edges).toList.map Prod.snd).filter (fun group => 1 < group.length)
  let lost ← groups.mapM (dropped? source edges)
  return (edges.zipIdx.filter (fun (_, i) => !lost.flatten.contains i)).map Prod.fst

variable [LawfulMonad m]

theorem filter_ne_eq_eraseIdx {l : List Nat} (distinct : l.Nodup) {i kept : Nat}
    (h : l[i]? = some kept) :
    l.filter (· ≠ kept) = l.eraseIdx i := by
  obtain ⟨hi, rfl⟩ := List.getElem?_eq_some_iff.mp h
  rw [← distinct.erase_getElem i hi, distinct.erase_eq_filter]
  refine List.filter_congr fun j _ => ?_
  by_cases hj : j = l[i] <;> simp [hj]

theorem distinct_of_mem_groups {edges : List Edge} {members : List (Edge × Nat)}
    (h : members ∈ (dbuffGroups edges).toList.map Prod.snd) : (members.map Prod.snd).Nodup := by
  obtain ⟨b, rfl, -⟩ := mem_groups.mp h
  have all : (edges.zipIdx.map Prod.snd).Nodup := by
    rw [List.zipIdx_map_snd]
    exact List.nodup_range'
  exact all.sublist (List.filter_sublist.map _)

theorem dropped?_eq (source : Cell → m Float) {edges : List Edge} {members : List (Edge × Nat)}
    (h : members ∈ (dbuffGroups edges).toList.map Prod.snd) :
    dropped? (fun d => liftM (source d)) edges (members.map Prod.snd) =
      (liftM (do
        let values ← members.mapM (fun (member : Edge × Nat) => source member.1.cell)
        return losers members values) : OptionT m (List Nat)) := by
  have here : ∀ member ∈ members, edges[member.2]? = some member.1 :=
    fun member hm => mem_of_mem_group h hm
  obtain ⟨b, -, nonempty⟩ := mem_groups.mp h
  obtain ⟨⟨e, i⟩, others, rfl⟩ := List.exists_cons_of_ne_nil nonempty
  have distinct := distinct_of_mem_groups h
  generalize members : (e, i) :: others = group at *
  have first : (access (group.map Prod.snd) 0 : OptionT m Nat) = pure i := by
    subst members
    exact access_eq rfl
  have lead : (access edges i : OptionT m Edge) = pure e := by
    subst members
    exact access_eq (here (e, i) List.mem_cons_self)
  have mode : groupMode group = (e.dbuff.map DbuffTag.mode).getD .default := by
    subst members
    rfl
  have values : ((group.map Prod.snd).mapM fun i => do
      let edge ← access edges i
      (liftM (source edge.cell) : OptionT m Float)) =
        liftM (group.mapM fun (member : Edge × Nat) => source member.1.cell) := by
    rw [List.mapM_map]
    refine mapM_lift fun member hm => ?_
    show (access edges member.2 >>= fun edge => liftM (source edge.cell)) = _
    rw [access_eq (here member hm), pure_bind]
  unfold dropped?
  rw [first, pure_bind, lead, pure_bind, values, ← mode, liftM_bind, ← mapM_lift fun _ _ => rfl]
  refine mapM_bind_congr _ _ fun results length => ?_
  have nonempty' : results ≠ [] := by
    rintro rfl
    subst members
    cases length
  obtain ⟨winner, selected⟩ := (groupMode group).exists_select nonempty'
  have inside : winner < (group.map Prod.snd).length := by
    rw [List.length_map, ← length]
    exact AggregateMode.select_lt selected
  have kept := List.getElem?_eq_getElem inside
  unfold losers
  rw [selected]
  show access (group.map Prod.snd) winner >>=
    (fun kept => pure ((group.map Prod.snd).filter (· ≠ kept))) = _
  rw [access_eq kept, pure_bind, filter_ne_eq_eraseIdx distinct kept, liftM_pure, List.eraseIdx_map]

/-- of several buffs of one kind the same one is kept by position -/
theorem collapse?_eq (source : Cell → m Float) (edges : List Edge) :
    collapse? (fun d => liftM (source d)) edges =
      (liftM (collapse source edges) : OptionT m (List Edge)) := by
  have groups : ((positions edges).toList.map Prod.snd).filter (fun group => 1 < group.length) =
      (((dbuffGroups edges).toList.map Prod.snd).filter (fun members => 1 < members.length)).map
        (List.map Prod.snd) := by
    rw [positions_eq, Std.ExtTreeMap.toList_map, List.filter_map, List.filter_map, List.filter_map]
    simp only [List.map_map, Function.comp_def, List.length_map]
  have lost :
      (((dbuffGroups edges).toList.map Prod.snd).filter fun members => 1 < members.length).mapM
        (dropped? (fun d => liftM (source d)) edges ∘ List.map Prod.snd) =
        (liftM (List.mapM _ _) : OptionT m (List (List Nat))) :=
    mapM_lift fun members hm => dropped?_eq source (List.mem_filter.mp hm).1
  unfold collapse? collapse
  dsimp only
  rw [groups, List.mapM_map, liftM_bind, lost]
  exact bind_congr fun _ => (liftM_pure _).symm

end

end Fit

/-! ### the nine groups of a stack -/

namespace Stack
variable {α : Type} {m : Type → Type} [Monad m]

/-- nine groups, one for each operation in the order they act -/
def slots (s : Stack α) : List (List (Contribution α)) := Operation.applyOrder.map s.group

theorem slots_empty : (empty : Stack α).slots = List.replicate 9 [] := rfl

/-- a contribution put into the group at the place of its operation -/
def put? (slots : List (List (Contribution α))) (c : Contribution α) :
    OptionT m (List (List (Contribution α))) := do
  let group ← access slots c.operation.index
  return slots.set c.operation.index (group ++ [c])

/-- the groups applied one after the other -/
def applySlots? [Scalar α] (weight : Nat → α) (slots : List (List (Contribution α))) (base : α)
    (highIsGood : Bool) : OptionT m α :=
  Operation.applyOrder.foldlM
    (fun value op => do return applyGroup weight highIsGood value op (← access slots op.index)) base

theorem access_slots (s : Stack α) (op : Operation) :
    (access s.slots op.index : OptionT m _) = pure (s.group op) := by
  refine access_eq ?_
  unfold slots
  rw [List.getElem?_map, op.applyOrder_getElem?_index]
  rfl

variable [LawfulMonad m]

theorem put?_slots (s : Stack α) (c : Contribution α) :
    (put? s.slots c : OptionT m _) = pure (s.add c.operation c.value c.penalized).slots := by
  unfold put?
  rw [s.access_slots, pure_bind]
  obtain ⟨op, value, penalized⟩ := c
  refine congrArg pure ?_
  unfold slots
  cases op <;> simp [Operation.applyOrder, Operation.index, group_add]

theorem foldlM_put? (cs : List (Contribution α)) : ∀ s : Stack α,
    (cs.foldlM put? s.slots : OptionT m _) = pure (slots ⟨s.contributions ++ cs⟩) := by
  induction cs with
  | nil =>
    intro s
    rw [List.append_nil]
    rfl
  | cons c cs ih =>
    intro s
    rw [List.foldlM_cons, put?_slots, pure_bind, ih]
    show pure (slots ⟨s.contributions ++ [c] ++ cs⟩) = _
    rw [List.append_assoc]
    rfl

theorem applySlots?_slots [Scalar α] (weight : Nat → α) (s : Stack α) (base : α)
    (highIsGood : Bool) :
    (applySlots? weight s.slots base highIsGood : OptionT m α) =
      pure (s.apply weight base highIsGood) := by
  unfold applySlots? apply
  simp only [s.access_slots, pure_bind]
  exact List.foldlM_pure

end Stack

/-! ### the value of a cell -/

namespace Fit

section
variable {m : Type → Type} [Monad m]

/-- the value of a cell from the sources that act on it, every access by position -/
def evaluate? (f : Fit) (catalog : Catalog) (source : Cell → OptionT m Float) (c : Cell) :
    OptionT m Float := do
  let survivors ← collapse? source ((f.edges c).filter f.isActive)
  let contributions ← survivors.mapM fun e => do
    let value ← source e.cell
    return (⟨e.operation, value, e.penalized⟩ : Contribution Float)
  let slots ← contributions.foldlM Stack.put? (List.replicate 9 [])
  Stack.applySlots? stackingWeight slots (f.baseValue catalog c) (catalog.highIsGood c.attr)

theorem evaluate?_eq [LawfulMonad m] (f : Fit) (catalog : Catalog) (source : Cell → m Float)
    (c : Cell) :
    f.evaluate? catalog (fun d => liftM (source d)) c =
      (liftM (f.evaluate catalog source c) : OptionT m Float) := by
  have stacked : ∀ cs : List (Contribution Float), (do
      let slots ← cs.foldlM Stack.put? (List.replicate 9 [])
      Stack.applySlots? stackingWeight slots (f.baseValue catalog c) (catalog.highIsGood c.attr) :
        OptionT m Float) = pure (Stack.apply stackingWeight ⟨cs⟩ (f.baseValue catalog c)
          (catalog.highIsGood c.attr)) := by
    intro cs
    rw [← Stack.slots_empty, Stack.foldlM_put?, pure_bind, Stack.applySlots?_slots]
    rfl
  unfold evaluate? evaluate
  rw [collapse?_eq, liftM_bind]
  refine bind_congr fun survivors => ?_
  rw [liftM_bind, ← mapM_lift fun _ _ => rfl]
  simp only [liftM_bind, liftM_pure, stacked]

end

/-- the value of a cell while the cells `opened` are being evaluated, every access by position -/
def value? (f : Fit) (catalog : Catalog) (opened : List Cell) (c : Cell) :
    OptionT (StateM Cache) Float :=
  OptionT.mk fun cache =>
    match cache[c]? with
    | some known => (some known, cache)
    | none =>
      let base := f.baseValue catalog c
      if (f.get? c.item).isNone then (some base, cache)
      else if _h : f.edges c = [] then (some base, cache.insert c base)
      else if _ho : c ∈ opened then (some base, cache)
      else
        let (result, cache) :=
          (f.evaluate? catalog (fun d => f.value? catalog (c :: opened) d) c).run cache
        (result, (result.map fun value => cache.insert c value).getD cache)
termination_by (f.unopened opened).length
decreasing_by exact length_unopened_lt f opened c _h _ho

theorem value?_eq (f : Fit) (catalog : Catalog) (opened : List Cell) (c : Cell) :
    f.value? catalog opened c = liftM (f.value catalog opened c) := by
  induction opened, c using value_induction (f := f) with
  | step opened c ih =>
    refine OptionT.ext (funext fun cache => ?_)
    obtain ⟨v, after, h⟩ : ∃ v after, f.value catalog opened c cache = (v, after) := ⟨_, _, rfl⟩
    have lifted : (liftM (f.value catalog opened c) : OptionT (StateM Cache) Float).run cache =
        (some v, after) := by
      show ((some (f.value catalog opened c cache).1,
        (f.value catalog opened c cache).2) : _ × Cache) = _
      rw [h]
    rw [lifted, value?]
    show (match cache[c]? with | some known => (some known, cache) | none => _) = _
    cases exit_of_value h with
    | cached known => rw [known]
    | missing unknown absent => simp [unknown, absent]
    | unmodified unknown present bare => simp [unknown, present, bare]
    | circular unknown modified again =>
      simp [unknown, present_of_edges modified, modified, again]
    | @evaluated v after unknown modified fresh run =>
      have inside : (fun d => f.value? catalog (c :: opened) d) =
          fun d => liftM (f.value catalog (c :: opened) d) := funext (ih modified fresh)
      have checked : (f.evaluate? catalog (fun d => f.value? catalog (c :: opened) d) c).run cache =
          (some v, after) := by
        rw [inside, evaluate?_eq, ← answered_dialogue]
        show ((fun r : Float × Cache => (some r.1, r.2))
          ((f.dialogue catalog c).answered (f.value catalog (c :: opened)) cache)) = _
        rw [run]
      simp [unknown, present_of_edges modified, modified, fresh, checked]

def itemValues? (f : Fit) (catalog : Catalog) (item : Item) :
    OptionT (StateM Cache) (Map AttributeId Float) := do
  let pairs ← item.attributes.keys.mapM fun a => do
    let value ← f.value? catalog [] ⟨item.id, a⟩
    return (a, value)
  return Map.lastRows Prod.fst Prod.snd pairs

def resolveRest? (f : Fit) (catalog : Catalog) : OptionT (StateM Cache) Values := do
  let rows ← f.items.toList.mapM fun item => do
    let values ← f.itemValues? catalog item
    return (item.id, values)
  return Map.lastRows Prod.fst Prod.snd rows

/-- the values of all attributes that the items declare, every access by position; none if one finds
nothing -/
def resolveAll? (f : Fit) (catalog : Catalog) : Option Values := ((f.resolveRest? catalog).run ∅).1

theorem itemValues?_eq (f : Fit) (catalog : Catalog) (item : Item) :
    f.itemValues? catalog item = liftM (f.itemValues catalog item) := by
  unfold itemValues? itemValues
  rw [liftM_bind, ← mapM_lift fun _ _ => rfl]
  simp only [value?_eq, liftM_bind, liftM_pure]

theorem resolveAll?_eq (f : Fit) (catalog : Catalog) :
    f.resolveAll? catalog = some (f.resolveAll catalog) := by
  have rest : f.resolveRest? catalog = liftM (f.resolveRest catalog) := by
    unfold resolveRest? resolveRest
    rw [liftM_bind, ← mapM_lift fun _ _ => rfl]
    simp only [itemValues?_eq, liftM_bind, liftM_pure]
  unfold resolveAll?
  rw [rest]
  rfl

end Fit

end Fitting
