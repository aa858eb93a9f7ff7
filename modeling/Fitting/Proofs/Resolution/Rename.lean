import Fitting.Proofs.Fit.Targets
import Fitting.Proofs.Resolution.Duplicates

/-!
# Fits with other handles

A handle is only a name.  If all items of a fit stand in another fit under other handles, with the
same edges between them, then their attributes have the same values there, whatever else stands in
the other fit.

* `Edge.rename`, `Cell.rename` …   the same under other handles;
* `collapse_rename`                the edges that count do not depend on handles;
* `Embeds`                         all items of a fit stand in another one, with the same edges;
* `Embeds.plain_eq`                so they have the same values there by plain recursion;
* `Embeds.resolveAll`              and if the fit has no cycle, the same values altogether.
-/

namespace Fitting

/-! ### other handles -/

section
variable (ρ : Handle → Handle)

def Cell.rename (c : Cell) : Cell := ⟨ρ c.item, c.attr⟩

def Edge.rename (e : Edge) : Edge := { e with source := ρ e.source }

def Attribute.rename (state : Attribute) : Attribute :=
  { state with edges := state.edges.map (Edge.rename ρ) }

def Role.rename : Role → Role
  | .module state => .module { state with charge := state.charge.map ρ }
  | .charge owner quantity => .charge (ρ owner) quantity
  | role => role

/-- an item under another handle, whose role names others by other handles -/
def Item.rename (i : Item) : Item := { i with role := i.role.rename ρ, id := ρ i.id }

@[simp] theorem Item.charge?_rename (i : Item) : (i.rename ρ).charge? = i.charge?.map ρ := by
  obtain ⟨role⟩ := i
  cases role <;> rfl

@[simp] theorem Item.owner?_rename (i : Item) : (i.rename ρ).owner? = i.owner?.map ρ := by
  obtain ⟨role⟩ := i
  cases role <;> rfl

@[simp] theorem Item.moduleStatus?_rename (i : Item) :
    (i.rename ρ).moduleStatus? = i.moduleStatus? := by
  obtain ⟨role⟩ := i
  cases role <;> rfl

@[simp] theorem Item.mutations?_rename (i : Item) : (i.rename ρ).mutations? = i.mutations? := by
  obtain ⟨role⟩ := i
  cases role <;> rfl

end

namespace Fit

/-! ### the edges that count -/

section
variable (φ : Edge → Edge) (buffs : ∀ e, (φ e).dbuff = e.dbuff)
include buffs

theorem buffed_rename (b : DbuffId) (edges : List (Edge × Nat)) :
    buffed b (edges.map (Prod.map φ id)) = (buffed b edges).map (Prod.map φ id) := by
  unfold buffed
  rw [List.filter_map]
  refine congrArg (List.map _) (List.filter_congr fun m _ => ?_)
  simp [buff?, buffs]

theorem dbuffGroups_rename (edges : List Edge) : dbuffGroups (edges.map φ) =
    (dbuffGroups edges).map (fun _ members => members.map (Prod.map φ id)) := by
  refine Std.ExtTreeMap.ext_getElem? fun b => ?_
  rw [Std.ExtTreeMap.getElem?_map, getElem?_dbuffGroups, getElem?_dbuffGroups, List.zipIdx_map,
    buffed_rename φ buffs]
  by_cases h : buffed b edges.zipIdx = [] <;> simp [h]

theorem losers_rename (members : List (Edge × Nat)) (values : List Float) :
    losers (members.map (Prod.map φ id)) values = losers members values := by
  have mode : groupMode (members.map (Prod.map φ id)) = groupMode members := by
    cases members with
    | nil => rfl
    | cons m members =>
      exact congrArg (fun tag => (tag.map DbuffTag.mode).getD .default) (buffs m.1)
  unfold losers
  rw [mode]
  cases (groupMode members).select values with
  | none => rfl
  | some winner =>
    dsimp only
    rw [List.eraseIdx_map, List.map_map]
    rfl

variable (value' value : Cell → Float) (same : ∀ e, value' (φ e).cell = value e.cell)
include same

theorem dropped_rename (edges : List Edge) :
    dropped value' (edges.map φ) = dropped value edges := by
  have each : ∀ members : List (Edge × Nat),
      (members.map (Prod.map φ id)).map (fun m => value' m.1.cell) =
        members.map (fun m => value m.1.cell) := by
    intro members
    rw [List.map_map]
    exact List.map_congr_left fun m _ => same m.1
  unfold dropped
  rw [dbuffGroups_rename φ buffs, Std.ExtTreeMap.toList_map, List.map_map]
  have groups : ((dbuffGroups edges).toList.map
      (Prod.snd ∘ fun p => (p.1, p.2.map (Prod.map φ id)))) =
      ((dbuffGroups edges).toList.map Prod.snd).map (List.map (Prod.map φ id)) := by
    rw [List.map_map]
    rfl
  rw [groups, List.filter_map, List.map_map]
  refine congrArg List.flatten ?_
  have lengths : (fun members : List (Edge × Nat) => decide (1 < members.length)) ∘
      List.map (Prod.map φ id) = fun members => decide (1 < members.length) := by
    funext members
    simp
  rw [lengths]
  refine List.map_congr_left fun members _ => ?_
  show losers (members.map _) ((members.map _).map _) = _
  rw [losers_rename φ buffs, each]

theorem collapse_rename (edges : List Edge) :
    collapse (m := Id) value' (edges.map φ) = (collapse (m := Id) value edges).map φ := by
  rw [collapse_id, collapse_id, dropped_rename φ buffs value' value same, List.zipIdx_map,
    List.filter_map, List.map_map, List.map_map]
  rfl

end

/-! ### a fit in another one -/

/-- all items of the fit stand in `f'` under other handles, with the same edges between them -/
structure Embeds (ρ : Handle → Handle) (f f' : Fit) : Prop where
  numbered : f.Numbered
  numbered' : f'.Numbered
  shells : ∀ h, (f'.get? (ρ h)).map Item.shell = (f.get? h).map fun i => (i.rename ρ).shell
  states : ∀ c, f'.state? (c.rename ρ) = (f.state? c).map (Attribute.rename ρ)

namespace Embeds
variable {ρ : Handle → Handle} {f f' : Fit} (emb : f.Embeds ρ f') {catalog : Catalog}
include emb

/-- what an item says without its attributes -/
theorem map_get? {β : Type} (look : Item → β) (hidden : ∀ i : Item, look i.shell = look i)
    (h : Handle) :
    (f'.get? (ρ h)).map look = (f.get? h).map fun i => look (i.rename ρ) := by
  rw [← Item.map_shell hidden, emb.shells, Option.map_map]
  exact Option.map_congr fun i _ => hidden _

theorem bind_get? {β : Type} (look : Item → Option β) (hidden : ∀ i : Item, look i.shell = look i)
    (h : Handle) :
    (f'.get? (ρ h)).bind look = (f.get? h).bind fun i => look (i.rename ρ) := by
  rw [← Item.bind_shell hidden, emb.shells, Option.bind_map]
  exact congrArg (Option.bind _) (funext fun i => hidden _)

theorem get?_eq_none {h : Handle} : f'.get? (ρ h) = none ↔ f.get? h = none := by
  have mapped := emb.map_get? (fun _ => ()) (fun _ => rfl) h
  rw [← Option.map_eq_none_iff (f := fun _ => ()), mapped, Option.map_eq_none_iff]

theorem edges_eq (c : Cell) : f'.edges (c.rename ρ) = (f.edges c).map (Edge.rename ρ) := by
  rw [edges_eq_state, edges_eq_state, emb.states]
  cases f.state? c <;> rfl

theorem isActive_eq (e : Edge) : f'.isActive (e.rename ρ) = f.isActive e := by
  have status := emb.bind_get? Item.moduleStatus? (fun _ => rfl) e.source
  simp only [Item.moduleStatus?_rename] at status
  unfold isActive Edge.rename
  dsimp only
  rw [status]

theorem active_eq (c : Cell) : (f'.edges (c.rename ρ)).filter f'.isActive =
    ((f.edges c).filter f.isActive).map (Edge.rename ρ) := by
  rw [emb.edges_eq, List.filter_map]
  exact congrArg (List.map _) (List.filter_congr fun e _ => emb.isActive_eq e)

theorem sources_eq (c : Cell) : f'.sources (c.rename ρ) = (f.sources c).map (Cell.rename ρ) := by
  unfold sources
  rw [emb.active_eq, List.map_map, List.map_map]
  rfl

theorem baseValue_eq (c : Cell) : f'.baseValue catalog (c.rename ρ) = f.baseValue catalog c := by
  have stated : ∀ (g : Fit) (d : Cell), g.base? d = (g.state? d).map Attribute.base := by
    intro g d
    unfold base? state? Item.base?
    cases g.get? d.item <;> rfl
  have base : f'.base? (c.rename ρ) = f.base? c := by
    rw [stated, stated, emb.states, Option.map_map]
    rfl
  unfold baseValue
  rw [base]
  rfl

theorem evaluate_eq (value : Cell → Float) (c : Cell) :
    f'.evaluate (m := Id) catalog value (c.rename ρ) =
      f.evaluate (m := Id) catalog (fun d => value (d.rename ρ)) c := by
  have counting := fun edges => collapse_rename (Edge.rename ρ) (fun _ => rfl) value
    (fun d => value (d.rename ρ)) (fun _ => rfl) edges
  rw [evaluate_id, evaluate_id, emb.active_eq, emb.baseValue_eq, counting, List.map_map]
  rfl

/-! ### the values -/

theorem offCycles {c : Cell} (h : f.OffCycles c) : f'.OffCycles (c.rename ρ) := by
  have acc := OffCycles.acc [] (by simp) h
  induction acc with
  | intro c _ ih =>
    refine offCycles_iff.mpr fun d' hd' => ?_
    rw [emb.sources_eq] at hd'
    obtain ⟨d, hd, rfl⟩ := List.mem_map.mp hd'
    exact ih d hd (h.source hd)

/-- by plain recursion the values are the same, for so are those of the sources -/
theorem plain_eq {c : Cell} (h : f.OffCycles c) :
    f'.plain catalog (c.rename ρ) (emb.offCycles h) = f.plain catalog c h := by
  have acc := OffCycles.acc [] (by simp) h
  induction acc with
  | intro c _ ih =>
    by_cases absent : f.get? c.item = none
    · have absent' : f'.get? (c.rename ρ).item = none := emb.get?_eq_none.mpr absent
      rw [plain_missing _ absent, plain_missing _ absent']
      rfl
    · have present' : f'.get? (c.rename ρ).item ≠ none := mt emb.get?_eq_none.mp absent
      have stated : ∀ d' (hd : d' ∈ f'.sources (c.rename ρ)),
          f'.resolved catalog d' = f'.plain catalog d' ((emb.offCycles h).source hd) :=
        fun d' hd => resolved_eq_plain _
      have renamed : ∀ d (hd : d ∈ f.sources c),
          f'.resolved catalog (d.rename ρ) = f.plain catalog d (h.source hd) :=
        fun d hd => (resolved_eq_plain (emb.offCycles (h.source hd))).trans (ih d hd (h.source hd))
      rw [Fit.plain_eq _ present' (f'.resolved catalog) stated,
        Fit.plain_eq _ absent (fun d => f'.resolved catalog (d.rename ρ)) renamed, emb.evaluate_eq]

theorem mem_declared (c : Cell) : c.rename ρ ∈ f'.declared ↔ c ∈ f.declared := by
  rw [mem_declared_iff_state emb.numbered, mem_declared_iff_state emb.numbered', emb.states,
    Option.isSome_map]

/-- without cycles all values are the same -/
theorem resolveAll_eq (acyclic : f.Acyclic) (h : Handle) :
    (f'.resolveAll catalog)[ρ h]? = (f.resolveAll catalog)[h]? := by
  have cells : ∀ a, (f'.resolveAll catalog).get? ⟨ρ h, a⟩ = (f.resolveAll catalog).get? ⟨h, a⟩ := by
    intro a
    have off := acyclic.offCycles ⟨h, a⟩
    by_cases declared : (⟨h, a⟩ : Cell) ∈ f.declared
    · have declared' := (emb.mem_declared ⟨h, a⟩).mpr declared
      rw [((f.value_eq_plain catalog [] _ off).2 declared).2, ← emb.plain_eq off]
      exact ((f'.value_eq_plain catalog [] _ (emb.offCycles off)).2 declared').2
    · have declared' := mt (emb.mem_declared ⟨h, a⟩).mp declared
      have unset := mt (f.isSome_resolveAll_get? catalog _).mp declared
      have unset' := mt (f'.isSome_resolveAll_get? catalog _).mp declared'
      exact (Option.not_isSome_iff_eq_none.mp unset').trans
        (Option.not_isSome_iff_eq_none.mp unset).symm
  have rows : ρ h ∈ f'.resolveAll catalog ↔ h ∈ f.resolveAll catalog := by
    unfold resolveAll
    rw [mem_resolveRest, mem_resolveRest, emb.numbered.mem_byId, emb.numbered'.mem_byId, ne_eq,
      emb.get?_eq_none]
  exact Values.row_congr rows cells

end Embeds

end Fit

end Fitting
