import Fitting.Proofs.Fit.Attached
import Fitting.Proofs.Resolution.Queries
import Fitting.Proofs.Taken

/-!
# What one item attaches to a cell

Whether a modifier reaches an item is decided by the two items and their handles alone.

* `reaches`               the domains, for one item and one target;
* `handlesWhere`          the handles of the items that satisfy a condition; in a numbered fit they
                          are the ids of these items;
* `mem_targets`           the targets of a modifier are the items that it reaches,
* `ascending_targets`     by ascending handles;
* `edgesFrom`             the edges of one item that are meant for a cell;
* `edgesTo_attachments`   the edges meant for a cell, item by item;
* `edges_attachAll`       which of them it takes;
* `isSome_attachAll`      whether it is declared then.
-/

namespace Fitting.Fit

/-- a modifier of `item` with this domain acts on `target` -/
def reaches (h : Handle) (target : Item) (source : Handle) (item : Item) (sourceType : TypeId) :
    Domain → Bool
  | .item => h = source
  | .ship => h = hull
  | .pilot => h = pilot
  | .other => (item.charge? <|> item.owner?) = some h
  | .location => true
  | .locationGroup group => target.group == group
  | .requiredSkill skill => target.requires (skill.resolve sourceType)

/-- the edges of one item that are meant for a cell of `target` -/
def edgesFrom (index : ModifierIndex) (catalog : Catalog) (rules : Rules) (c : Cell) (target : Item)
    (source : Handle) (item : Item) : List Edge :=
  ((index.forType item.type).filter fun m =>
    m.modified = c.attr && reaches c.item target source item m.sourceType m.domain).map
    (edgeOf catalog rules source item)

theorem mem_declared_iff_state {f : Fit} (numbered : f.Numbered) {c : Cell} :
    c ∈ f.declared ↔ (f.state? c).isSome := by
  rw [mem_declared numbered]
  unfold state? Item.declares
  cases f.get? c.item with
  | none => simp
  | some item => simp

/-- the handles of the items that satisfy a condition, in the order of the fit -/
def handlesWhere (f : Fit) (p : Item → Bool) : List Handle :=
  (f.entries.filter (fun e => p e.2)).map Prod.fst

/-- the ids of items are their handles -/
theorem Numbered.idsWhere_eq {f : Fit} (numbered : f.Numbered) (p : Item → Bool) :
    f.idsWhere p = f.handlesWhere p := by
  unfold idsWhere handlesWhere
  rw [← f.map_snd_entries, List.filter_map, List.map_map]
  refine List.map_congr_left fun (h, item) hm => ?_
  exact numbered h item (mem_entries.mp (List.mem_of_mem_filter hm))

section
variable {f : Fit} {h source : Handle} {target item : Item}

theorem mem_handles : h ∈ f.handles ↔ f.get? h ≠ none := by
  obtain ⟨i⟩ := h
  simp [handles, get?, size]

theorem nodup_handlesWhere (f : Fit) (p : Item → Bool) : (f.handlesWhere p).Nodup :=
  (List.filter_sublist.map Prod.fst).nodup f.handles_nodup

theorem mem_handlesWhere_iff {p : Item → Bool} :
    h ∈ f.handlesWhere p ↔ ∃ target, f.get? h = some target ∧ p target := by
  simp [handlesWhere, mem_entries]

theorem mem_handlesWhere (ht : f.get? h = some target) (p : Item → Bool) :
    h ∈ f.handlesWhere p ↔ p target := by
  simp [mem_handlesWhere_iff, ht]

theorem mem_idsWhere_iff (numbered : f.Numbered) {p : Item → Bool} :
    h ∈ f.idsWhere p ↔ ∃ target, f.get? h = some target ∧ p target := by
  rw [numbered.idsWhere_eq, mem_handlesWhere_iff]

/-- the targets of a modifier are the items that it reaches -/
theorem mem_targets (numbered : f.Numbered) (hs : f.get? source = some item)
    (ht : f.get? h = some target)
    (sourceType : TypeId) (domain : Domain) : h ∈ f.targets source sourceType domain ↔
      reaches h target source item sourceType domain := by
  unfold targets
  rw [hs]
  cases domain with
  | item => simp [reaches]
  | ship => simp [reaches]
  | pilot => simp [reaches]
  | other => simp [reaches]
  | location => simp [reaches, mem_handles, ht]
  | locationGroup group =>
    dsimp only
    rw [numbered.idsWhere_eq]
    exact mem_handlesWhere ht _
  | requiredSkill skill =>
    dsimp only
    rw [numbered.idsWhere_eq]
    exact mem_handlesWhere ht _

/-! ### ascending handles -/

theorem ascending_handles (f : Fit) : f.handles.Pairwise fun h h' => h.index < h'.index :=
  List.pairwise_map.mpr List.pairwise_lt_range

theorem ascending_handlesWhere (f : Fit) (p : Item → Bool) :
    (f.handlesWhere p).Pairwise fun h h' => h.index < h'.index := by
  have part : (f.handlesWhere p).Sublist f.handles := by
    rw [← f.map_fst_entries]
    exact List.filter_sublist.map Prod.fst
  exact f.ascending_handles.sublist part

theorem ascending_targets (numbered : f.Numbered) (source : Handle) (sourceType : TypeId)
    (domain : Domain) :
    (f.targets source sourceType domain).Pairwise fun h h' => h.index < h'.index := by
  unfold targets
  split
  · exact .nil
  next item _ =>
    cases domain with
    | item => exact List.pairwise_singleton _ _
    | ship => exact List.pairwise_singleton _ _
    | pilot => exact List.pairwise_singleton _ _
    | other => cases (item.charge? <|> item.owner?) <;> simp
    | location => exact f.ascending_handles
    | locationGroup group =>
      dsimp only
      rw [numbered.idsWhere_eq]
      exact f.ascending_handlesWhere _
    | requiredSkill skill =>
      dsimp only
      rw [numbered.idsWhere_eq]
      exact f.ascending_handlesWhere _

theorem nodup_targets (numbered : f.Numbered) (source : Handle) (sourceType : TypeId)
    (domain : Domain) :
    (f.targets source sourceType domain).Nodup := by
  refine (ascending_targets numbered source sourceType domain).imp fun before same => ?_
  rw [same] at before
  exact Nat.lt_irrefl _ before

end

section
variable {f : Fit} {c : Cell} {target : Item} (index : ModifierIndex) (catalog : Catalog)
  (rules : Rules)

theorem edgesTo_flatMap {ι : Type} (l : List ι) (g : ι → List Attachment) :
    edgesTo c (l.flatMap g) = l.flatMap (fun i => edgesTo c (g i)) := by
  unfold edgesTo
  rw [List.filter_flatMap, List.map_flatMap]

theorem flatMap_ite {α β : Type} (p : α → Bool) (g : α → β) (l : List α) :
    l.flatMap (fun a => if p a then [g a] else []) = (l.filter p).map g := by
  induction l with
  | nil => rfl
  | cons a l ih =>
    rw [List.flatMap_cons, ih, List.filter_cons]
    cases p a <;> rfl

/-- a modifier reaches a cell once or not at all -/
theorem edgesTo_modifier (numbered : f.Numbered) (ht : f.get? c.item = some target)
    {source : Handle} {item : Item} (hs : f.get? source = some item) (m : Modifier) (e : Edge) :
    edgesTo c ((f.targets source m.sourceType m.domain).map (fun h => ⟨⟨h, m.modified⟩, e⟩)) =
      if m.modified = c.attr && reaches c.item target source item m.sourceType m.domain then [e]
      else [] := by
  unfold edgesTo
  rw [List.filter_map, List.map_map]
  -- the targets are distinct, so the cell is among them once at most
  by_cases hm : m.modified = c.attr
  · have meant : (fun att : Attachment => decide (att.target = c)) ∘
        (fun h => (⟨⟨h, m.modified⟩, e⟩ : Attachment)) = fun h => decide (h = c.item) := by
      funext h
      exact decide_eq_decide.mpr ⟨congrArg Cell.item, fun hh => cell_eq hh hm⟩
    have hmem := mem_targets numbered hs ht m.sourceType m.domain
    rw [meant, List.filter_eq]
    cases hr : reaches c.item target source item m.sourceType m.domain with
    | true =>
      rw [List.count_eq_one_of_mem (nodup_targets numbered ..) (hmem.mpr hr)]
      simp [hm]
    | false =>
      rw [List.count_eq_zero_of_not_mem (mt hmem.mp (by simp [hr]))]
      simp
  · have meant : (fun att : Attachment => decide (att.target = c)) ∘
        (fun h => (⟨⟨h, m.modified⟩, e⟩ : Attachment)) = fun _ => false := by
      funext h
      exact decide_eq_false fun hc => hm (congrArg Cell.attr hc)
    rw [meant]
    simp [hm]

/-- the edges that are meant for a cell, item by item -/
theorem edgesTo_attachments (numbered : f.Numbered) (ht : f.get? c.item = some target) :
    edgesTo c (f.attachments index catalog rules) =
      f.entries.flatMap (fun (source, item) =>
        edgesFrom index catalog rules c target source item) := by
  unfold attachments
  rw [edgesTo_flatMap]
  refine List.flatMap_congr fun (source, item) hm => ?_
  have hs : f.get? source = some item := mem_entries.mp hm
  dsimp only
  rw [edgesTo_flatMap]
  simp only [edgesTo_modifier numbered ht hs]
  exact flatMap_ite _ _ _

/-- a declared attribute takes all edges that are meant for it, any other takes them from the first
assignment on -/
theorem edges_attachAll {f : Fit} {c : Cell} (present : f.get? c.item ≠ none)
    (bare : ∀ state, f.state? c = some state → state.edges = []) (atts : List Attachment) :
    (attachAll catalog f atts).1.edges c =
      taken (fun e => e.operation.isAssign) (f.state? c).isSome (edgesTo c atts) := by
  rw [edges_eq_state, state?_attachAll present]
  unfold taken
  cases hs : f.state? c with
  | some state =>
    rw [foldl_extend_some, bare state hs]
    rfl
  | none =>
    rw [foldl_extend_none]
    cases (edgesTo c atts).dropWhile (fun e => !e.operation.isAssign) <;> rfl

/-- a cell is declared then if it was before or an assignment is meant for it -/
theorem isSome_attachAll {f : Fit} {c : Cell} (present : f.get? c.item ≠ none)
    (atts : List Attachment) : ((attachAll catalog f atts).1.state? c).isSome ↔
      (f.state? c).isSome ∨ ∃ e ∈ edgesTo c atts, e.operation.isAssign := by
  rw [state?_attachAll present]
  cases f.state? c with
  | some state => simp [foldl_extend_some]
  | none =>
    rw [foldl_extend_none]
    cases hd : (edgesTo c atts).dropWhile (fun e => !e.operation.isAssign) with
    | nil => simpa using dropWhile_eq_nil.mp hd
    | cons e rest =>
      have assigning := mt dropWhile_eq_nil.mpr (hd ▸ List.cons_ne_nil e rest)
      simpa using assigning

end

end Fitting.Fit
