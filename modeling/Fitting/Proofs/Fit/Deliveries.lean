import Mathlib.Data.Option.Basic
import Fitting.Proofs.Fit.Arranged

/-!
# What attaching does to a fit

The edges are attached from a list that is made before the first of them is.  A loop that looks up
items and targets in the fit as it stands, source after source and modifier after modifier, attaches
the same: what it looks at does not depend on attributes.

* `Acts`              the items that a modifier acts on, domain by domain;
* `targets_congr`     they are the same in two fits whose items differ in their attributes only;
* `deliveries`        each modifier of each item with each of its targets, in the order of the
                      sources;
* `attachInTurn_eq`   the loop attaches what the list attaches;
* `Extended`          what becomes of an attribute;
* `edgeCount_attachAll`   how many edges there are then;
* `applyModifiers_delivered`   all of this for the modifiers of a fit.
-/

namespace Fitting

theorem Item.charge?_of_owner? {i : Item} {m : Handle} (h : i.owner? = some m) :
    i.charge? = none := by
  cases hc : i.charge? with
  | none => rfl
  | some c => cases (i.kind_of_charge? hc).symm.trans (i.kind_of_owner? h)

def Item.edgeCount (i : Item) : Nat := (i.attributes.toList.map fun row => row.2.edges.length).sum

namespace Fit

/-! ### targets -/

/-- a modifier of `item` with this domain acts on the item of the handle -/
inductive Acts (f : Fit) (source : Handle) (item : Item) (sourceType : TypeId) :
    Domain → Handle → Prop where
  | item : f.Acts source item sourceType .item source
  | ship : f.Acts source item sourceType .ship hull
  | pilot : f.Acts source item sourceType .pilot pilot
  | charge {h : Handle} (loaded : item.charge? = some h) : f.Acts source item sourceType .other h
  | owner {h : Handle} (inside : item.owner? = some h) : f.Acts source item sourceType .other h
  | location {h : Handle} {target : Item} (there : f.get? h = some target) :
      f.Acts source item sourceType .location h
  | locationGroup {h : Handle} {target : Item} {group : GroupId} (there : f.get? h = some target)
      (member : target.group = group) : f.Acts source item sourceType (.locationGroup group) h
  | namedSkill {h : Handle} {target : Item} {skill : TypeId} (there : f.get? h = some target)
      (required : target.requires skill) :
        f.Acts source item sourceType (.requiredSkill (.type skill)) h
  | ownSkill {h : Handle} {target : Item} (there : f.get? h = some target)
      (required : target.requires sourceType) :
        f.Acts source item sourceType (.requiredSkill .source) h

section
variable {f : Fit} (numbered : f.Numbered) {source : Handle} {item : Item}
include numbered

theorem acts_of_mem_targets (hs : f.get? source = some item) {sourceType : TypeId} {domain : Domain}
    {h : Handle}
    (hm : h ∈ f.targets source sourceType domain) : f.Acts source item sourceType domain h := by
  unfold targets at hm
  rw [hs] at hm
  cases domain with
  | item =>
    obtain rfl := List.mem_singleton.mp hm
    exact .item
  | ship =>
    obtain rfl := List.mem_singleton.mp hm
    exact .ship
  | pilot =>
    obtain rfl := List.mem_singleton.mp hm
    exact .pilot
  | other =>
    rcases (Option.orElse_eq_some _ _ _).mp (Option.mem_toList.mp hm) with loaded | ⟨-, inside⟩
    · exact .charge loaded
    · exact .owner inside
  | location =>
    obtain ⟨target, there⟩ := Option.ne_none_iff_exists'.mp (mem_handles.mp hm)
    exact .location there
  | locationGroup group =>
    obtain ⟨target, there, member⟩ := (mem_idsWhere_iff numbered).mp hm
    exact .locationGroup there (eq_of_beq member)
  | requiredSkill skill =>
    obtain ⟨target, there, required⟩ := (mem_idsWhere_iff numbered).mp hm
    cases skill with
    | type skill => exact .namedSkill there required
    | source => exact .ownSkill there required

theorem mem_targets_of_acts (hs : f.get? source = some item) {sourceType : TypeId} {domain : Domain}
    {h : Handle}
    (acts : f.Acts source item sourceType domain h) : h ∈ f.targets source sourceType domain := by
  unfold targets
  rw [hs]
  cases acts with
  | item => exact List.mem_singleton_self _
  | ship => exact List.mem_singleton_self _
  | pilot => exact List.mem_singleton_self _
  | charge loaded => exact Option.mem_toList.mpr ((Option.orElse_eq_some _ _ _).mpr (.inl loaded))
  | owner inside =>
    have unloaded : item.charge? = none := item.charge?_of_owner? inside
    exact Option.mem_toList.mpr ((Option.orElse_eq_some _ _ _).mpr (.inr ⟨unloaded, inside⟩))
  | location there => exact mem_handles.mpr (Option.ne_none_iff_exists'.mpr ⟨_, there⟩)
  | locationGroup there member =>
    exact (mem_idsWhere_iff numbered).mpr ⟨_, there, beq_iff_eq.mpr member⟩
  | namedSkill there required => exact (mem_idsWhere_iff numbered).mpr ⟨_, there, required⟩
  | ownSkill there required => exact (mem_idsWhere_iff numbered).mpr ⟨_, there, required⟩

end

/-! ### what does not depend on attributes -/

/-- the items of `g` differ from those of `f` in their attributes only -/
def SameShells (f g : Fit) : Prop := ∀ h, (g.get? h).map Item.shell = (f.get? h).map Item.shell

section
variable {f g : Fit}

theorem shells_congr (same : f.SameShells g) :
    g.items.toList.map Item.shell = f.items.toList.map Item.shell := by
  refine List.ext_getElem? fun i => ?_
  rw [List.getElem?_map, List.getElem?_map, Array.getElem?_toList, Array.getElem?_toList]
  exact same ⟨i⟩

theorem size_congr (same : f.SameShells g) : g.size = f.size := by
  have lengths := congrArg List.length (shells_congr same)
  rwa [List.length_map, List.length_map] at lengths

theorem handles_congr (same : f.SameShells g) : g.handles = f.handles := by
  unfold handles
  rw [size_congr same]

theorem idsWhere_congr (same : f.SameShells g) {p : Item → Bool}
    (hidden : ∀ i : Item, p i.shell = p i) : g.idsWhere p = f.idsWhere p := by
  have shells : ∀ items : List Item,
      (items.filter p).map Item.id = ((items.map Item.shell).filter p).map Item.id := by
    have kept : p ∘ Item.shell = p := funext hidden
    intro items
    rw [List.filter_map, List.map_map, kept]
    rfl
  unfold idsWhere
  rw [shells, shells_congr same, ← shells]

theorem targets_congr (same : f.SameShells g) (source : Handle) (sourceType : TypeId)
    (domain : Domain) :
    g.targets source sourceType domain = f.targets source sourceType domain := by
  have shells := same source
  unfold targets
  cases hg : g.get? source with
  | none =>
    rw [hg] at shells
    rw [Option.map_eq_none_iff.mp shells.symm]
  | some item' =>
    rw [hg] at shells
    obtain ⟨item, hf, shell⟩ := Option.map_eq_some_iff.mp shells.symm
    rw [hf]
    cases domain with
    | other =>
      have charge : item.shell.charge? = item'.shell.charge? := congrArg Item.charge? shell
      have owner : item.shell.owner? = item'.shell.owner? := congrArg Item.owner? shell
      exact congrArg Option.toList (congrArg₂ (· <|> ·) charge owner).symm
    | location => exact handles_congr same
    | locationGroup group => exact idsWhere_congr same (fun _ => rfl)
    | requiredSkill skill => exact idsWhere_congr same (fun _ => rfl)
    | _ => rfl

end

/-! ### deliveries -/

/-- a modifier of an item, on its way to one of its targets -/
structure Delivery where
  source : Handle
  item : Item
  modifier : Modifier
  target : Handle

namespace Delivery
variable (d : Delivery) (catalog : Catalog) (rules : Rules)

def cell : Cell := ⟨d.target, d.modifier.modified⟩

/-- the edge says what the modifier says; it is penalized unless its attribute is stackable or its
source exempt, and in any case if its effect is that of a warfare buff -/
def edge : Edge where
  source := d.source
  sourceAttribute := d.modifier.modifying
  operation := d.modifier.operation
  effect := d.modifier.effect
  category := d.modifier.category
  penalized :=
    (¬ catalog.isStackable d.modifier.modified ∧ d.item.category ∉ rules.exemptCategories) ∨
    d.modifier.effect.value < 0
  dbuff := d.modifier.dbuff

theorem edge_eq : d.edge catalog rules = edgeOf catalog rules d.source d.item d.modifier := by
  simp [edge, edgeOf, isPenalized, Rules.isExempt, Modifier.isDbuff, EffectId.isSynthetic]

end Delivery

/-- source after source in the order of the fit, modifier after modifier in the order of the index,
target after target in the order of the fit -/
def deliveries (f : Fit) (index : ModifierIndex) : List Delivery :=
  f.entries.flatMap fun (source, item) =>
    (index.forType item.type).flatMap fun m =>
      (f.targets source m.sourceType m.domain).map fun target => ⟨source, item, m, target⟩

section
variable (f : Fit) (index : ModifierIndex) (catalog : Catalog) (rules : Rules)

theorem attachments_eq : f.attachments index catalog rules =
    (f.deliveries index).map fun d => ⟨d.cell, d.edge catalog rules⟩ := by
  simp only [attachments, deliveries, List.map_flatMap, List.map_map, Delivery.edge_eq]
  rfl

theorem edgesTo_eq (c : Cell) : edgesTo c (f.attachments index catalog rules) =
    ((f.deliveries index).filter fun d => d.cell = c).map (fun d => d.edge catalog rules) := by
  unfold edgesTo
  rw [attachments_eq, List.filter_map, List.map_map]
  rfl

end

/-! ### source after source -/

/-- two loops do the same if they do on every state that keeps an invariant -/
theorem foldl_eq_of_invariant {σ ι : Type} {I : σ → Prop} {step step' : σ → ι → σ} {l : List ι}
    {s : σ} (start : I s)
    (same : ∀ s, I s → ∀ i ∈ l, step s i = step' s i) (keep : ∀ s, I s → ∀ i ∈ l, I (step' s i)) :
    l.foldl step s = l.foldl step' s := by
  have both : l.foldl step s = l.foldl step' s ∧ I (l.foldl step' s) := by
    refine List.foldl_rel (r := fun s s' => s = s' ∧ I s') ⟨rfl, start⟩ fun i hi s s' h => ?_
    obtain ⟨rfl, h⟩ := h
    exact ⟨same s h i hi, keep s h i hi⟩
  exact both.1

section
variable (index : ModifierIndex) (catalog : Catalog) (rules : Rules)

/-- a modifier attached to the targets it has in the fit as it stands -/
def attachEach (source : Handle) (item : Item) (counted : Fit × Nat) (m : Modifier) : Fit × Nat :=
  (counted.1.targets source m.sourceType m.domain).foldl
    (fun counted target =>
      attachNext catalog counted ⟨⟨target, m.modified⟩, edgeOf catalog rules source item m⟩)
    counted

/-- the modifiers of one item, looked up in the fit as it stands, attached one after the other -/
def attachFrom (counted : Fit × Nat) (source : Handle) : Fit × Nat :=
  match counted.1.get? source with
  | none => counted
  | some item => (index.forType item.type).foldl (attachEach catalog rules source item) counted

/-- the modifiers of all items attached source after source, and the number of edges that were -/
def attachInTurn (f : Fit) : Fit × Nat := f.handles.foldl (attachFrom index catalog rules) (f, 0)

variable {catalog} {f : Fit} {counted : Fit × Nat}

theorem SameShells.foldl (same : f.SameShells counted.1) (atts : List Attachment) :
    f.SameShells (atts.foldl (attachNext catalog) counted).1 := by
  refine List.foldlRecOn
    (motive := fun counted : Fit × Nat => f.SameShells counted.1) atts _ same ?_
  intro counted same att _ h
  rw [← attachNext_fst, shell_attachOne]
  exact same h

theorem attachEach_eq (same : f.SameShells counted.1) (source : Handle) (item : Item)
    (m : Modifier) :
    attachEach catalog rules source item counted m =
      ((f.targets source m.sourceType m.domain).map fun target =>
        (⟨⟨target, m.modified⟩, edgeOf catalog rules source item m⟩ : Attachment)).foldl
          (attachNext catalog) counted := by
  unfold attachEach
  rw [targets_congr same, List.foldl_map]

theorem attachFrom_eq (same : f.SameShells counted.1) {source : Handle} {item : Item}
    (hs : f.get? source = some item) :
    attachFrom index catalog rules counted source =
      ((index.forType item.type).flatMap fun m =>
        (f.targets source m.sourceType m.domain).map fun target =>
          (⟨⟨target, m.modified⟩, edgeOf catalog rules source item m⟩ : Attachment)).foldl
            (attachNext catalog) counted := by
  obtain ⟨item', hs', shell⟩ := Option.map_eq_some_iff.mp ((same source).trans (congrArg _ hs))
  have type : item'.shell.type = item.shell.type := congrArg Item.type shell
  -- an edge says nothing of the attributes of its source
  have each : ∀ counted m, attachEach catalog rules source item'.shell counted m =
      attachEach catalog rules source item.shell counted m := by
    rw [shell]
    exact fun _ _ => rfl
  unfold attachFrom
  rw [hs', List.foldl_flatMap]
  show (index.forType item'.shell.type).foldl _ _ = _
  rw [type]
  refine foldl_eq_of_invariant (I := fun counted : Fit × Nat => f.SameShells counted.1) same ?_ ?_
  · intro counted same m _
    exact (each counted m).trans (attachEach_eq rules same source item m)
  · intro counted same m _
    exact same.foldl _

theorem attachInTurn_eq (f : Fit) :
    f.attachInTurn index catalog rules = f.applyModifiers index catalog rules := by
  unfold attachInTurn
  rw [← f.map_fst_entries, List.foldl_map]
  show _ = (f.attachments index catalog rules).foldl (attachNext catalog) (f, 0)
  unfold attachments
  rw [List.foldl_flatMap]
  refine foldl_eq_of_invariant (I := fun counted : Fit × Nat => f.SameShells counted.1)
    (fun _ => rfl) ?_ ?_
  · intro counted same (source, item) he
    exact attachFrom_eq index rules same (mem_entries.mp he)
  · intro counted same (source, item) _
    exact same.foldl _

end

/-! ### what becomes of an attribute -/

/-- what becomes of an attribute by the edges that are meant for it: one that is declared takes them
all, any other is declared by the first assignment, and takes that and what comes after it -/
inductive Extended (catalog : Catalog) (a : AttributeId) (edges : List Edge) :
    Option Attribute → Option Attribute → Prop where
  | declared (state : Attribute) :
      Extended catalog a edges (some state) (some { state with edges := state.edges ++ edges })
  | seeded {before after : List Edge} {first : Edge} (parts : edges = before ++ first :: after)
      (silent : ∀ e ∈ before, ¬ e.operation.isAssign) (assigns : first.operation.isAssign) :
      Extended catalog a edges none (some { base := catalog.default a, edges := first :: after })
  | ignored (silent : ∀ e ∈ edges, ¬ e.operation.isAssign) : Extended catalog a edges none none

theorem extended_foldl (catalog : Catalog) (a : AttributeId) (edges : List Edge)
    (state : Option Attribute) :
    Extended catalog a edges state
      (edges.foldl (fun state e => extend catalog a e state) state) := by
  cases state with
  | some state =>
    rw [foldl_extend_some]
    exact .declared state
  | none =>
    rw [foldl_extend_none]
    cases hd : edges.dropWhile (fun e => !e.operation.isAssign) with
    | nil =>
      refine .ignored fun e he => ?_
      rw [dropWhile_eq_nil.mp hd e he]
      exact Bool.false_ne_true
    | cons first after =>
      have parts :=
        List.takeWhile_append_dropWhile (p := fun e : Edge => !e.operation.isAssign) (l := edges)
      rw [hd] at parts
      refine .seeded parts.symm (fun e he => ?_) ?_
      · have silent := List.mem_takeWhile_imp he
        simpa using silent
      · have assigns := List.head_dropWhile_not (fun e : Edge => !e.operation.isAssign)
          (hd ▸ List.cons_ne_nil first after)
        simpa [hd] using assigns

/-! ### the number of edges -/

def edgeCount (f : Fit) : Nat := (f.items.toList.map Item.edgeCount).sum

theorem length_extend {catalog : Catalog} {a : AttributeId} {e : Edge} {before : Option Attribute}
    {after : Attribute} (h : extend catalog a e before = some after) :
    after.edges.length = (before.map fun state => state.edges.length).getD 0 + 1 := by
  cases before with
  | some state =>
    obtain rfl := Option.some.inj h
    exact List.length_append
  | none =>
    simp only [extend, Option.ite_none_right_eq_some] at h
    obtain ⟨-, h⟩ := h
    obtain rfl := Option.some.inj h
    rfl

theorem sum_map_modify {α : Type} {w : α → Nat} {change : α → α} {a : α} {n : Nat}
    (more : w (change a) = w a + n)
    (l : List α) : ∀ i, l[i]? = some a → ((l.modify i change).map w).sum = (l.map w).sum + n := by
  induction l with
  | nil => exact fun i h => nomatch h
  | cons b l ih =>
    intro i h
    cases i with
    | zero =>
      obtain rfl := Option.some.inj h
      rw [List.modify_zero_cons, List.map_cons, List.map_cons, List.sum_cons, List.sum_cons, more]
      omega
    | succ i =>
      rw [List.modify_succ_cons, List.map_cons, List.map_cons, List.sum_cons, List.sum_cons, ih i h,
        Nat.add_assoc]

theorem edgeCount_attach? {catalog : Catalog} {f g : Fit} {att : Attachment}
    (h : attach? catalog f att = some g) :
    g.edgeCount = f.edgeCount + 1 := by
  rw [attach?_eq] at h
  obtain ⟨item, hi, h⟩ := Option.bind_eq_some_iff.mp h
  obtain ⟨state, hs, rfl⟩ := Option.map_eq_some_iff.mp h
  have more :
      Item.edgeCount { item with attributes := item.attributes.insert att.target.attr state } =
        item.edgeCount + 1 := by
    show ((item.attributes.insert att.target.attr state).toList.map
        fun row => row.2.edges.length).sum =
      (item.attributes.toList.map fun row => row.2.edges.length).sum + 1
    rw [Map.sum_toList_insert fun state : Attribute => state.edges.length,
      Map.sum_toList (fun state : Attribute => state.edges.length) item.attributes att.target.attr,
      length_extend hs]
    omega
  unfold edgeCount modify
  rw [Array.toList_modify]
  exact sum_map_modify more _ _ (Array.getElem?_toList.trans hi)

theorem edgeCount_attachAll (catalog : Catalog) (f : Fit) (atts : List Attachment) :
    (attachAll catalog f atts).1.edgeCount = f.edgeCount + (attachAll catalog f atts).2 := by
  show (atts.foldl (attachNext catalog) (f, 0)).1.edgeCount =
    f.edgeCount + (atts.foldl (attachNext catalog) (f, 0)).2
  refine List.foldlRecOn
    (motive := fun counted : Fit × Nat => counted.1.edgeCount = f.edgeCount + counted.2)
    atts _ rfl ?_
  rintro ⟨g, n⟩ counted att -
  unfold attachNext
  dsimp only at counted ⊢
  cases h : attach? catalog g att with
  | none => exact counted
  | some g' =>
    show g'.edgeCount = f.edgeCount + (n + 1)
    rw [edgeCount_attach? h, counted, Nat.add_assoc]

/-! ### the whole effect -/

/-- what is left of a fit whose modifiers have been attached: all but the attributes is what it was,
and each attribute has received the edges that are meant for it -/
structure Delivered (f : Fit) (index : ModifierIndex) (catalog : Catalog) (rules : Rules)
    (after : Fit) (attached : Nat) : Prop where
  inTurn : f.attachInTurn index catalog rules = (after, attached)
  targets : ∀ source item, f.get? source = some item → ∀ sourceType domain,
    ((f.targets source sourceType domain).Pairwise fun h h' => h.index < h'.index) ∧
    ∀ h, h ∈ f.targets source sourceType domain ↔ f.Acts source item sourceType domain h
  received : ∀ c target, f.get? c.item = some target → ∃ item, after.get? c.item = some item ∧
    item.shell = target.shell ∧
    Extended catalog c.attr
      (((f.deliveries index).filter fun d => d.cell = c).map fun d => d.edge catalog rules)
      target.attributes[c.attr]? item.attributes[c.attr]?
  size : after.size = f.size
  lists : after.modules = f.modules ∧ after.drones = f.drones ∧ after.fighters = f.fighters ∧
    after.implants = f.implants ∧ after.skills = f.skills
  counted : after.edgeCount = f.edgeCount + attached

/-- the whole effect of attaching the modifiers, for a fit whose ids are its handles -/
theorem applyModifiers_delivered (f : Fit) (numbered : f.Numbered) (index : ModifierIndex)
    (catalog : Catalog) (rules : Rules) : f.Delivered index catalog rules
      (f.applyModifiers index catalog rules).1 (f.applyModifiers index catalog rules).2 where
  inTurn := f.attachInTurn_eq index rules
  targets source item hs sourceType domain :=
    ⟨ascending_targets numbered source sourceType domain, fun _ =>
      ⟨acts_of_mem_targets numbered hs, mem_targets_of_acts numbered hs⟩⟩
  received c target ht := by
    have present : f.get? c.item ≠ none := ht ▸ Option.some_ne_none target
    have shell : ((f.applyModifiers index catalog rules).1.get? c.item).map Item.shell =
        some target.shell := by
      rw [← Option.map_some, ← ht]
      exact shell_attachAll f _ _
    obtain ⟨item, hi, same⟩ := Option.map_eq_some_iff.mp shell
    have state : (f.applyModifiers index catalog rules).1.state? c = _ := state?_attachAll present _
    rw [state?_of_get? hi, state?_of_get? ht, edgesTo_eq] at state
    refine ⟨item, hi, same, ?_⟩
    rw [state]
    exact extended_foldl catalog c.attr _ _
  size := size_congr fun h => shell_attachAll f _ h
  lists := by
    refine attachAll_preserves
      (I := fun g => g.modules = f.modules ∧ g.drones = f.drones ∧ g.fighters = f.fighters ∧
        g.implants = f.implants ∧ g.skills = f.skills)
      (fun g att kept => ?_) _ f ⟨rfl, rfl, rfl, rfl, rfl⟩
    rw [attachOne_eq]
    exact kept
  counted := edgeCount_attachAll catalog f _

/-- items of the type of `itemOf` assign an attribute of theirs to every item of the fit -/
def spreading : ModifierIndex where
  byEffect := ∅
  byType := Map.lastRows Prod.fst Prod.snd [(⟨1⟩, [
    { operation := .postAssign
      domain := .location
      modified := ⟨50⟩
      modifying := ⟨51⟩
      sourceType := ⟨1⟩
      effect := ⟨10⟩
      category := .passive
      dbuff := none }])]

/-- the hull declares what is assigned to both, and the pilot gets it declared -/
def spread : Fit := bare (itemOf .hull [(⟨50⟩, ⟨1.0, []⟩)]) (itemOf .pilot [])

theorem applyModifiers_delivered_spread : spread.Numbered ∧
    spread.Delivered spreading .empty {} (spread.applyModifiers spreading .empty {}).1
      (spread.applyModifiers spreading .empty {}).2 ∧
    (spread.applyModifiers spreading .empty {}).2 = 4 :=
  ⟨numbered_bare _ _, applyModifiers_delivered spread (numbered_bare _ _) spreading .empty {},
    by decide⟩

end Fit

end Fitting
