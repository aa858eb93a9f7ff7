import Fitting.Fit.Attachment
import Fitting.Fit.Resolution

/-!
# What attaching does to a cell

Attaching changes attributes and nothing else, and what a cell holds afterwards depends on the edges
alone that are meant for it.

* `state?`               what a cell holds: the declared attribute, if there is one;
* `mem_attachments`      where the edges come from;
* `shell_attachAll`      the items stay what they are but for their attributes, and keep their ids;
* `state?_attachAll`     a cell takes the edges that are meant for it, one after the other;
* `foldl_extend_some`    a declared attribute takes them all;
* `foldl_extend_none`    one that is not declared takes them from the first assignment on;
* `baseValue_attachAll`  either way its base value is what it was;
* `mem_edges_attachAll`  so what acts on a cell was there before or was meant for it.
-/

namespace Fitting

/-- an item without its attributes -/
def Item.shell (i : Item) : Item := { i with attributes := ∅ }

section
variable {β : Type}

/-- the shell of an item says all that does not depend on attributes -/
theorem Item.map_shell {look : Item → β} (hidden : ∀ i : Item, look i.shell = look i)
    (o : Option Item) :
    (o.map shell).map look = o.map look := by
  cases o with
  | none => rfl
  | some i => exact congrArg some (hidden i)

theorem Item.bind_shell {look : Item → Option β} (hidden : ∀ i : Item, look i.shell = look i)
    (o : Option Item) :
    (o.map shell).bind look = o.bind look := by
  cases o with
  | none => rfl
  | some i => exact hidden i

end

namespace Fit

/-- what a cell holds: the declared attribute, if there is one -/
def state? (f : Fit) (c : Cell) : Option Attribute := (f.get? c.item).bind (·.attributes[c.attr]?)

/-- the edges that are meant for a cell -/
def edgesTo (c : Cell) (atts : List Attachment) : List Edge :=
  (atts.filter (fun att => att.target = c)).map Attachment.edge

/-- an attribute with one more edge; one that is not declared takes none, unless the edge assigns -/
def extend (catalog : Catalog) (a : AttributeId) (e : Edge) : Option Attribute → Option Attribute
  | some state => some { state with edges := state.edges ++ [e] }
  | none => if e.operation.isAssign then some { base := catalog.default a, edges := [e] } else none

/-- the fit with one more edge, or as it is if there is nothing to attach it to -/
def attachOne (catalog : Catalog) (f : Fit) (att : Attachment) : Fit :=
  (attach? catalog f att).getD f

/-- an item that one more edge is meant for -/
def extendItem (catalog : Catalog) (att : Attachment) (item : Item) : Item :=
  match extend catalog att.target.attr att.edge item.attributes[att.target.attr]? with
  | some state => { item with attributes := item.attributes.insert att.target.attr state }
  | none => item

theorem mem_attachments {f : Fit} {index : ModifierIndex} {catalog : Catalog} {rules : Rules}
    {att : Attachment} : att ∈ f.attachments index catalog rules ↔
      ∃ source item, f.get? source = some item ∧ ∃ m ∈ index.forType item.type,
        ∃ target ∈ f.targets source m.sourceType m.domain,
          att = ⟨⟨target, m.modified⟩, edgeOf catalog rules source item m⟩ := by
  simp only [attachments, List.mem_flatMap, List.mem_map, Prod.exists, mem_entries, eq_comm]

/-! ### what a fit is made of -/

theorem cell_eq {c d : Cell} (item : c.item = d.item) (attr : c.attr = d.attr) : c = d := by
  cases c
  cases d
  simp_all

theorem ext_get? {f g : Fit} (items : ∀ h, f.get? h = g.get? h) (modules : f.modules = g.modules)
    (drones : f.drones = g.drones) (fighters : f.fighters = g.fighters)
    (implants : f.implants = g.implants) (skills : f.skills = g.skills) : f = g := by
  have hi : f.items = g.items := Array.ext_getElem? fun i => items ⟨i⟩
  cases f
  cases g
  simp_all

theorem get?_hull (f : Fit) : f.get? hull = some f.hullItem := Array.getElem?_eq_getElem _

theorem get?_pilot (f : Fit) : f.get? pilot = some f.pilotItem := Array.getElem?_eq_getElem _

/-- an item has its id whatever its attributes are -/
theorem Numbered.of_shells {f g : Fit} (numbered : f.Numbered)
    (shells : ∀ h, (g.get? h).map Item.shell = (f.get? h).map Item.shell) : g.Numbered := by
  intro h item found
  have shell := shells h
  rw [found, Option.map_some, eq_comm, Option.map_eq_some_iff] at shell
  obtain ⟨item', found', same⟩ := shell
  exact (congrArg Item.id same).symm.trans (numbered h item' found')

theorem state?_of_get? {f : Fit} {c : Cell} {item : Item} (h : f.get? c.item = some item) :
    f.state? c = item.attributes[c.attr]? := by
  unfold state?
  rw [h]
  rfl

theorem edges_eq_state (f : Fit) (c : Cell) :
    f.edges c = ((f.state? c).map Attribute.edges).getD [] := by
  unfold edges state? Item.edges
  cases f.get? c.item with
  | none => rfl
  | some item =>
    dsimp only [Option.bind_some]
    cases item.attributes[c.attr]? <;> rfl

theorem base?_eq_state (f : Fit) (c : Cell) : f.base? c = (f.state? c).map Attribute.base := by
  unfold base? state? Item.base?
  cases f.get? c.item <;> rfl

theorem baseValue_eq_base (f : Fit) (catalog : Catalog) (c : Cell) :
    f.baseValue catalog c = (f.base? c).getD (catalog.default c.attr) := by
  unfold baseValue
  cases f.base? c <;> rfl

theorem edges_of_state {f : Fit} {c : Cell} {state : Attribute} (h : f.state? c = some state) :
    f.edges c = state.edges := by
  rw [edges_eq_state, h]
  rfl

/-! ### one edge -/

section
variable (catalog : Catalog)

@[simp] theorem shell_extendItem (att : Attachment) (item : Item) :
    (extendItem catalog att item).shell = item.shell := by
  unfold extendItem
  split <;> rfl

theorem getElem?_extendItem (att : Attachment) (item : Item) (a : AttributeId) :
    (extendItem catalog att item).attributes[a]? =
      if att.target.attr = a then extend catalog a att.edge item.attributes[a]?
      else item.attributes[a]? := by
  unfold extendItem
  by_cases h : att.target.attr = a
  · subst h
    rw [if_pos rfl]
    cases he : extend catalog att.target.attr att.edge item.attributes[att.target.attr]? with
    | some state => exact Std.ExtTreeMap.getElem?_insert_self
    | none =>
      -- a declared attribute takes every edge
      cases hs : item.attributes[att.target.attr]? with
      | some state => rw [hs] at he; cases he
      | none => rfl
  · rw [if_neg h]
    have hc : compare att.target.attr a ≠ .eq := fun he => h (Std.LawfulEqOrd.eq_of_compare he)
    split
    · rw [Std.ExtTreeMap.getElem?_insert, if_neg hc]
    · rfl

variable {catalog} {f : Fit}

theorem modify_congr {h : Handle} {change change' : Item → Item}
    (same : ∀ item, f.get? h = some item → change item = change' item) :
    f.modify h change = f.modify h change' := by
  refine ext_get? (fun k => ?_) rfl rfl rfl rfl rfl
  rw [get?_modify, get?_modify]
  by_cases hk : h = k
  · subst hk
    rw [if_pos rfl, if_pos rfl]
    exact Option.map_congr same
  · rw [if_neg hk, if_neg hk]

theorem modify_self {h : Handle} {change : Item → Item}
    (same : ∀ item, f.get? h = some item → change item = item) : f.modify h change = f := by
  have hid : f.modify h change = f.modify h id := modify_congr same
  rw [hid]
  refine ext_get? (fun k => ?_) rfl rfl rfl rfl rfl
  rw [get?_modify, Option.map_id, id, ite_self]

theorem modify_modify (f : Fit) (h : Handle) (change change' : Item → Item) :
    (f.modify h change).modify h change' = f.modify h fun item => change' (change item) := by
  refine ext_get? (fun k => ?_) rfl rfl rfl rfl rfl
  rw [get?_modify, get?_modify, get?_modify]
  by_cases hk : h = k
  · simp only [if_pos hk, Option.map_map]
    rfl
  · simp only [if_neg hk]

/-- a declared attribute takes the edge, another one is declared first if the edge assigns -/
theorem attach?_eq (catalog : Catalog) (f : Fit) (att : Attachment) : attach? catalog f att =
    (f.get? att.target.item).bind fun item =>
      (extend catalog att.target.attr att.edge item.attributes[att.target.attr]?).map fun state =>
        f.modify att.target.item fun item =>
          { item with attributes := item.attributes.insert att.target.attr state } := by
  unfold attach?
  cases hi : f.get? att.target.item with
  | none => rfl
  | some item =>
    have only : ∀ item', f.get? att.target.item = some item' → item' = item :=
      fun item' h => Option.some.inj (h.symm.trans hi)
    show ite _ _ _ = (extend catalog _ _ _).map _
    unfold Item.declares
    rw [← Std.ExtTreeMap.isSome_getElem?_eq_contains]
    cases hs : item.attributes[att.target.attr]? with
    | some state =>
      refine congrArg some (modify_congr fun item' h => ?_)
      rw [only item' h, hs]
      rfl
    | none =>
      by_cases assigns : att.edge.operation.isAssign
      · have twice : ∀ (m : Map AttributeId Attribute) (a : AttributeId) (state state' : Attribute),
            (m.insert a state).insert a state' = m.insert a state' := by
          intro m a state state'
          refine Std.ExtTreeMap.ext_getElem? fun b => ?_
          simp only [Std.ExtTreeMap.getElem?_insert]
          split <;> rfl
        rw [Option.isSome_none, if_neg Bool.false_ne_true, if_pos assigns, extend, if_pos assigns]
        refine congrArg some ((modify_modify f _ _ _).trans (modify_congr fun item' h => ?_))
        dsimp only
        rw [Std.ExtTreeMap.getElem?_insert_self, twice]
        rfl
      · rw [Option.isSome_none, if_neg Bool.false_ne_true, if_neg assigns, extend, if_neg assigns]
        rfl

theorem attachOne_eq (catalog : Catalog) (f : Fit) (att : Attachment) :
    attachOne catalog f att = f.modify att.target.item (extendItem catalog att) := by
  unfold attachOne
  rw [attach?_eq]
  cases hi : f.get? att.target.item with
  | none =>
    exact (modify_self fun item h => absurd (hi.symm.trans h) (by simp)).symm
  | some item =>
    rw [Option.bind_some]
    cases he : extend catalog att.target.attr att.edge item.attributes[att.target.attr]? with
    | none =>
      refine (modify_self fun item' h => ?_).symm
      obtain rfl := Option.some.inj (hi.symm.trans h)
      unfold extendItem
      rw [he]
    | some state =>
      refine modify_congr fun item' h => ?_
      obtain rfl := Option.some.inj (hi.symm.trans h)
      unfold extendItem
      rw [he]

theorem get?_attachOne (att : Attachment) (h : Handle) :
    ((attachOne catalog f att).get? h) =
      if att.target.item = h then (f.get? h).map (extendItem catalog att) else f.get? h := by
  rw [attachOne_eq, get?_modify]

theorem shell_attachOne (att : Attachment) (h : Handle) :
    ((attachOne catalog f att).get? h).map Item.shell = (f.get? h).map Item.shell := by
  rw [get?_attachOne]
  split
  · rw [Option.map_map]
    exact Option.map_congr fun item _ => shell_extendItem catalog att item
  · rfl

theorem get?_attachOne_eq_none (att : Attachment) {h : Handle} :
    (attachOne catalog f att).get? h = none ↔ f.get? h = none := by
  rw [get?_attachOne]
  split
  · exact Option.map_eq_none_iff
  · rfl

/-- a cell of the fit takes an edge that is meant for it -/
theorem state?_attachOne {c : Cell} (present : f.get? c.item ≠ none) (att : Attachment) :
    (attachOne catalog f att).state? c =
      if att.target = c then extend catalog c.attr att.edge (f.state? c) else f.state? c := by
  obtain ⟨item, hi⟩ := Option.ne_none_iff_exists'.mp present
  unfold state?
  rw [get?_attachOne, hi]
  by_cases hitem : att.target.item = c.item
  · simp only [hitem, if_true, Option.map_some, Option.bind_some, getElem?_extendItem]
    by_cases hattr : att.target.attr = c.attr
    · rw [if_pos hattr, if_pos (cell_eq hitem hattr)]
    · rw [if_neg hattr, if_neg fun hc => hattr (congrArg Cell.attr hc)]
  · simp only [hitem, if_false, Option.bind_some]
    rw [if_neg fun hc => hitem (congrArg Cell.item hc)]

end

/-! ### all edges -/

section
variable (catalog : Catalog)

/-- one edge more, and counted if it was attached -/
def attachNext : Fit × Nat → Attachment → Fit × Nat :=
  fun (f, attached) att =>
    match attach? catalog f att with
    | some f => (f, attached + 1)
    | none => (f, attached)

theorem attachNext_fst (counted : Fit × Nat) (att : Attachment) :
    attachOne catalog counted.1 att = (attachNext catalog counted att).1 := by
  unfold attachOne attachNext
  dsimp only
  cases attach? catalog counted.1 att <;> rfl

theorem attachAll_fst (f : Fit) (atts : List Attachment) :
    (attachAll catalog f atts).1 = atts.foldl (attachOne catalog) f :=
  (List.foldl_hom Prod.fst (attachNext_fst catalog)).symm

variable {catalog}

/-- what each edge leaves true, all of them leave true -/
theorem attachAll_preserves {I : Fit → Prop} (hI : ∀ f att, I f → I (attachOne catalog f att))
    (atts : List Attachment) : ∀ f, I f → I (attachAll catalog f atts).1 := by
  intro f h
  rw [attachAll_fst]
  exact List.foldlRecOn atts _ h fun f h att _ => hI f att h

theorem shell_attachAll (f : Fit) (atts : List Attachment) (h : Handle) :
    ((attachAll catalog f atts).1.get? h).map Item.shell = (f.get? h).map Item.shell :=
  attachAll_preserves (I := fun g => (g.get? h).map Item.shell = (f.get? h).map Item.shell)
    (fun _ att hg => (shell_attachOne att h).trans hg) atts f rfl

theorem Numbered.attachAll {f : Fit} (numbered : f.Numbered) (catalog : Catalog)
    (atts : List Attachment) :
    (attachAll catalog f atts).1.Numbered :=
  numbered.of_shells (shell_attachAll f atts)

theorem lists_attachOne (catalog : Catalog) (f : Fit) (att : Attachment) :
    (attachOne catalog f att).modules = f.modules ∧ (attachOne catalog f att).drones = f.drones ∧
    (attachOne catalog f att).fighters = f.fighters ∧
    (attachOne catalog f att).implants = f.implants ∧
      (attachOne catalog f att).skills = f.skills := by
  rw [attachOne_eq]
  exact ⟨rfl, rfl, rfl, rfl, rfl⟩

theorem get?_attachAll_eq_none {f : Fit} {atts : List Attachment} {h : Handle} :
    (attachAll catalog f atts).1.get? h = none ↔ f.get? h = none :=
  attachAll_preserves (I := fun g => g.get? h = none ↔ f.get? h = none)
    (fun _ att hg => (get?_attachOne_eq_none att).trans hg) atts f .rfl

/-- which edges are active does not change -/
theorem isActive_attachAll (f : Fit) (atts : List Attachment) :
    (attachAll catalog f atts).1.isActive = f.isActive := by
  funext e
  have status : ∀ item : Item, item.shell.moduleStatus? = item.moduleStatus? := fun _ => rfl
  unfold isActive
  rw [← Item.bind_shell status, shell_attachAll, Item.bind_shell status]

theorem edgesTo_cons (c : Cell) (att : Attachment) (atts : List Attachment) :
    edgesTo c (att :: atts) = if att.target = c then att.edge :: edgesTo c atts
      else edgesTo c atts := by
  unfold edgesTo
  rw [List.filter_cons]
  by_cases h : att.target = c <;> simp [h]

/-- a cell of the fit takes the edges that are meant for it, one after the other -/
theorem state?_attachAll {f : Fit} {c : Cell} (present : f.get? c.item ≠ none)
    (atts : List Attachment) : (attachAll catalog f atts).1.state? c =
      (edgesTo c atts).foldl (fun state e => extend catalog c.attr e state) (f.state? c) := by
  rw [attachAll_fst]
  induction atts generalizing f with
  | nil => rfl
  | cons att atts ih =>
    have present' : (attachOne catalog f att).get? c.item ≠ none :=
      mt (get?_attachOne_eq_none att).mp present
    rw [List.foldl_cons, ih present', state?_attachOne present, edgesTo_cons]
    split <;> rfl

/-- a declared attribute takes all edges -/
theorem foldl_extend_some (a : AttributeId) (edges : List Edge) : ∀ state : Attribute,
    edges.foldl (fun state e => extend catalog a e state) (some state)
      = some { state with edges := state.edges ++ edges } := by
  induction edges with
  | nil => exact fun state => by simp
  | cons e edges ih =>
    intro state
    rw [List.foldl_cons]
    show edges.foldl _ (some { state with edges := state.edges ++ [e] }) = _
    rw [ih]
    simp

/-- an attribute that is not declared takes the edges from the first assignment on -/
theorem foldl_extend_none (a : AttributeId) (edges : List Edge) :
    edges.foldl (fun state e => extend catalog a e state) none =
      match edges.dropWhile (fun e => !e.operation.isAssign) with
      | [] => none
      | e :: taken => some { base := catalog.default a, edges := e :: taken } := by
  induction edges with
  | nil => rfl
  | cons e edges ih =>
    rw [List.foldl_cons, List.dropWhile_cons]
    cases h : e.operation.isAssign with
    | false =>
      -- nothing but an assignment declares the attribute
      have kept : extend catalog a e none = none := by simp [extend, h]
      rw [kept]
      exact ih
    | true =>
      have declared : extend catalog a e none = some ⟨catalog.default a, [e]⟩ := by
        simp [extend, h]
      rw [declared, foldl_extend_some]
      rfl

/-- a base value that a cell has stays, and the default is what a cell without one is declared
with -/
theorem baseValue_attachAll (f : Fit) (atts : List Attachment) (c : Cell) :
    (attachAll catalog f atts).1.baseValue catalog c = f.baseValue catalog c := by
  by_cases absent : f.get? c.item = none
  · have absent' : (attachAll catalog f atts).1.get? c.item = none :=
      get?_attachAll_eq_none.mpr absent
    unfold baseValue base?
    rw [absent, absent']
  · rw [baseValue_eq_base, baseValue_eq_base, base?_eq_state, base?_eq_state,
      state?_attachAll absent]
    cases f.state? c with
    | some state =>
      rw [foldl_extend_some]
      rfl
    | none =>
      rw [foldl_extend_none]
      cases (edgesTo c atts).dropWhile (fun e => !e.operation.isAssign) <;> rfl

/-- what acts on a cell was there before or was meant for it -/
theorem mem_edges_attachAll {f : Fit} {atts : List Attachment} {c : Cell} {e : Edge}
    (h : e ∈ (attachAll catalog f atts).1.edges c) :
    e ∈ f.edges c ∨ ∃ att ∈ atts, att.target = c ∧ att.edge = e := by
  have meant : e ∈ edgesTo c atts → ∃ att ∈ atts, att.target = c ∧ att.edge = e := by
    intro he
    obtain ⟨att, ha, rfl⟩ := List.mem_map.mp he
    exact ⟨att, (List.mem_filter.mp ha).1, by simpa using (List.mem_filter.mp ha).2, rfl⟩
  have present : f.get? c.item ≠ none := by
    intro hn
    rw [edges, get?_attachAll_eq_none.mpr hn] at h
    exact List.not_mem_nil h
  rw [edges_eq_state, state?_attachAll present] at h
  cases hs : f.state? c with
  | some state =>
    rw [hs, foldl_extend_some] at h
    rcases List.mem_append.mp h with h | h
    · exact .inl (edges_of_state hs ▸ h)
    · exact .inr (meant h)
  | none =>
    rw [hs, foldl_extend_none] at h
    refine .inr (meant ((List.dropWhile_sublist (fun e => !e.operation.isAssign)).subset ?_))
    cases hd : (edgesTo c atts).dropWhile (fun e => !e.operation.isAssign) with
    | nil => rw [hd] at h; exact absurd h List.not_mem_nil
    | cons first taken => rw [hd] at h; exact h

end

end Fit

end Fitting
