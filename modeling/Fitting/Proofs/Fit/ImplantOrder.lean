import Fitting.Proofs.Fit.Readings
import Fitting.Proofs.Fit.Sheets

/-!
# The order of the implants

Hull and pilot take the edges of all items one item after the other.  Where an attribute is not
declared, they take them from the first assignment on, so the order of the implants decides which of
the entries before it are lost.  It decides of nothing else.

* `OrderFree`       when the order of the implants makes no difference to an attribute;
* `implant_order`   what two orders of the implants have in common.
-/

namespace Fitting

/-! ### when the order makes no difference -/

def Item.isImplant (i : Item) : Bool :=
  match i.role with
  | .implant => true
  | _ => false

def Item.isSkill (i : Item) : Bool :=
  match i.role with
  | .skill _ => true
  | _ => false

namespace Fit

/-- the order of the implants makes no difference to a cell with these edges meant for it -/
inductive OrderFree (f : Fit) (meant : List Edge) (c : Cell) : Prop where
  /-- its item declares it -/
  | declared (state : (f.state? c).isSome)
  /-- an item before the implants assigns to it -/
  | before {e : Edge} {item : Item} (mem : e ∈ meant) (assigns : e.operation.isAssign)
      (source : f.get? e.source = some item) (implant : item.isImplant = false)
      (skill : item.isSkill = false)
  /-- no implant does -/
  | unassigned (none : ∀ e ∈ meant, ∀ item, f.get? e.source = some item → item.isImplant →
      e.operation.isAssign = false)
  /-- the first edge of each implant does -/
  | led (first : ∀ h item e, f.get? h = some item → item.isImplant →
      meant.find? (fun e => e.source = h) = some e → e.operation.isAssign)

section
variable {index : ModifierIndex} {catalog : Catalog} {rules : Rules} {f : Fit} {c : Cell}
  {target : Item}

theorem source_of_edgesFrom {source : Handle} {item : Item} {e : Edge}
    (h : e ∈ edgesFrom index catalog rules c target source item) : e.source = source := by
  obtain ⟨m, _, rfl⟩ := List.mem_map.mp h
  rfl

/-- other items have other handles -/
theorem find?_edgesFrom_eq_none {h : Handle} {entries : List (Handle × Item)}
    (hh : h ∉ entries.map Prod.fst) : (entries.flatMap fun (source, item) =>
      edgesFrom index catalog rules c target source item).find? (fun e => e.source = h) = none := by
  refine List.find?_eq_none.mpr fun e hm => ?_
  obtain ⟨⟨source, item⟩, hs, hm⟩ := List.mem_flatMap.mp hm
  have hsource := source_of_edgesFrom hm
  have hne : e.source ≠ h := by
    rintro rfl
    exact hh (List.mem_map.mpr ⟨_, hs, hsource.symm⟩)
  simpa using hne

/-- the first edge of an item, among all that are meant for a cell -/
theorem find?_edgesTo (numbered : f.Numbered) (ht : f.get? c.item = some target) {h : Handle}
    {item : Item} (hi : f.get? h = some item) :
    (edgesTo c (f.attachments index catalog rules)).find? (fun e => e.source = h) =
      (edgesFrom index catalog rules c target h item).head? := by
  obtain ⟨before, after, he⟩ := List.append_of_mem (mem_entries.mpr hi)
  have nodup := f.handles_nodup
  rw [he, List.map_append, List.map_cons, List.nodup_middle, List.nodup_cons, List.mem_append,
    not_or] at nodup
  rw [edgesTo_attachments index catalog rules numbered ht, he, List.flatMap_append,
    List.flatMap_cons, List.find?_append, List.find?_append, find?_edgesFrom_eq_none nodup.1.1,
    find?_edgesFrom_eq_none nodup.1.2, Option.none_or, Option.or_none]
  dsimp only
  cases hE : edgesFrom index catalog rules c target h item with
  | nil => rfl
  | cons e edges =>
    have hs : e.source = h := source_of_edgesFrom (hE ▸ List.mem_cons_self ..)
    exact List.find?_cons_of_pos (decide_eq_true hs)

end

end Fit

namespace TypeSheets
variable (s : TypeSheets) (index : ModifierIndex) (catalog : Catalog) (rules : Rules) (l : Loadout)
  {c : Cell} {target : Item}

/-- each implant has its place behind the items before the implants -/
theorem exists_implant {type : TypeId} (h : type ∈ l.implants) :
    ∃ k, (s.beforeImplants l rules).size ≤ k ∧
      (s.fit l rules).get? ⟨k⟩ = some ((s.item type .implant).withId ⟨k⟩) := by
  obtain ⟨i, hi⟩ := List.mem_iff_getElem?.mp h
  refine ⟨(s.beforeImplants l rules).size + i, Nat.le_add_right _ _, ?_⟩
  refine Fit.mem_entries.mp ?_
  rw [s.entries_fit]
  refine List.mem_append_right _ (List.mem_append_left _ (List.mem_map.mpr ?_))
  refine ⟨(s.item type .implant, (s.beforeImplants l rules).size + i), ?_, rfl⟩
  exact List.mk_add_mem_zipIdx_iff_getElem?.mpr (by simp [hi])

variable {s index catalog rules l}

/-- an implant means the same for hull and pilot wherever it stands -/
theorem readingsOfImplant_eq (anchor : c.item.index < 2) {k : Nat}
    (hk : (s.beforeImplants l rules).size ≤ k) (type : TypeId) :
    s.readingsOfImplant index catalog rules l c target type =
      Fit.readingsFrom index catalog rules c target ⟨k⟩ (s.item type .implant) :=
  Fit.readingsFrom_elsewhere index catalog rules (s.anchor_ne l rules anchor (Nat.le_refl _))
    (s.anchor_ne l rules anchor hk) _

theorem orderFree_lists (anchor : c.item.index < 2)
    (ht : (s.beforeImplants l rules).get? c.item = some target)
    (free : Fit.OrderFree (s.fit l rules)
      (Fit.edgesTo c ((s.fit l rules).attachments index catalog rules)) c) :
    ((s.beforeImplants l rules).state? c).isSome ∨
    (∃ x ∈ s.readingsBefore index catalog rules l c target, x.assigns) ∨
    (∀ x ∈ l.implants.flatMap (s.readingsOfImplant index catalog rules l c target),
      x.assigns = false) ∨
    ∀ type ∈ l.implants, ∀ x ∈ (s.readingsOfImplant index catalog rules l c target type).head?,
      x.assigns := by
  have hget := s.get?_fit_anchor l rules anchor
  have ht' : (s.fit l rules).get? c.item = some target := hget.trans ht
  have numbered := s.numbered_fit l rules
  have meant := Fit.edgesTo_attachments index catalog rules numbered ht'
  cases free with
  | declared state =>
    rw [s.state?_fit_anchor l rules anchor] at state
    exact .inl state
  | @before e item mem assigns source implant skill =>
    -- the item stands before the implants, for it is none of them and no skill
    rw [meant] at mem
    obtain ⟨⟨h, item'⟩, hm, he⟩ := List.mem_flatMap.mp mem
    have hsource : e.source = h := Fit.source_of_edgesFrom he
    rw [hsource, Fit.mem_entries.mp hm] at source
    obtain rfl := Option.some.inj source
    refine .inr (.inl ⟨e.reading (some item'.type), ?_, assigns⟩)
    rw [s.entries_fit] at hm
    rcases List.mem_append.mp hm with hm | hm
    · exact List.mem_flatMap.mpr ⟨_, hm, List.mem_map_of_mem he⟩
    · rcases List.mem_append.mp hm with hm | hm
      · obtain ⟨-, _, hi, rfl⟩ := Fit.mem_itemsFrom hm
        obtain ⟨type, _, rfl⟩ := List.mem_map.mp hi
        exact absurd implant (by simp [Item.isImplant, Item.withId, item])
      · obtain ⟨-, _, hi, rfl⟩ := Fit.mem_itemsFrom hm
        obtain ⟨trained, _, rfl⟩ := List.mem_map.mp hi
        exact absurd skill (by simp [Item.isSkill, Item.withId, skillItem, item])
  | unassigned none =>
    refine .inr (.inr (.inl fun x hx => ?_))
    obtain ⟨type, hty, hx⟩ := List.mem_flatMap.mp hx
    obtain ⟨k, hk, hi⟩ := s.exists_implant rules l hty
    rw [readingsOfImplant_eq anchor hk] at hx
    obtain ⟨e, he, rfl⟩ := List.mem_map.mp hx
    have hm : e ∈ Fit.edgesTo c ((s.fit l rules).attachments index catalog rules) := by
      rw [meant]
      exact List.mem_flatMap.mpr ⟨_, Fit.mem_entries.mpr hi, he⟩
    have hsource : e.source = ⟨k⟩ := Fit.source_of_edgesFrom he
    exact none e hm _ (hsource ▸ hi) rfl
  | led first =>
    refine .inr (.inr (.inr fun type hty x hx => ?_))
    obtain ⟨k, hk, hi⟩ := s.exists_implant rules l hty
    rw [readingsOfImplant_eq anchor hk, Fit.readingsFrom, List.head?_map] at hx
    obtain ⟨e, he, rfl⟩ := Option.map_eq_some_iff.mp hx
    exact first ⟨k⟩ _ e hi rfl ((Fit.find?_edgesTo numbered ht' hi).trans he)

/-! ### another order -/

variable {order : List TypeId}

theorem readingsAfter_reordered (perm : l.implants.Perm order) :
    s.readingsAfter index catalog rules { l with implants := order } c target =
      s.readingsAfter index catalog rules l c target := by
  unfold readingsAfter
  rw [perm.length_eq]
  rfl

/-- in another order the implants mean the same for hull and pilot, each in its turn -/
theorem readings_reordered (perm : l.implants.Perm order) (anchor : c.item.index < 2)
    (ht : (s.beforeImplants l rules).get? c.item = some target) :
    (s.attached index catalog rules { l with implants := order }).readings c =
      taken Reading.assigns ((s.beforeImplants l rules).state? c).isSome
        (s.readingsBefore index catalog rules l c target ++
          (order.flatMap (s.readingsOfImplant index catalog rules l c target) ++
            s.readingsAfter index catalog rules l c target)) := by
  have ht' : (s.beforeImplants { l with implants := order } rules).get? c.item = some target := ht
  rw [readings_attached index catalog rules anchor ht', readingsAfter_reordered perm]
  rfl

/-- the attribute is declared if it was before or anything assigns to it -/
theorem isSome_attached (anchor : c.item.index < 2)
    (ht : (s.beforeImplants l rules).get? c.item = some target) :
    ((s.attached index catalog rules l).state? c).isSome ↔
      ((s.beforeImplants l rules).state? c).isSome ∨
        ∃ x ∈ s.readingsBefore index catalog rules l c target ++
          (l.implants.flatMap (s.readingsOfImplant index catalog rules l c target) ++
            s.readingsAfter index catalog rules l c target), x.assigns := by
  have present : (s.fit l rules).get? c.item ≠ none := by
    rw [s.get?_fit_anchor l rules anchor, ht]
    exact Option.some_ne_none _
  unfold attached Fit.applyModifiers
  rw [Fit.isSome_attachAll catalog present, s.state?_fit_anchor l rules anchor,
    ← readings_meant index catalog rules anchor ht]
  simp only [List.mem_map, exists_exists_and_eq_and]
  rfl

theorem isSome_reordered (perm : l.implants.Perm order) (anchor : c.item.index < 2) :
    ((s.attached index catalog rules { l with implants := order }).state? c).isSome ↔
      ((s.attached index catalog rules l).state? c).isSome := by
  obtain ⟨target, ht⟩ := s.exists_anchor l rules anchor
  have ht' : (s.beforeImplants { l with implants := order } rules).get? c.item = some target := ht
  rw [isSome_attached anchor ht, isSome_attached anchor ht', readingsAfter_reordered perm]
  have members :=
    ((perm.flatMap_right (s.readingsOfImplant index catalog rules l c target)).append_right
      (s.readingsAfter index catalog rules l c target)).append_left
      (s.readingsBefore index catalog rules l c target)
  refine or_congr Iff.rfl (exists_congr fun x => and_congr_left fun _ => ?_)
  exact members.mem_iff.symm

/-- the readings differ in entries of implants that do not assign, if in any -/
theorem readings_perm (perm : l.implants.Perm order) (anchor : c.item.index < 2) :
    ∃ common extra extra',
      ((s.attached index catalog rules l).readings c).Perm (common ++ extra) ∧
      ((s.attached index catalog rules { l with implants := order }).readings c).Perm
        (common ++ extra') ∧
      ∀ x ∈ extra ++ extra', x.operation.isAssign = false ∧
        ∃ type ∈ l.implants, x.sourceType = some type := by
  obtain ⟨target, ht⟩ := s.exists_anchor l rules anchor
  rw [readings_attached index catalog rules anchor ht, readings_reordered perm anchor ht]
  obtain ⟨common, extra, extra', h, h', hx⟩ := taken_perm _ _ _ _ (perm.flatMap_right _)
  refine ⟨common, extra, extra', h, h', fun x hm => ⟨(hx x hm).1, ?_⟩⟩
  obtain ⟨type, hty, hx⟩ := List.mem_flatMap.mp (hx x hm).2
  obtain ⟨e, _, rfl⟩ := List.mem_map.mp hx
  exact ⟨type, hty, rfl⟩

theorem readings_perm_of_orderFree (perm : l.implants.Perm order) (anchor : c.item.index < 2)
    (free : Fit.OrderFree (s.fit l rules)
      (Fit.edgesTo c ((s.fit l rules).attachments index catalog rules)) c) :
    ((s.attached index catalog rules l).readings c).Perm
      ((s.attached index catalog rules { l with implants := order }).readings c) := by
  obtain ⟨target, ht⟩ := s.exists_anchor l rules anchor
  rw [readings_attached index catalog rules anchor ht, readings_reordered perm anchor ht]
  refine taken_perm_of_orderFree _ (perm.flatMap_right _) ?_
  rcases orderFree_lists anchor ht free with h | h | h | h
  · exact .inl h
  · exact .inr (.inl h)
  · exact .inr (.inr (.inl h))
  · have heads : ∀ types : List TypeId, (∀ type ∈ types, type ∈ l.implants) →
        ∀ x ∈ (types.flatMap (s.readingsOfImplant index catalog rules l c target)).head?,
          x.assigns := by
      intro types hsub x hx
      rw [List.head?_flatMap] at hx
      obtain ⟨type, hty, hx⟩ := List.exists_of_findSome?_eq_some hx
      exact h type (hsub type hty) x hx
    exact .inr (.inr (.inr ⟨heads _ fun _ h => h, heads _ fun _ h => perm.mem_iff.mpr h⟩))

end TypeSheets

/-! ### the whole run -/

/-- the same types take part in whatever order -/
theorem Loadout.participants_reordered {l : Loadout} {order : List TypeId}
    (perm : l.implants.Perm order) (rules : Rules) :
    Loadout.participants { l with implants := order } rules = l.participants rules := by
  have types : (Loadout.types { l with implants := order } rules).Perm (l.types rules) :=
    (perm.symm.append_left _).append_right _
  refine Std.ExtTreeSet.ext_mem fun t => ?_
  unfold participants
  rw [Std.ExtTreeSet.mem_ofList, Std.ExtTreeSet.mem_ofList, List.contains_iff_mem,
    List.contains_iff_mem]
  exact types.mem_iff

theorem Snapshot.assembly_reordered (s : Snapshot) {l : Loadout} {order : List TypeId}
    (perm : l.implants.Perm order) (rules : Rules) :
    s.assembly { l with implants := order } rules = { s.assembly l rules with
      fit := (s.sheets l rules).fit { l with implants := order } rules } := by
  unfold Snapshot.assembly Assembly.ofRows Snapshot.sheets
  rw [Loadout.participants_reordered perm]

namespace Engine

/-- the edges that are meant for a cell -/
def meant (g : Engine) (a : Assembly) (c : Cell) : List Edge :=
  Fit.edgesTo c (a.fit.attachments (g.run a).index g.catalog g.rules)

theorem fit_reordered (g : Engine) (s : Snapshot) {l : Loadout} {order : List TypeId}
    (perm : l.implants.Perm order) :
    (g.run (s.assembly { l with implants := order } g.rules)).fit =
      (s.sheets l g.rules).attached (g.run (s.assembly l g.rules)).index g.catalog g.rules
        { l with implants := order } := by
  rw [s.assembly_reordered perm]
  rfl

/-- whatever the order of the implants is, hull and pilot declare the same attributes, and each
attribute takes the same edges but for those of implants that do not assign; it takes the same edges
altogether where the order makes no difference -/
theorem implant_order (g : Engine) (s : Snapshot) (l : Loadout) (order : List TypeId)
    (perm : l.implants.Perm order) :
    ∃ sim sim', g.stages s.sources l = .ok sim ∧
      g.stages s.sources { l with implants := order } = .ok sim' ∧
      ∀ c : Cell, c.item = Fit.hull ∨ c.item = Fit.pilot →
        (c ∈ sim.fit.declared ↔ c ∈ sim'.fit.declared) ∧
        (∃ common extra extra', (sim.fit.readings c).Perm (common ++ extra) ∧
          (sim'.fit.readings c).Perm (common ++ extra') ∧
          ∀ x ∈ extra ++ extra', x.operation.isAssign = false ∧
            ∃ type ∈ l.implants, x.sourceType = some type) ∧
        (Fit.OrderFree sim.assembly.fit (g.meant sim.assembly c) c →
          (sim.fit.readings c).Perm (sim'.fit.readings c)) := by
  refine ⟨_, _, g.stages_sources s l, g.stages_sources s _, fun c anchor => ?_⟩
  have anchor : c.item.index < 2 := by
    rcases anchor with h | h <;> rw [h] <;> decide
  have numbered := (s.sheets l g.rules).numbered_attached (g.run (s.assembly l g.rules)).index
    g.catalog g.rules
  have declared := (Fit.mem_declared_iff_state (numbered l)).trans
    ((TypeSheets.isSome_reordered perm anchor).symm.trans
      (Fit.mem_declared_iff_state (numbered _)).symm)
  rw [g.fit_reordered s perm]
  exact ⟨declared, TypeSheets.readings_perm perm anchor,
    fun free => TypeSheets.readings_perm_of_orderFree perm anchor free⟩

end Engine

/-! ### two implants -/

/-- a hull and two implants, one that assigns an attribute of the hull and one that adds to it -/
def twoImplants (values : List AttributeRow) : Snapshot where
  types :=
    [{ id := ⟨100⟩, name := "hull", group := ⟨10⟩, category := .ship },
      { id := ⟨300⟩, name := "assigning", group := ⟨30⟩, category := .implant },
      { id := ⟨301⟩, name := "adding", group := ⟨30⟩, category := .implant }]
  typeAttributes := ⟨⟨300⟩, ⟨51⟩, 3.0⟩ :: ⟨⟨301⟩, ⟨52⟩, 5.0⟩ :: values
  typeEffects := [{ type := ⟨300⟩, effect := ⟨10⟩ }, { type := ⟨301⟩, effect := ⟨11⟩ }]
  effects :=
    [{ id := ⟨10⟩
       name := "assign"
       category := .passive
       description := some "[\x7b\"func\": \"ItemModifier\", \"domain\": \"shipID\",
         \"modifiedAttributeID\": 50, \"modifyingAttributeID\": 51, \"operation\": -1\x7d]" },
      { id := ⟨11⟩
        name := "add"
        category := .passive
        description := some "[\x7b\"func\": \"ItemModifier\", \"domain\": \"shipID\",
          \"modifiedAttributeID\": 50, \"modifyingAttributeID\": 52, \"operation\": 2\x7d]" }]

def assigningFirst : Loadout := { hull := ⟨100⟩, implants := [⟨300⟩, ⟨301⟩] }

/-- if the hull declares the attribute, it takes both edges in either order -/
theorem implant_order_declared : [(⟨300⟩ : TypeId), ⟨301⟩].Perm [⟨301⟩, ⟨300⟩] ∧
    ∃ sim sim',
      bareEngine.stages (twoImplants [⟨⟨100⟩, ⟨50⟩, 1.0⟩]).sources assigningFirst = .ok sim ∧
      bareEngine.stages (twoImplants [⟨⟨100⟩, ⟨50⟩, 1.0⟩]).sources
        { assigningFirst with implants := [⟨301⟩, ⟨300⟩] } = .ok sim' ∧
      Fit.OrderFree sim.assembly.fit (bareEngine.meant sim.assembly ⟨Fit.hull, ⟨50⟩⟩)
        ⟨Fit.hull, ⟨50⟩⟩ ∧
      (sim.fit.readings ⟨Fit.hull, ⟨50⟩⟩).Perm (sim'.fit.readings ⟨Fit.hull, ⟨50⟩⟩) := by
  have perm : [(⟨300⟩ : TypeId), ⟨301⟩].Perm [⟨301⟩, ⟨300⟩] := by decide
  obtain ⟨sim, sim', run, run', h⟩ := Engine.implant_order bareEngine
    (twoImplants [⟨⟨100⟩, ⟨50⟩, 1.0⟩]) assigningFirst [⟨301⟩, ⟨300⟩] perm
  have declared : (sim.assembly.fit.state? ⟨Fit.hull, ⟨50⟩⟩).isSome := by
    rw [Engine.stages_sources] at run
    rw [← Except.ok.inj run]
    decide +kernel
  have free : Fit.OrderFree sim.assembly.fit (bareEngine.meant sim.assembly ⟨Fit.hull, ⟨50⟩⟩)
      ⟨Fit.hull, ⟨50⟩⟩ := .declared declared
  exact ⟨perm, sim, sim', run, run', free, (h _ (.inl rfl)).2.2 free⟩

/-- if not, it takes the edge that adds only after the one that assigns -/
theorem implant_order_undeclared : [(⟨300⟩ : TypeId), ⟨301⟩].Perm [⟨301⟩, ⟨300⟩] ∧
    ∃ sim sim', bareEngine.stages (twoImplants []).sources assigningFirst = .ok sim ∧
      bareEngine.stages (twoImplants []).sources
        { assigningFirst with implants := [⟨301⟩, ⟨300⟩] } = .ok sim' ∧
      ¬ (sim.fit.readings ⟨Fit.hull, ⟨50⟩⟩).Perm (sim'.fit.readings ⟨Fit.hull, ⟨50⟩⟩) := by
  refine ⟨by decide, _, _, Engine.stages_sources .., Engine.stages_sources .., fun perm => ?_⟩
  have lengths := perm.length_eq
  revert lengths
  decide +kernel

end Fitting
