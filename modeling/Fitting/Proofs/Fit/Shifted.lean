import Fitting.Proofs.Fit.Inserted

/-!
# Attaching with one more item

What a modifier reaches depends on the items and on which handles are the same, but not on the
handles themselves.  So an item that has no modifiers of its own leaves what the others attach to
each other as it is.

* `Inserted`           a fit in which a new item stands between the others;
* `reaches_rename`     what a modifier reaches under other handles;
* `edgesTo_eq`         what is meant for the other items is the same;
* `Inserted.embeds`    so they stand in the new fit with the same edges.
-/

namespace Fitting.Fit

/-- `new` has been put into the fit at the handle `p`, and all items after it have moved up by
one -/
structure Inserted (p : Nat) (new : Item) (f f' : Fit) : Prop where
  anchors : 2 ≤ p
  numbered : f.Numbered
  numbered' : f'.Numbered
  entries : ∃ before after, before.length = p ∧ f.entries = itemsFrom 0 (before ++ after) ∧
    f'.entries = itemsFrom 0 (before.map (Item.rename (Handle.shift p)) ++
      new :: after.map (Item.rename (Handle.shift p)))

/-! ### what one item attaches -/

section
variable {ρ : Handle → Handle} (inj : Function.Injective ρ) (hhull : ρ hull = hull)
  (hpilot : ρ pilot = pilot)
include inj hhull hpilot

/-- a modifier reaches under other handles what it reached before -/
theorem reaches_rename (h : Handle) (target : Item) (source : Handle) (item : Item) (t : TypeId)
    (domain : Domain) : reaches (ρ h) (target.rename ρ) (ρ source) (item.rename ρ) t domain =
      reaches h target source item t domain := by
  have anchor : ∀ k, ρ k = k → (ρ h = k ↔ h = k) := by
    intro k hk
    constructor
    · intro he
      exact inj (he.trans hk.symm)
    · rintro rfl
      exact hk
  cases domain with
  | item => exact decide_eq_decide.mpr inj.eq_iff
  | ship => exact decide_eq_decide.mpr (anchor hull hhull)
  | pilot => exact decide_eq_decide.mpr (anchor pilot hpilot)
  | other =>
    have partner : ((item.rename ρ).charge? <|> (item.rename ρ).owner?) =
        (item.charge? <|> item.owner?).map ρ := by
      rw [Item.charge?_rename, Item.owner?_rename]
      cases item.charge? <;> rfl
    refine decide_eq_decide.mpr ?_
    rw [partner]
    show Option.map ρ _ = Option.map ρ (some h) ↔ _
    exact (Option.map_injective inj).eq_iff
  | location => rfl
  | locationGroup group => rfl
  | requiredSkill skill => rfl

variable (index : ModifierIndex) (catalog : Catalog) (rules : Rules)

theorem edgesFrom_rename (c : Cell) (target : Item) (source : Handle) (item : Item) :
    edgesFrom index catalog rules (c.rename ρ) (target.rename ρ) (ρ source) (item.rename ρ) =
      (edgesFrom index catalog rules c target source item).map (Edge.rename ρ) := by
  unfold edgesFrom
  rw [List.map_map]
  refine congrArg (List.map _) (List.filter_congr fun m _ => ?_)
  exact congrArg (decide (m.modified = c.attr) && ·)
    (reaches_rename inj hhull hpilot c.item target source item m.sourceType m.domain)

end

/-! ### a fit with one more item -/

/-- an entry of a fit in which a new item has been put in at `p` -/
def shiftEntry (p : Nat) : Handle × Item → Handle × Item :=
  Prod.map (Handle.shift p) (Item.rename (Handle.shift p))

section
variable {p : Nat}

theorem itemsFrom_before {n : Nat} {items : List Item} (h : n + items.length ≤ p) :
    (itemsFrom n items).map (shiftEntry p) = itemsFrom n
      (items.map (Item.rename (Handle.shift p))) := by
  unfold itemsFrom
  rw [List.zipIdx_map, List.map_map, List.map_map]
  refine List.map_congr_left fun (item, i) hm => ?_
  have position : i < n + items.length := List.snd_lt_add_of_mem_zipIdx hm
  have stays : Handle.shift p ⟨i⟩ = ⟨i⟩ := Handle.shift_of_lt (show i < p by omega)
  show (Handle.shift p ⟨i⟩, (item.rename (Handle.shift p)).withId (Handle.shift p ⟨i⟩)) = _
  rw [stays]
  rfl

theorem itemsFrom_after {n : Nat} (h : p ≤ n) (items : List Item) :
    (itemsFrom n items).map (shiftEntry p) =
      itemsFrom (n + 1) (items.map (Item.rename (Handle.shift p))) := by
  unfold itemsFrom
  rw [List.zipIdx_map, List.zipIdx_succ, List.map_map, List.map_map, List.map_map]
  refine List.map_congr_left fun (item, i) hm => ?_
  have position : n ≤ i := List.le_snd_of_mem_zipIdx hm
  have moves : Handle.shift p ⟨i⟩ = ⟨i + 1⟩ := Handle.shift_of_le (show p ≤ i by omega)
  show (Handle.shift p ⟨i⟩, (item.rename (Handle.shift p)).withId (Handle.shift p ⟨i⟩)) = _
  rw [moves]
  rfl

end

/-- edges that are taken under other handles -/
theorem foldl_extend_rename (catalog : Catalog) (a : AttributeId) (ρ : Handle → Handle)
    (edges : List Edge) :
    ∀ state : Option Attribute,
      (edges.map (Edge.rename ρ)).foldl (fun state e => extend catalog a e state)
        (state.map (Attribute.rename ρ)) =
      (edges.foldl (fun state e => extend catalog a e state) state).map (Attribute.rename ρ) := by
  induction edges with
  | nil => exact fun _ => rfl
  | cons e edges ih =>
    intro state
    have one : extend catalog a (e.rename ρ) (state.map (Attribute.rename ρ)) =
        (extend catalog a e state).map (Attribute.rename ρ) := by
      cases state with
      | none =>
        unfold extend
        dsimp only [Option.map_none]
        rw [apply_ite (Option.map (Attribute.rename ρ))]
        rfl
      | some state => simp [extend, Attribute.rename]
    rw [List.map_cons, List.foldl_cons, List.foldl_cons, one, ih]

namespace Inserted
variable {p : Nat} {new : Item} {f f' : Fit} (ins : f.Inserted p new f')
include ins

/-- the entries of the fit stand around that of the new item -/
theorem entries_eq : ∃ before after, f.entries = before ++ after ∧
    f'.entries = before.map (shiftEntry p) ++ (⟨p⟩, new.withId ⟨p⟩) ::
      after.map (shiftEntry p) := by
  obtain ⟨before, after, rfl, entries, entries'⟩ := ins.entries
  refine ⟨itemsFrom 0 before, itemsFrom before.length after, ?_, ?_⟩
  · rw [entries, itemsFrom_append, Nat.zero_add]
  · rw [entries', itemsFrom_append, List.length_map, Nat.zero_add, itemsFrom_before (by omega),
      itemsFrom_after (Nat.le_refl _)]
    rfl

theorem get?_shift (h : Handle) :
    f'.get? (h.shift p) = (f.get? h).map (Item.rename (Handle.shift p)) := by
  obtain ⟨before, after, entries, entries'⟩ := ins.entries_eq
  refine Option.ext fun item => ?_
  have other : (h.shift p, item) ≠ (⟨p⟩, new.withId ⟨p⟩) :=
    fun same => h.shift_ne (congrArg Prod.fst same)
  rw [← mem_entries, entries', List.perm_middle.mem_iff, List.mem_cons, or_iff_right other,
    ← List.map_append, ← entries, List.mem_map, Option.map_eq_some_iff]
  simp only [← mem_entries]
  constructor
  · rintro ⟨⟨k, i⟩, hm, same⟩
    obtain rfl : k = h := Handle.shift_injective p (congrArg Prod.fst same)
    exact ⟨i, hm, congrArg Prod.snd same⟩
  · rintro ⟨i, hm, rfl⟩
    exact ⟨(h, i), hm, rfl⟩

theorem get?_new : f'.get? ⟨p⟩ = some (new.withId ⟨p⟩) := by
  obtain ⟨before, after, -, entries'⟩ := ins.entries_eq
  rw [← mem_entries, entries']
  exact List.mem_append_right _ List.mem_cons_self

/-- an item that modifies nothing leaves what is meant for the others as it is -/
theorem edgesTo_eq {index : ModifierIndex} (silent : index.forType new.type = [])
    (catalog : Catalog)
    (rules : Rules) {c : Cell} {target : Item} (ht : f.get? c.item = some target) :
    edgesTo (c.rename (Handle.shift p)) (f'.attachments index catalog rules) =
      (edgesTo c (f.attachments index catalog rules)).map (Edge.rename (Handle.shift p)) := by
  have ht' : f'.get? (c.rename (Handle.shift p)).item = some (target.rename (Handle.shift p)) := by
    show f'.get? (c.item.shift p) = _
    rw [ins.get?_shift, ht]
    rfl
  obtain ⟨before, after, entries, entries'⟩ := ins.entries_eq
  have none : edgesFrom index catalog rules (c.rename (Handle.shift p))
      (target.rename (Handle.shift p)) ⟨p⟩
      (new.withId ⟨p⟩) = [] := by
    have type : (new.withId ⟨p⟩).type = new.type := rfl
    unfold edgesFrom
    rw [type, silent]
    rfl
  have each := edgesFrom_rename (Handle.shift_injective p) (Handle.shift_hull ins.anchors)
    (Handle.shift_pilot ins.anchors) index catalog rules c target
  rw [edgesTo_attachments index catalog rules ins.numbered' ht',
    edgesTo_attachments index catalog rules ins.numbered ht, entries, entries', List.flatMap_append,
    List.flatMap_cons]
  dsimp only
  rw [none, List.nil_append, ← List.flatMap_append, ← List.map_append, List.flatMap_map,
    List.map_flatMap]
  exact List.flatMap_congr fun entry _ => each entry.1 entry.2

theorem state?_eq (bare : ∀ c state, f.state? c = some state → state.edges = []) (c : Cell) :
    f'.state? (c.rename (Handle.shift p)) = (f.state? c).map
      (Attribute.rename (Handle.shift p)) := by
  have same : f'.state? (c.rename (Handle.shift p)) = f.state? c := by
    unfold state?
    show (f'.get? (c.item.shift p)).bind _ = _
    rw [ins.get?_shift]
    cases f.get? c.item <;> rfl
  rw [same]
  cases hs : f.state? c with
  | none => rfl
  | some state =>
    have none := bare c state hs
    obtain ⟨base, edges⟩ := state
    obtain rfl : edges = [] := none
    rfl

/-- once everything is attached, the items of the fit stand in the other one with the same edges -/
theorem embeds (bare : ∀ c state, f.state? c = some state → state.edges = [])
    {index : ModifierIndex}
    (silent : index.forType new.type = []) (catalog : Catalog) (rules : Rules) :
    (f.applyModifiers index catalog rules).1.Embeds (Handle.shift p)
      (f'.applyModifiers index catalog rules).1 := by
  unfold applyModifiers
  refine ⟨ins.numbered.attachAll catalog _, ins.numbered'.attachAll catalog _, fun h => ?_,
    fun c => ?_⟩
  · have renamed : ∀ i : Item, (i.shell.rename (Handle.shift p)).shell =
        (i.rename (Handle.shift p)).shell :=
      fun _ => rfl
    rw [shell_attachAll, ins.get?_shift, Option.map_map]
    refine Eq.trans ?_ (Item.map_shell renamed _)
    rw [shell_attachAll]
    exact (Item.map_shell renamed _).symm
  · by_cases absent : f.get? c.item = none
    · have absent' : f'.get? (c.rename (Handle.shift p)).item = none := by
        show f'.get? (c.item.shift p) = none
        rw [ins.get?_shift, absent]
        rfl
      unfold state?
      rw [get?_attachAll_eq_none.mpr absent, get?_attachAll_eq_none.mpr absent']
      rfl
    · obtain ⟨target, ht⟩ := Option.ne_none_iff_exists'.mp absent
      have present' : f'.get? (c.rename (Handle.shift p)).item ≠ none := by
        show f'.get? (c.item.shift p) ≠ none
        rw [ins.get?_shift, ht]
        exact Option.some_ne_none _
      rw [state?_attachAll absent, state?_attachAll present',
        ins.edgesTo_eq silent catalog rules ht, ins.state?_eq bare]
      exact foldl_extend_rename catalog c.attr _ _ _

end Inserted

end Fitting.Fit
