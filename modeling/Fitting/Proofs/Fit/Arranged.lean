import Fitting.Proofs.Fit.Places
import Fitting.Proofs.Fit.Targets

/-!
# How a fit is arranged

Every later stage finds items by their handles, so it counts on where each item stands, on what the
lists of a fit hold, and on which module a charge belongs to.

* `Partners`     a module and the charge that is loaded into it;
* `Arranged`     all that the later stages count on;
* `LaidOut.arranged`    it holds of every fit that is laid out as its loadout says;
* `arranged_assemble`   so it holds of every assembled fit, whatever modifiers are attached to it.
-/

namespace Fitting

namespace Fit

/-- a module and the charge that is loaded into it: each names the other -/
structure Partners (f : Fit) (m c : Handle) : Prop where
  module : ∃ item, f.get? m = some item ∧ item.kind = .module ∧ item.charge? = some c
  charge : ∃ item, f.get? c = some item ∧ item.kind = .charge ∧ item.owner? = some m

/-- how the fit of a loadout is arranged -/
structure Arranged (l : Loadout) (rules : Rules) (f : Fit) : Prop where
  numbered : ∀ (k : Nat) (item : Item), f.items[k]? = some item → item.id = ⟨k⟩
  first : f.listed .hull = [⟨0⟩] ∧ f.listed .pilot = [⟨1⟩]
  order : f.places = l.places rules
  skills : (l.pilot.skills.toList.map skillPlace).Pairwise fun p q => compare p.type q.type = .lt
  ascending : ∀ k, (f.listed k).Pairwise fun h h' => h.index < h'.index
  kinds : ∀ k h, h ∈ f.listed k ↔ ∃ item, f.get? h = some item ∧ item.kind = k
  disjoint : ∀ k k', k ≠ k' → (f.listed k).Disjoint (f.listed k')
  cover : ([hull, pilot] ++ f.modules ++ f.listed .charge ++ f.drones ++ f.fighters ++ f.implants
    ++ f.skills).Perm f.handles
  named : ∀ m c, (f.get? m).bind Item.charge? = some c ↔ (f.get? c).bind Item.owner? = some m
  loaded : ∀ c ∈ f.listed .charge, ∃ m ∈ f.modules, f.Partners m c
  partners : ∀ h k t, f.targets h t .other = [k] ↔ f.Partners h k ∨ f.Partners k h
  symmetric : ∀ h k t t', f.targets h t .other = [k] ↔ f.targets k t' .other = [h]
  alone : ∀ h t, (∀ k, ¬ f.Partners h k ∧ ¬ f.Partners k h) → f.targets h t .other = []
  types : ∀ t, t ∈ l.participants rules ↔ ∃ h item, f.get? h = some item ∧ item.type = t

end Fit

/-! ### the lists of the kinds -/

def Kind.all : List Kind := [.hull, .pilot, .module, .charge, .drone, .fighter, .implant, .skill]

theorem Kind.mem_all (k : Kind) : k ∈ all := by
  cases k <;> decide

namespace Fit

namespace Sorted
variable {f : Fit} (hf : f.Sorted)
include hf

theorem ascending (k : Kind) : (f.listed k).Pairwise fun h h' => h.index < h'.index := by
  rw [hf k]
  exact f.ascending_handlesWhere _

theorem mem_listed (k : Kind) (h : Handle) :
    h ∈ f.listed k ↔ ∃ item, f.get? h = some item ∧ item.kind = k := by
  rw [hf k]
  simp [handlesWhere, mem_entries]

theorem disjoint {k k' : Kind} (hk : k ≠ k') : (f.listed k).Disjoint (f.listed k') := by
  intro h hm hm'
  obtain ⟨item, hi, rfl⟩ := (hf.mem_listed k h).mp hm
  obtain ⟨item', hi', rfl⟩ := (hf.mem_listed k' h).mp hm'
  rw [hi] at hi'
  exact hk (congrArg Item.kind (Option.some.inj hi'))

theorem cover :
    ([hull, pilot] ++ f.modules ++ f.listed .charge ++ f.drones ++ f.fighters ++ f.implants ++
      f.skills).Perm f.handles := by
  have distinct : Kind.all.Nodup := by decide
  have joined : [hull, pilot] ++ f.modules ++ f.listed .charge ++ f.drones ++ f.fighters ++
      f.implants
      ++ f.skills = Kind.all.flatMap f.listed := by
    simp [Kind.all, listed]
  rw [joined]
  refine (List.perm_ext_iff_of_nodup ?_ f.nodup_handles).mpr fun h => ?_
  · refine List.nodup_flatMap.mpr ⟨fun k _ => ?_, ?_⟩
    · rw [hf k]
      exact f.nodup_handlesWhere _
    · exact distinct.imp fun hk => hf.disjoint hk
  · rw [List.mem_flatMap, mem_handles, Option.ne_none_iff_exists']
    constructor
    · rintro ⟨k, -, hm⟩
      obtain ⟨item, hi, -⟩ := (hf.mem_listed k h).mp hm
      exact ⟨item, hi⟩
    · rintro ⟨item, hi⟩
      exact ⟨item.kind, item.kind.mem_all, (hf.mem_listed _ h).mpr ⟨item, hi, rfl⟩⟩

end Sorted

/-! ### modules and their charges -/

end Fit

theorem Item.kind_of_charge? {i : Item} {c : Handle} (h : i.charge? = some c) :
    i.kind = .module := by
  unfold charge? at h
  unfold kind
  cases hr : i.role with
  | module state => rfl
  | _ => simp [hr] at h

theorem Item.kind_of_owner? {i : Item} {m : Handle} (h : i.owner? = some m) : i.kind = .charge := by
  unfold owner? at h
  unfold kind
  cases hr : i.role with
  | charge owner quantity => rfl
  | _ => simp [hr] at h

namespace Fit

/-- the charge of a module, the module of a charge -/
def partner? (f : Fit) (h : Handle) : Option Handle :=
  (f.get? h).bind Item.charge? <|> (f.get? h).bind Item.owner?

theorem targets_other (f : Fit) (h : Handle) (t : TypeId) :
    f.targets h t .other = (f.partner? h).toList := by
  unfold targets partner?
  cases f.get? h <;> rfl

namespace Paired
variable {f : Fit} (hf : f.Paired) {h k : Handle}
include hf

theorem partners_iff : f.Partners h k ↔ (f.get? h).bind Item.charge? = some k := by
  constructor
  · rintro ⟨⟨i, hi, -, hc⟩, -⟩
    rw [hi, Option.bind_some, hc]
  · intro hc
    have ho := (hf h k).mp hc
    obtain ⟨i, hi, hic⟩ := Option.bind_eq_some_iff.mp hc
    obtain ⟨j, hj, hjo⟩ := Option.bind_eq_some_iff.mp ho
    exact ⟨⟨i, hi, Item.kind_of_charge? hic, hic⟩, j, hj, Item.kind_of_owner? hjo, hjo⟩

theorem partner?_eq_some : f.partner? h = some k ↔ f.Partners h k ∨ f.Partners k h := by
  rw [hf.partners_iff, hf.partners_iff, hf k h]
  unfold partner?
  cases f.get? h with
  | none => simp
  | some i =>
    obtain ⟨role⟩ := i
    cases role <;> simp [Item.charge?, Item.owner?]

theorem targets_eq (t : TypeId) :
    f.targets h t .other = [k] ↔ f.Partners h k ∨ f.Partners k h := by
  rw [targets_other, Option.toList_eq_singleton_iff, hf.partner?_eq_some]

theorem targets_alone (t : TypeId) (alone : ∀ k, ¬ f.Partners h k ∧ ¬ f.Partners k h) :
    f.targets h t .other = [] := by
  rw [targets_other]
  cases hp : f.partner? h with
  | none => rfl
  | some k =>
    have some_partner := hf.partner?_eq_some.mp hp
    exact absurd some_partner (not_or.mpr (alone k))

/-- every charge has its module -/
theorem exists_module (hs : f.Sorted) {c : Handle} (hc : c ∈ f.listed .charge) :
    ∃ m ∈ f.modules, f.Partners m c := by
  obtain ⟨item, hi, kind⟩ := (hs.mem_listed _ c).mp hc
  have owned : ∃ m, item.owner? = some m := by
    unfold Item.kind at kind
    unfold Item.owner?
    cases hr : item.role with
    | charge owner quantity => exact ⟨owner, rfl⟩
    | _ =>
      rw [hr] at kind
      cases kind
  obtain ⟨m, hm⟩ := owned
  have named : (f.get? m).bind Item.charge? = some c := by
    rw [hf m c, hi]
    exact hm
  have partners := hf.partners_iff.mpr named
  obtain ⟨module, hget, hkind, -⟩ := partners.module
  exact ⟨m, (hs.mem_listed .module m).mpr ⟨module, hget, hkind⟩, partners⟩

end Paired

/-! ### the arrangement as a whole -/

/-- the types of the items are those that take part in the loadout -/
theorem LaidOut.types {l : Loadout} {rules : Rules} {f : Fit} (hf : f.LaidOut l rules)
    (t : TypeId) :
    t ∈ l.participants rules ↔ ∃ h item, f.get? h = some item ∧ item.type = t := by
  rw [Loadout.mem_participants, ← hf.places]
  constructor
  · rintro ⟨p, hp, rfl⟩
    obtain ⟨i, hi⟩ := List.mem_iff_getElem?.mp hp
    rw [getElem?_places] at hi
    obtain ⟨item, hget, rfl⟩ := Option.map_eq_some_iff.mp hi
    exact ⟨⟨i⟩, item, hget, rfl⟩
  · rintro ⟨⟨i⟩, item, hi, rfl⟩
    have stands : f.places[i]? = some item.place := by
      rw [getElem?_places, hi]
      rfl
    exact ⟨item.place, List.mem_of_getElem? stands, rfl⟩

theorem LaidOut.arranged {l : Loadout} {rules : Rules} {f : Fit} (hf : f.LaidOut l rules) :
    f.Arranged l rules where
  numbered k := hf.numbered ⟨k⟩
  first := ⟨rfl, rfl⟩
  order := hf.places
  skills := List.pairwise_map.mpr Std.ExtTreeMap.ordered_keys_toList
  ascending := hf.sorted.ascending
  kinds := hf.sorted.mem_listed
  disjoint _ _ := hf.sorted.disjoint
  cover := hf.sorted.cover
  named := hf.paired
  loaded _ := hf.paired.exists_module hf.sorted
  partners _ _ := hf.paired.targets_eq
  symmetric _ _ t t' := by rw [hf.paired.targets_eq t, hf.paired.targets_eq t', or_comm]
  alone _ := hf.paired.targets_alone
  types := hf.types

end Fit

/-- an assembled fit is arranged as its loadout says, and stays so whatever modifiers are attached
to it -/
theorem arranged_assemble (types : ItemTypeSource) (effects : EffectSource)
    (attributes : Option AttributeSource) (dbuffs : Option DbuffSource) (l : Loadout)
    (rules : Rules) :
    ∃ a,
      assemble { types := some types, effects := some effects, attributes, dbuffs } l rules =
        .ok a ∧
      a.fit.Arranged l rules ∧
      ∀ index catalog rules', (a.fit.applyModifiers index catalog rules').1.Arranged l rules := by
  obtain ⟨a, ha, laid⟩ := laidOut_assemble types effects attributes dbuffs l rules
  refine ⟨a, ha, laid.arranged, fun index catalog rules' => ?_⟩
  have attached := laid.attachAll catalog (a.fit.attachments index catalog rules')
  exact attached.arranged

end Fitting
