import Mathlib.Data.List.Forall2
import Fitting.Proofs.Json.Printed
import Fitting.Report.Text

/-!
# What the printed report loses

A report that is printed as JSON is told from its text, except for its values that are no finite
numbers: infinity, its negative and NaN are all printed as null.

* `Same`                    two looks at a value that tell the same values apart, item by item of
                            lists and maps;
* `Report.blurred`          a report whose infinite values have become NaN;
* `Report.same_printed`     this is what its JSON tells;
* `Report.print_eq_iff`     so two reports have one text before the digest just when they are
                            blurred to one;
* `printed_json_tells`      and one without infinite values is told from it.
-/

namespace Fitting

/-! ### looks that tell the same apart -/

/-- two looks at a value tell the same values apart -/
def Same {α β γ : Type} (f : α → β) (g : α → γ) : Prop := ∀ a b, f a = f b ↔ g a = g b

namespace Same
variable {α β γ : Type} {f : α → β} {g : α → γ}

theorem list (same : Same f g) : Same (List.map f) (List.map g) := by
  intro as bs
  rw [← List.forall₂_eq_eq_eq, ← List.forall₂_eq_eq_eq, List.forall₂_map_left_iff,
    List.forall₂_map_right_iff, List.forall₂_map_left_iff, List.forall₂_map_right_iff]
  exact ⟨fun h => h.imp fun a b => (same a b).mp, fun h => h.imp fun a b => (same a b).mpr⟩

theorem option (same : Same f g) {b : β} (other : ∀ a, f a ≠ b) :
    Same (fun a => (Option.map f a).getD b) (Option.map g) := by
  rintro (_ | a) (_ | a')
  · exact iff_of_true rfl rfl
  · exact iff_of_false (other a').symm fun h => nomatch h
  · exact iff_of_false (other a) fun h => nomatch h
  · exact (same a a').trans Option.some_inj.symm

end Same

/-! ### keys, choices and values -/

theorem Key.eq_of_toInt {t : Table} {k k' : Key t} (h : k.value.toInt = k'.value.toInt) :
    k = k' := by
  obtain ⟨i⟩ := k
  obtain ⟨i'⟩ := k'
  obtain rfl : i = i' := Int32.toInt_inj.mp h
  rfl

@[simp] theorem Key.toJson_inj {t : Table} {k k' : Key t} : k.toJson = k'.toJson ↔ k = k' :=
  ⟨fun h => eq_of_toInt (Json.integer.inj h), congrArg Key.toJson⟩

theorem Key.digits_inj {t : Table} {k k' : Key t} : k.digits = k'.digits ↔ k = k' := by
  refine ⟨fun h => eq_of_toInt ?_, congrArg Key.digits⟩
  have closed : Json.Closed [] := fun _ h => nomatch h
  have texts : (toString k.value.toInt).toList ++ [] = (toString k'.value.toInt).toList ++ [] :=
    congrArg (fun s => String.toList s ++ []) h
  have text := Json.numberText_integer k.value.toInt
  have text' := Json.numberText_integer k'.value.toInt
  exact Json.integer.inj (text.told text' closed closed texts).1

theorem choiceJson_inj {α : Type} [Named α] (names : Function.Injective (Named.name : α → String))
    {a b : α} :
    choiceJson a = choiceJson b ↔ a = b :=
  ⟨fun h => names (Json.text.inj h), congrArg choiceJson⟩

@[simp] theorem Rack.choiceJson_inj {a b : Rack} : choiceJson a = choiceJson b ↔ a = b :=
  Fitting.choiceJson_inj fun a b => by cases a <;> cases b <;> decide

@[simp] theorem ModuleStatus.choiceJson_inj {a b : ModuleStatus} :
    choiceJson a = choiceJson b ↔ a = b :=
  Fitting.choiceJson_inj fun a b => by cases a <;> cases b <;> decide

@[simp] theorem Key.printed_toJson {t : Table} (k : Key t) : k.toJson.printed = k.toJson := rfl

@[simp] theorem printed_integer (i : Int) : (Json.integer i).printed = .integer i := rfl

@[simp] theorem printed_choice {α : Type} [Named α] (a : α) :
    (choiceJson a).printed = choiceJson a := rfl

/-- of a double JSON tells its finite value -/
theorem same_decimal : Same (fun x => (Json.decimal x).printed) Double.blurred := by
  intro x y
  simp only [Double.blurred_eq_iff, Json.printed]
  cases Double.finite? x <;> cases Double.finite? y <;> simp

/-- so it tells the finite values of a table, if it tells the keys -/
theorem same_table {κ : Type} [Ord κ] [Std.TransOrd κ] [Std.LawfulEqOrd κ] {name : κ → String}
    (names : ∀ k k', name k = name k' ↔ k = k') :
    Same (fun m : Map κ Float => m.toList.map fun row => (name row.1, (Json.decimal row.2).printed))
      (fun m : Map κ Float => m.map fun _ x => Double.blurred x) := by
  intro m m'
  have row : Same (fun row : κ × Float => (name row.1, (Json.decimal row.2).printed))
      (fun row : κ × Float => (row.1, Double.blurred row.2)) := by
    intro row row'
    rw [Prod.mk.injEq, Prod.mk.injEq, names, same_decimal row.2 row'.2]
  rw [← Std.ExtTreeMap.toList_inj, Std.ExtTreeMap.toList_map, Std.ExtTreeMap.toList_map]
  exact row.list _ _

/-! ### reports -/

/-- a report whose infinite values have become NaN -/
def Report.blurred (r : Report) : Report := r.map Double.blurred

theorem same_name :
    Same (fun name : Option String => ((name.map Json.text).getD .null).printed) id := by
  intro name name'
  cases name <;> cases name' <;> simp [Json.printed]

theorem same_effects {t : Table} :
    Same (fun ks : List (Key t) => ks.map fun k => k.toJson.printed) id :=
  fun _ _ => (List.map_injective_iff.mpr fun _ _ => Key.toJson_inj.mp).eq_iff

theorem ResolvedItem.same_printed :
    Same (fun r => (ResolvedItem.toJson r).printed) (ResolvedItem.map Double.blurred) := by
  rintro ⟨type, name, group, category, effects, attributes, attributesByName⟩
    ⟨type', name', group', category', effects', attributes', attributesByName'⟩
  have names := same_name name name'
  have lists := same_effects effects effects'
  have values := same_table (fun _ _ => Key.digits_inj) attributes attributes'
  have valuesByName := same_table (fun _ _ => Iff.rfl) attributesByName attributesByName'
  dsimp only [id, Key.printed_toJson] at names lists values valuesByName
  simp [toJson, ResolvedItem.map, Function.comp_def, names, lists, values, valuesByName]

theorem ResolvedCharge.same_printed :
    Same (fun c => (ResolvedCharge.toJson c).printed) (ResolvedCharge.map Double.blurred) := by
  rintro ⟨item, quantity⟩ ⟨item', quantity'⟩
  have items := ResolvedItem.same_printed item item'
  dsimp only at items
  simp [toJson, ResolvedCharge.map, items, UInt32.toNat_inj]

theorem same_charge :
    Same (fun c : Option ResolvedCharge => ((c.map ResolvedCharge.toJson).getD .null).printed)
    (Option.map (ResolvedCharge.map Double.blurred)) := by
  intro c c'
  have told := ResolvedCharge.same_printed.option (b := .null)
    (fun c => by simp [ResolvedCharge.toJson]) c c'
  cases c <;> cases c' <;> exact told

theorem ResolvedModule.same_printed :
    Same (fun m => (ResolvedModule.toJson m).printed) (ResolvedModule.map Double.blurred) := by
  rintro ⟨item, rack, quantity, status, charge⟩ ⟨item', rack', quantity', status', charge'⟩
  have items := ResolvedItem.same_printed item item'
  have charges := same_charge charge charge'
  dsimp only at items charges
  simp [toJson, ResolvedModule.map, items, charges, UInt32.toNat_inj]

theorem ResolvedSquad.same_printed :
    Same (fun q => (ResolvedSquad.toJson q).printed) (ResolvedSquad.map Double.blurred) := by
  rintro ⟨item, quantity, status⟩ ⟨item', quantity', status'⟩
  have items := ResolvedItem.same_printed item item'
  dsimp only at items
  simp [toJson, ResolvedSquad.map, items, UInt32.toNat_inj]

theorem ResolvedSkill.same_printed :
    Same (fun s => (ResolvedSkill.toJson s).printed) (ResolvedSkill.map Double.blurred) := by
  rintro ⟨item, level⟩ ⟨item', level'⟩
  have items := ResolvedItem.same_printed item item'
  dsimp only at items
  simp [toJson, ResolvedSkill.map, items, UInt8.toNat_inj]

theorem same_array {α β : Type} {json : α → Json} {look : α → β}
    (same : Same (fun a => (json a).printed) look) :
    Same (fun as : List α => (Json.array (as.map json)).printed) (List.map look) := by
  intro as as'
  simp only [Json.printed_array, List.map_map, Json.array.injEq]
  exact same.list as as'

namespace Report

/-- what JSON tells of a report is the report with its finite values -/
theorem same_printed : Same (fun r => (Report.toJson r).printed) Report.blurred := by
  rintro ⟨hull, pilot, modules, drones, fighters, implants, skills⟩
    ⟨hull', pilot', modules', drones', fighters', implants', skills'⟩
  have hulls := ResolvedItem.same_printed hull hull'
  have pilots := ResolvedItem.same_printed pilot pilot'
  have fitted := same_array ResolvedModule.same_printed modules modules'
  have flights := same_array ResolvedSquad.same_printed drones drones'
  have squads := same_array ResolvedSquad.same_printed fighters fighters'
  have plugged := same_array ResolvedItem.same_printed implants implants'
  have trained := same_array ResolvedSkill.same_printed skills skills'
  dsimp only at hulls pilots fitted flights squads plugged trained
  simp only [toJson, blurred, map, Json.printed_object, List.map_cons, List.map_nil,
    Json.object.injEq, List.cons.injEq,
    Prod.mk.injEq, true_and, and_true, hulls, pilots, fitted, flights, squads, plugged, trained,
    Report.mk.injEq]

/-- the last line of a printed report -/
def digestLine (r : Report) : String := "digest: " ++ r.digestText ++ "\n"

theorem print_json (r : Report) : r.print .json = r.toJson.render ++ "\n" ++ r.digestLine := by
  simp [print, digestLine, String.join]

/-- two reports have one text before the digest just when they are blurred to one -/
theorem print_eq_iff {r r' : Report} :
    (∃ part, r.print .json = part ++ r.digestLine ∧ r'.print .json = part ++ r'.digestLine) ↔
      r.blurred = r'.blurred := by
  rw [← same_printed r r', ← Json.render_eq_iff]
  constructor
  · rintro ⟨part, text, text'⟩
    rw [print_json, String.append_left_inj] at text text'
    exact (String.append_left_inj "\n").mp (text.trans text'.symm)
  · intro same
    exact ⟨r.toJson.render ++ "\n", r.print_json, by rw [r'.print_json, same]⟩

end Report

/-! ### reports without infinite values -/

/-- no value of an item is infinite, neither by number nor by name -/
structure ResolvedItem.NoneInfinite (r : ResolvedItem) : Prop where
  byId : ∀ a x, r.get? a = some x → x.isInf = false
  byName : ∀ name x, r.getByName? name = some x → x.isInf = false

theorem Map.blurred_eq_self {κ : Type} [Ord κ] [Std.TransOrd κ] [Std.LawfulEqOrd κ]
    {m : Map κ Float} (none : ∀ (k : κ) (x : Float), m[k]? = some x → x.isInf = false) :
    m.map (fun _ x => Double.blurred x) = m := by
  apply Std.ExtTreeMap.ext_getElem?
  intro k
  rw [Std.ExtTreeMap.getElem?_map]
  cases found : m[k]? with
  | none => rfl
  | some x => exact congrArg some (Double.blurred_eq_self (none k x found))

theorem ResolvedItem.NoneInfinite.blurred_eq {r : ResolvedItem} (h : r.NoneInfinite) :
    r.map Double.blurred = r := by
  unfold ResolvedItem.map
  rw [Map.blurred_eq_self h.byId, Map.blurred_eq_self h.byName]

namespace Report

/-- no value of a report is infinite -/
def NoneInfinite (r : Report) : Prop := ∀ item ∈ r.items, item.NoneInfinite

theorem NoneInfinite.blurred_eq {r : Report} (h : r.NoneInfinite) : r.blurred = r := by
  have each : ∀ item ∈ r.items, item.map Double.blurred = item :=
    fun item hi => (h item hi).blurred_eq
  simp only [items, List.cons_append, List.append_assoc, List.forall_mem_cons,
    List.forall_mem_append, List.forall_mem_map, List.forall_mem_flatMap] at each
  obtain ⟨hull, pilot, modules, drones, fighters, implants, skills⟩ := each
  have listed : ∀ {α : Type} {f : α → α} {as : List α}, (∀ a ∈ as, f a = a) → as.map f = as :=
    fun same =>
    (List.map_congr_left same).trans (List.map_id' _)
  have loaded : ∀ m ∈ r.modules, m.map Double.blurred = m := by
    rintro ⟨item, rack, quantity, status, charge⟩ hm
    obtain ⟨own, inside⟩ := modules _ hm
    cases charge with
    | none => exact congrArg (ResolvedModule.mk · rack quantity status none) own
    | some c =>
      have same : c.map Double.blurred = c :=
        congrArg (ResolvedCharge.mk · c.quantity) (inside c.item List.mem_cons_self)
      show ResolvedModule.mk (item.map _) rack quantity status (some (c.map _)) = _
      rw [same]
      exact congrArg (ResolvedModule.mk · rack quantity status (some c)) own
  have squads : ∀ {qs : List ResolvedSquad}, (∀ q ∈ qs, q.item.map Double.blurred = q.item) →
      qs.map (ResolvedSquad.map Double.blurred) = qs := fun same =>
    listed fun q hq => congrArg (ResolvedSquad.mk · q.quantity q.status) (same q hq)
  have trained : ∀ s ∈ r.skills, s.map Double.blurred = s := fun s hs =>
    congrArg (ResolvedSkill.mk · s.level) (skills s hs)
  unfold blurred map
  rw [hull, pilot, listed loaded, squads drones, squads fighters, listed implants, listed trained]

/-- What is printed as JSON before the digest loses which values are infinite and nothing else: it
is one text for two reports just when they are equal but for values that are no finite numbers.  So
of reports without infinite values it tells every one, to the last bit of each value. -/
theorem printed_json_tells (r r' : Report) :
    ((∃ part, r.print .json = part ++ r.digestLine ∧ r'.print .json = part ++ r'.digestLine) ↔
      r.blurred = r'.blurred) ∧
    (r.NoneInfinite → r'.NoneInfinite →
      (∃ part, r.print .json = part ++ r.digestLine ∧ r'.print .json = part ++ r'.digestLine) →
        r = r') := by
  refine ⟨print_eq_iff, fun none none' same => ?_⟩
  have blurred := print_eq_iff.mp same
  rwa [none.blurred_eq, none'.blurred_eq] at blurred

/-- a report of a bare hull with one value -/
def single (x : Float) : Report where
  hull :=
    { type := ⟨100⟩, name := none, group := ⟨10⟩, category := ⟨6⟩, effects := []
      attributes := (∅ : Map AttributeId Float).insert ⟨9⟩ x
      attributesByName := (∅ : Map String Float).insert "hp" x }
  pilot :=
    { type := ⟨1373⟩, name := none, group := ⟨1⟩, category := ⟨1⟩, effects := []
      attributes := ∅
      attributesByName := ∅ }
  modules := []
  drones := []
  fighters := []
  implants := []
  skills := []

theorem single_blurred (x : Float) : (single x).blurred = single (Double.blurred x) := rfl

theorem isInf_insert {κ : Type} [Ord κ] [Std.TransOrd κ] [Std.LawfulEqOrd κ] {key k : κ}
    {x y : Float}
    (finite : x.isInf = false) (found : ((∅ : Map κ Float).insert key x)[k]? = some y) :
    y.isInf = false := by
  rw [Std.ExtTreeMap.getElem?_insert] at found
  split at found
  · exact Option.some.inj found ▸ finite
  · exact absurd found (by simp)

theorem noneInfinite_single {x : Float} (finite : x.isInf = false) : (single x).NoneInfinite := by
  have hull : (single x).hull.NoneInfinite :=
    ⟨fun _ _ found => isInf_insert finite found, fun _ _ found => isInf_insert finite found⟩
  have pilot : (single x).pilot.NoneInfinite :=
    ⟨fun _ _ found => (nomatch found), fun _ _ found => (nomatch found)⟩
  show ∀ item ∈ [(single x).hull, (single x).pilot], item.NoneInfinite
  rw [List.forall_mem_cons, List.forall_mem_singleton]
  exact ⟨hull, pilot⟩

/-- two spellings of one double are printed alike -/
theorem printed_json_tells_sum :
    (single (0.1 + 0.2)).NoneInfinite ∧ (single 0.30000000000000004).NoneInfinite ∧
    (∃ part, (single (0.1 + 0.2)).print .json = part ++ (single (0.1 + 0.2)).digestLine ∧
      (single 0.30000000000000004).print .json = part ++ (single 0.30000000000000004).digestLine) ∧
    single (0.1 + 0.2) = single 0.30000000000000004 := by
  have sum : (0.1 + 0.2 : Float) = 0.30000000000000004 := by decide +kernel
  have none : (single (0.1 + 0.2)).NoneInfinite := noneInfinite_single (by decide +kernel)
  have none' : (single 0.30000000000000004).NoneInfinite := noneInfinite_single (by decide +kernel)
  have part := print_eq_iff.mpr (congrArg (fun x => (single x).blurred) sum)
  exact ⟨none, none', part, (printed_json_tells _ _).2 none none' part⟩

/-- a value that overflows upwards is printed like one that overflows downwards -/
theorem printed_json_infinite :
    (∃ part, (single (1e200 * 1e200)).print .json = part ++ (single (1e200 * 1e200)).digestLine ∧
      (single (1e200 * -1e200)).print .json = part ++ (single (1e200 * -1e200)).digestLine) ∧
    single (1e200 * 1e200) ≠ single (1e200 * -1e200) := by
  constructor
  · apply print_eq_iff.mpr
    have values : Double.blurred (1e200 * 1e200) =
        Double.blurred (1e200 * -1e200) := by decide +kernel
    rw [single_blurred, single_blurred, values]
  · intro same
    have values : some (1e200 * 1e200 : Float) = some (1e200 * -1e200) :=
      congrArg (fun r : Report => r.hull.get? ⟨9⟩) same
    revert values
    decide +kernel

end Report

end Fitting
