import Mathlib.Data.List.Forall2
import Mathlib.Data.List.Nodup
import Fitting.Modifier.Description
import Fitting.Proofs.Json.Writing

/-!
# Modifiers in a description

A modifier is written as an object by the documented format, and a description is an array of them.
Decoding gives the modifiers back, whatever the order of the members, the blanks and the escapes.
Each entry is decoded as if it stood alone.

* `Entry.members`               an entry as the members of an object;
* `RawModifier.Documented`      the entries that state a modifier by the documented format;
* `decodeDescription_written`   a description of modifiers is decoded to them;
* `decodeDescription_entries`   a description is decoded entry by entry.
-/

namespace Fitting

/-! ### entries on their own -/

namespace Json

theorem items_intercalate {n : Nat} {es : List String} {vs : List Json}
    (h : List.Forall₂ (fun e v => TextOf v e ∧ v.depth ≤ n) es vs) (some : es ≠ []) :
    ItemsText (ValueText n) vs (List.intercalate [','] (es.map String.toList)) := by
  induction h with
  | nil => exact absurd rfl some
  | @cons e v es vs head rest ih =>
    obtain ⟨⟨t, b, parts, hv, blanks⟩, bound⟩ := head
    have hv := hv.of_depth_le bound
    obtain _ | ⟨e', es⟩ := es
    · cases rest
      rw [List.map_singleton, List.intercalate_singleton, parts]
      exact .last hv blanks
    · rw [List.map_cons, List.map_cons, List.intercalate_cons_cons, parts, List.append_assoc,
        List.append_assoc]
      exact .cons hv blanks (ih (List.cons_ne_nil _ _))

/-- values with commas between them and brackets around them are an array -/
theorem textOf_array {es : List String} {vs : List Json}
    (h : List.Forall₂ (fun e v => TextOf v e ∧ v.depth ≤ 126) es vs) :
    TextOf (.array vs) ("[" ++ ",".intercalate es ++ "]") := by
  have inside : BracketedText (ValueText 126) ']' vs
      (List.intercalate [','] (es.map String.toList) ++ [']']) := by
    obtain _ | ⟨e, es⟩ := es
    · cases h
      exact .nothing blanks_nil
    · exact .items (items_intercalate h (List.cons_ne_nil _ _))
  have text : ValueText maxDepth (.array vs) _ := .after blanks_nil (.array inside)
  refine ⟨_, [], (List.append_nil _).symm, ?_, blanks_nil⟩
  rw [String.toList_append, String.toList_append, String.toList_intercalate, List.append_assoc]
  exact text

end Json

theorem decodeDescription_array {text : String} {vs : List Json}
    (h : Json.TextOf (.array vs) text) :
    decodeDescription text = vs.map decodeEntry := by
  unfold decodeDescription
  rw [Json.parse?_eq_some_iff.mpr h]

/-- an entry of a description is decoded as if it stood alone: what is wrong with it is reported in
its place, and the others are what they are -/
theorem decodeDescription_entries {es : List String}
    (accepted : ∀ e ∈ es, ∃ v, Json.parse? e = some v ∧ v.depth ≤ 126) :
    ∃ results, (es.map fun e => decodeDescription ("[" ++ e ++ "]")) = results.map (fun r => [r]) ∧
      decodeDescription ("[" ++ ",".intercalate es ++ "]") = results := by
  obtain ⟨vs, h⟩ : ∃ vs, List.Forall₂ (fun e v => Json.TextOf v e ∧ v.depth ≤ 126) es vs := by
    induction es with
    | nil => exact ⟨[], .nil⟩
    | cons e es ih =>
      obtain ⟨⟨v, read, bound⟩, rest⟩ := List.forall_mem_cons.mp accepted
      obtain ⟨vs, h⟩ := ih rest
      exact ⟨v :: vs, .cons ⟨Json.parse?_eq_some_iff.mp read, bound⟩ h⟩
  refine ⟨vs.map decodeEntry, ?_, decodeDescription_array (Json.textOf_array h)⟩
  clear accepted
  induction h with
  | nil => rfl
  | cons head _ ih =>
    have alone := decodeDescription_array (Json.textOf_array (.cons head .nil))
    rw [List.map_cons, List.map_cons, List.map_cons, ih]
    exact congrArg (· :: _) alone

/-- one entry of a wrong shape, one that is decoded, with blanks around it, and one of a function
that is not known -/
def mixedEntries : List String :=
  ["[[], \x7b\x7d]",
    " \x7b\"func\": \"ItemModifier\", \"domain\": \"sh\\u0069pID\", \"modifiedAttributeID\": 50,
      \"modifyingAttributeID\": -1, \"operation\": 7\x7d ",
    "\x7b\"func\": \"EffectStopper\", \"domain\": \"shipID\"\x7d"]

theorem decodeDescription_entries_mixed :
    (∀ e ∈ mixedEntries, ∃ v, Json.parse? e = some v ∧ v.depth ≤ 126) ∧
    decodeDescription ("[" ++ ",".intercalate mixedEntries ++ "]") =
      [.error .malformed, .ok ⟨.postAssign, .ship, ⟨50⟩, ⟨-1⟩⟩,
      .error (.unknownFunction "EffectStopper")] := by
  have checked : ∀ e ∈ mixedEntries, (Json.parse? e).any (fun v => v.depth ≤ 126) := by
    decide +kernel
  have accepted : ∀ e ∈ mixedEntries, ∃ v, Json.parse? e = some v ∧ v.depth ≤ 126 := by
    intro e he
    have check := checked e he
    cases read : Json.parse? e with
    | none =>
      rw [read] at check
      cases check
    | some v =>
      rw [read] at check
      exact ⟨v, rfl, of_decide_eq_true check⟩
  have alone : (mixedEntries.map fun e => decodeDescription ("[" ++ e ++ "]")) =
      [.error .malformed, .ok ⟨.postAssign, .ship, ⟨50⟩, ⟨-1⟩⟩,
        .error (.unknownFunction "EffectStopper")].map
        fun r => [r] := by decide +kernel
  obtain ⟨results, each, whole⟩ := decodeDescription_entries accepted
  have single : Function.Injective fun r : Except DescriptionError RawModifier => [r] :=
    fun _ _ h => List.singleton_inj.mp h
  exact ⟨accepted, whole.trans (List.map_injective_iff.mpr single (each.symm.trans alone))⟩

/-! ### entries in their documented form -/

namespace Json

theorem lookup?_eq_some_iff {ms : List (String × Json)} (distinct : (ms.map Prod.fst).Nodup)
    {name : String} {v : Json} : lookup? name ms = some v ↔ (name, v) ∈ ms := by
  unfold lookup?
  constructor
  · intro h
    obtain ⟨⟨n, v'⟩, found, rfl⟩ := Option.map_eq_some_iff.mp h
    have named := List.find?_some found
    obtain rfl : n = name := eq_of_beq named
    exact List.mem_reverse.mp (List.mem_of_find?_eq_some found)
  · intro h
    have here : (ms.reverse.find? (fun m => m.1 == name)).isSome :=
      List.find?_isSome.mpr ⟨(name, v), List.mem_reverse.mpr h, beq_self_eq_true name⟩
    obtain ⟨m, found⟩ := Option.isSome_iff_exists.mp here
    have named := List.find?_some found
    have same : m = (name, v) := List.inj_on_of_nodup_map distinct
      (List.mem_reverse.mp (List.mem_of_find?_eq_some found)) h (eq_of_beq named)
    rw [found, same]
    rfl

/-- the order of the members makes no difference if their names do -/
theorem lookup?_perm {ms ms' : List (String × Json)} (perm : ms.Perm ms')
    (distinct : (ms.map Prod.fst).Nodup) (name : String) : lookup? name ms = lookup? name ms' := by
  have distinct' := (perm.map Prod.fst).nodup_iff.mp distinct
  refine Option.ext fun v => ?_
  rw [lookup?_eq_some_iff distinct, lookup?_eq_some_iff distinct', perm.mem_iff]

end Json

namespace EntryField

def all : List EntryField := [.func, .domain, .modified, .modifying, .operation, .group, .skill]

theorem mem_all (f : EntryField) : f ∈ all := by
  cases f <;> decide

theorem nodup_names : (all.map name).Nodup := by decide

end EntryField

namespace Entry
variable (e : Entry)

/-- the fields that are there, as members of an object -/
def members : List (String × Json) :=
  (e.func.map fun s => ("func", Json.text s)).toList ++
  (e.domain.map fun s => ("domain", Json.text s)).toList ++
  (e.modified.map fun i => ("modifiedAttributeID", Json.integer i.toInt)).toList ++
  (e.modifying.map fun i => ("modifyingAttributeID", Json.integer i.toInt)).toList ++
  (e.operation.map fun i => ("operation", Json.integer i.toInt)).toList ++
  (e.group.map fun i => ("groupID", Json.integer i.toInt)).toList ++
  (e.skill.map fun i => ("skillTypeID", Json.integer i.toInt)).toList

def value? : EntryField → Option Json
  | .func => e.func.map .text
  | .domain => e.domain.map .text
  | .modified => e.modified.map fun i => .integer i.toInt
  | .modifying => e.modifying.map fun i => .integer i.toInt
  | .operation => e.operation.map fun i => .integer i.toInt
  | .group => e.group.map fun i => .integer i.toInt
  | .skill => e.skill.map fun i => .integer i.toInt

theorem filterMap_cons_eq {α β : Type} (g : α → Option β) (a : α) (as : List α) :
    (a :: as).filterMap g = (g a).toList ++ as.filterMap g := by
  rw [List.filterMap_cons]
  cases g a <;> rfl

theorem members_eq :
    e.members = EntryField.all.filterMap fun f => (e.value? f).map (Prod.mk f.name) := by
  simp only [EntryField.all, filterMap_cons_eq, value?, Option.map_map, List.filterMap_nil,
    List.append_nil, members, List.append_assoc]
  rfl

theorem nodup_members : (e.members.map Prod.fst).Nodup := by
  have part : ∀ fields : List EntryField,
      ((fields.filterMap fun f => (e.value? f).map (Prod.mk f.name)).map Prod.fst).Sublist
        (fields.map EntryField.name) := by
    intro fields
    induction fields with
    | nil => exact .slnil
    | cons f fields ih =>
      rw [List.filterMap_cons]
      cases e.value? f with
      | none => exact ih.cons _
      | some v => exact ih.cons_cons _
  rw [members_eq]
  exact (part _).nodup EntryField.nodup_names

theorem lookup?_members (f : EntryField) : Json.lookup? f.name e.members = e.value? f := by
  refine Option.ext fun v => ?_
  rw [Json.lookup?_eq_some_iff e.nodup_members, members_eq, List.mem_filterMap]
  constructor
  · rintro ⟨f', hf', member⟩
    obtain ⟨v', value, same⟩ := Option.map_eq_some_iff.mp member
    obtain ⟨named, rfl⟩ := Prod.mk.inj same
    obtain rfl := List.inj_on_of_nodup_map EntryField.nodup_names hf' f.mem_all named
    exact value
  · intro value
    exact ⟨f, f.mem_all, Option.map_eq_some_iff.mpr ⟨v, value, rfl⟩⟩

theorem text?_map (s : Option String) : text? (s.map .text) = some s := by
  cases s <;> rfl

theorem integer?_map (i : Option Int32) : integer? (i.map fun i => .integer i.toInt) = some i := by
  cases i with
  | none => rfl
  | some i => exact congrArg (Option.map some) (int32?_toInt i)

/-- an entry is read back from its members in any order -/
theorem ofJson?_members {ms : List (String × Json)} (order : ms.Perm e.members) :
    ofJson? (.object ms) = some e := by
  have fields : (fun f => Json.lookup? (EntryField.name f) ms) = e.value? := by
    funext f
    rw [← e.lookup?_members f]
    exact (Json.lookup?_perm order.symm e.nodup_members _).symm
  show ofFields? (fun f => Json.lookup? f.name ms) = some e
  rw [fields]
  simp only [ofFields?, value?, text?_map, integer?_map]
  rfl

end Entry

/-- the code of an operation -/
def Operation.code : Operation → Int32
  | .preAssign => -1
  | .preMul => 0
  | .preDiv => 1
  | .modAdd => 2
  | .modSub => 3
  | .postMul => 4
  | .postDiv => 5
  | .postPercent => 6
  | .postAssign => 7

theorem Operation.ofCode_code (op : Operation) : ofCode op.code = .ok op := by
  cases op <;> rfl

/-- the code of a skill -/
def SkillRef.code : SkillRef → Int32
  | .type skill => skill.value
  | .source => -1

theorem SkillRef.ofCode_code {s : SkillRef} (h : s ≠ .type ⟨-1⟩) : ofCode s.code = s := by
  cases s with
  | source => rfl
  | type skill =>
    refine if_neg fun same => h ?_
    exact congrArg (fun i => SkillRef.type ⟨i⟩) same

/-- the domains that an entry may name -/
def domainTexts : List String := ["itemID", "shipID", "charID", "otherID"]

/-- how the documented format writes a domain: by a function, by the domain it names, by a group and
by a skill.  Functions that act on more than one item may name any domain. -/
inductive Domain.Documented : Domain → String → String → Option Int32 → Option Int32 → Prop where
  | item : Documented .item "ItemModifier" "itemID" none none
  | ship : Documented .ship "ItemModifier" "shipID" none none
  | pilot : Documented .pilot "ItemModifier" "charID" none none
  | other : Documented .other "ItemModifier" "otherID" none none
  | location {text : String} (any : text ∈ domainTexts) :
      Documented .location "LocationModifier" text none none
  | locationGroup {text : String} (any : text ∈ domainTexts) (group : GroupId) :
      Documented (.locationGroup group) "LocationGroupModifier" text (some group.value) none
  | locationSkill {text : String} (any : text ∈ domainTexts) (skill : SkillRef) :
      Documented (.requiredSkill skill) "LocationRequiredSkillModifier" text none (some skill.code)
  | ownerSkill {text : String} (any : text ∈ domainTexts) (skill : SkillRef) :
      Documented (.requiredSkill skill) "OwnerRequiredSkillModifier" text none (some skill.code)

namespace RawModifier

/-- the entries that state a modifier by the documented format -/
inductive Documented (m : RawModifier) : Entry → Prop where
  | states {func text : String} {group skill : Option Int32}
      (h : m.domain.Documented func text group skill) :
      m.Documented ⟨some func, some text, some m.modified.value, some m.modifying.value,
        some m.operation.code, group, skill⟩

/-- an object with the members of such an entry in any order -/
def Written (m : RawModifier) (v : Json) : Prop :=
  ∃ e ms, m.Documented e ∧ ms.Perm e.members ∧ v = .object ms

theorem itemDomain_of_mem {text : String} (any : text ∈ domainTexts) :
    ∃ d, Entry.itemDomain text = .ok d := by
  simp only [domainTexts, List.mem_cons, List.not_mem_nil, or_false] at any
  rcases any with rfl | rfl | rfl | rfl <;> exact ⟨_, rfl⟩

/-- the code of the source stands for the source, so the type with that number is not written -/
theorem Documented.decode {m : RawModifier} {e : Entry} (h : m.Documented e)
    (representable : m.domain ≠ .requiredSkill (.type ⟨-1⟩)) : e.decode = .ok m := by
  obtain ⟨op, domain, modified, modifying⟩ := m
  obtain @⟨func, text, group, skill, acts⟩ := h
  have stated : ∃ onItem, Entry.itemDomain text = .ok onItem ∧
      Entry.functionDomain ⟨some func, some text, some modified.value, some modifying.value,
        some op.code, group, skill⟩ func onItem = .ok domain := by
    cases acts with
    | item | ship | pilot | other => exact ⟨_, rfl, rfl⟩
    | location any | locationGroup any =>
      obtain ⟨d, named⟩ := itemDomain_of_mem any
      exact ⟨d, named, rfl⟩
    | locationSkill any skill | ownerSkill any skill =>
      obtain ⟨d, named⟩ := itemDomain_of_mem any
      have back : SkillRef.ofCode skill.code = skill :=
        SkillRef.ofCode_code fun same => representable (congrArg Domain.requiredSkill same)
      exact ⟨d, named, congrArg (fun s => Except.ok (Domain.requiredSkill s)) back⟩
  obtain ⟨onItem, named, acts⟩ := stated
  unfold Entry.decode
  simp only [Entry.need, named, acts, op.ofCode_code, bind, Except.bind]
  rfl

/-- a modifier is decoded from what is written of it -/
theorem Written.decodeEntry {m : RawModifier} {v : Json} (h : m.Written v)
    (representable : m.domain ≠ .requiredSkill (.type ⟨-1⟩)) : decodeEntry v = .ok m := by
  obtain ⟨e, ms, documented, order, rfl⟩ := h
  unfold Fitting.decodeEntry
  rw [e.ofJson?_members order]
  exact documented.decode representable

/-- a plain way to write a domain -/
def plainEntry (m : RawModifier) : Entry :=
  let e : Entry := ⟨none, some "shipID", some m.modified.value, some m.modifying.value,
    some m.operation.code, none, none⟩
  match m.domain with
  | .item => { e with func := some "ItemModifier", domain := some "itemID" }
  | .ship => { e with func := some "ItemModifier" }
  | .pilot => { e with func := some "ItemModifier", domain := some "charID" }
  | .other => { e with func := some "ItemModifier", domain := some "otherID" }
  | .location => { e with func := some "LocationModifier" }
  | .locationGroup group =>
    { e with func := some "LocationGroupModifier", group := some group.value }
  | .requiredSkill skill =>
    { e with
      func := some "OwnerRequiredSkillModifier", domain := some "charID", skill := some skill.code }

/-- the object that states a modifier in this way -/
def toJson (m : RawModifier) : Json := .object m.plainEntry.members

theorem written_toJson (m : RawModifier) : m.Written m.toJson := by
  refine ⟨m.plainEntry, _, ?_, .refl _, rfl⟩
  obtain ⟨op, domain, modified, modifying⟩ := m
  cases domain with
  | item => exact ⟨.item⟩
  | ship => exact ⟨.ship⟩
  | pilot => exact ⟨.pilot⟩
  | other => exact ⟨.other⟩
  | location => exact ⟨.location (by decide)⟩
  | locationGroup group => exact ⟨.locationGroup (by decide) group⟩
  | requiredSkill skill => exact ⟨.ownerSkill (by decide) skill⟩

end RawModifier

/-! ### descriptions in their documented form -/

theorem exact_int32 (i : Int32) : (Json.integer i.toInt).Exact := by
  have lower : -2147483648 ≤ i.toInt := i.minValue_le_toInt
  have upper : i.toInt ≤ 2147483647 := i.toInt_le
  have word : (Json.wordBound : Int) = 18446744073709551616 := rfl
  exact .integer (by omega) (by omega)

theorem Entry.scalar_members (e : Entry) : ∀ m ∈ e.members, m.2.Exact ∧ m.2.depth = 0 := by
  intro m hm
  rw [members_eq, List.mem_filterMap] at hm
  obtain ⟨f, -, member⟩ := hm
  obtain ⟨v, value, rfl⟩ := Option.map_eq_some_iff.mp member
  cases f <;> obtain ⟨a, -, rfl⟩ := Option.map_eq_some_iff.mp value
  all_goals first | exact ⟨.text a, rfl⟩ | exact ⟨exact_int32 a, rfl⟩

/-- a description of modifiers is decoded to them: in any wording of the documented format and any
text of it, and as `Json.render` writes it -/
theorem decodeDescription_written {ms : List RawModifier}
    (representable : ∀ m ∈ ms, m.domain ≠ .requiredSkill (.type ⟨-1⟩)) :
    (∀ vs text, List.Forall₂ RawModifier.Written ms vs → Json.TextOf (.array vs) text →
      decodeDescription text = ms.map .ok) ∧
    decodeDescription (Json.render (.array (ms.map RawModifier.toJson))) = ms.map .ok := by
  have any : ∀ vs text, List.Forall₂ RawModifier.Written ms vs → Json.TextOf (.array vs) text →
      decodeDescription text = ms.map .ok := by
    intro vs text written textOf
    rw [decodeDescription_array textOf]
    clear textOf
    induction written with
    | nil => rfl
    | cons head _ ih =>
      obtain ⟨hm, hms⟩ := List.forall_mem_cons.mp representable
      rw [List.map_cons, List.map_cons, head.decodeEntry hm, ih hms]
  refine ⟨any, any (ms.map RawModifier.toJson) _ ?_ ?_⟩
  · exact List.forall₂_map_right_iff.mpr (List.forall₂_same.mpr fun m _ => m.written_toJson)
  · have objects : ∀ v ∈ ms.map RawModifier.toJson, v.Exact ∧ v.depth ≤ 1 := by
      intro v hv
      obtain ⟨m, -, rfl⟩ := List.mem_map.mp hv
      have members := m.plainEntry.scalar_members
      refine ⟨.object fun member h => (members member h).1, ?_⟩
      exact Nat.succ_le_succ
        (Json.depthOfMembers_le.mpr fun member h => Nat.le_of_eq (members member h).2)
    have shallow : (Json.array (ms.map RawModifier.toJson)).depth ≤ 2 :=
      Nat.succ_le_succ (Json.depthOfItems_le.mpr fun v hv => (objects v hv).2)
    have plain := Json.Exact.array fun v hv => (objects v hv).1
    exact Json.parse?_eq_some_iff.mp (Json.parse?_render plain (shallow.trans (by decide)))

/-- modifiers with the least and the greatest numbers, the source as a skill, and a group with the
number that stands for the source -/
def extremeModifiers : List RawModifier :=
  [⟨.preAssign, .requiredSkill .source, ⟨Int32.minValue⟩, ⟨Int32.maxValue⟩⟩,
    ⟨.postAssign, .locationGroup ⟨-1⟩, ⟨-1⟩, ⟨0⟩⟩,
    ⟨.modSub, .requiredSkill (.type ⟨Int32.minValue⟩), ⟨50⟩, ⟨51⟩⟩,
    ⟨.postPercent, .other, ⟨50⟩, ⟨51⟩⟩]

theorem decodeDescription_written_extreme :
    (∀ m ∈ extremeModifiers, m.domain ≠ .requiredSkill (.type ⟨-1⟩)) ∧
    decodeDescription (Json.render (.array (extremeModifiers.map RawModifier.toJson))) =
      extremeModifiers.map .ok := by
  have representable : ∀ m ∈ extremeModifiers, m.domain ≠ .requiredSkill (.type ⟨-1⟩) := by decide
  exact ⟨representable, (decodeDescription_written representable).2⟩

end Fitting
