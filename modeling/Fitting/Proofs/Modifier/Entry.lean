import Mathlib.Data.Nat.Find
import Fitting.Proofs.Modifier.Description

/-!
# What an entry may be

Which values are entries, what they state, and what is reported of the others.  The rules are given
without a word on how an entry is checked; only `DescriptionError.rank` says which of several faults
is reported.

* `Entry.Shaped`          the values that have the shape of an entry, by names or by places;
* `Entry.Complete`        all that an entry needs to be a modifier;
* `Entry.States`          the modifier it is;
* `EntryFault`            what is wrong with a value, fault by fault;
* `Entry.Reports`         a check finds the faults of one rank, a run of checks the first fault of
                          all;
* `decodeEntry_grammar`   decoding accepts the entries that are complete, and of the others it
                          reports the first fault.
-/

namespace Fitting

theorem int32?_eq_some_iff {i : Int} {j : Int32} : int32? i = some j ↔ i = j.toInt := by
  constructor
  · intro h
    unfold int32? at h
    split at h
    next bounds =>
      obtain rfl := Option.some.inj h
      have lower : Int32.minValue.toInt = -2 ^ 31 := rfl
      have upper : Int32.maxValue.toInt = 2 ^ 31 - 1 := rfl
      exact (Int32.toInt_ofInt_of_le (by omega) (by omega)).symm
    next => cases h
  · rintro rfl
    exact int32?_toInt j

/-! ### the shape of an entry -/

/-- of seven values, the one in the place of the field -/
def EntryField.among {α : Type} (func domain modified modifying operation group skill : α) :
    EntryField → α
  | .func => func
  | .domain => domain
  | .modified => modified
  | .modifying => modifying
  | .operation => operation
  | .group => group
  | .skill => skill

/-- what an optional field holds; null counts as not there -/
inductive Given {α : Type} (value : α → Json) : Option Json → Option α → Prop where
  | absent : Given value none none
  | null : Given value (some .null) none
  | stated (a : α) : Given value (some (value a)) (some a)

namespace Entry

def number (i : Int32) : Json := .integer i.toInt

structure FieldsOf (e : Entry) (field : EntryField → Option Json) : Prop where
  func : Given .text (field .func) e.func
  domain : Given .text (field .domain) e.domain
  modified : Given number (field .modified) e.modified
  modifying : Given number (field .modifying) e.modifying
  operation : Given number (field .operation) e.operation
  group : Given number (field .group) e.group
  skill : Given number (field .skill) e.skill

/-- an object by the names of its members, whatever the others are, or an array of seven values -/
inductive Shaped (e : Entry) : Json → Prop where
  | named {members : List (String × Json)} (h : e.FieldsOf fun f => Json.lookup? f.name members) :
      Shaped e (.object members)
  | positional {value : EntryField → Json} (h : e.FieldsOf fun f => some (value f)) :
      Shaped e (.array (EntryField.all.map value))

theorem text?_eq_some_iff {v : Option Json} {s : Option String} :
    text? v = some s ↔ Given .text v s := by
  constructor
  · intro h
    unfold text? at h
    split at h <;> cases h
    · exact .absent
    · exact .null
    · exact .stated _
  · rintro (_ | _ | _) <;> rfl

theorem integer?_eq_some_iff {v : Option Json} {i : Option Int32} :
    integer? v = some i ↔ Given number v i := by
  constructor
  · intro h
    unfold integer? at h
    split at h
    next => cases h; exact .absent
    next => cases h; exact .null
    next n =>
      obtain ⟨j, read, rfl⟩ := Option.map_eq_some_iff.mp h
      obtain rfl := int32?_eq_some_iff.mp read
      exact .stated j
    next => cases h
  · rintro (_ | _ | j)
    · rfl
    · rfl
    · exact congrArg (Option.map some) (int32?_toInt j)

theorem ofFields?_eq_some_iff {field : EntryField → Option Json} {e : Entry} :
    ofFields? field = some e ↔ e.FieldsOf field := by
  simp only [ofFields?, Option.bind_eq_bind, Option.bind_eq_some_iff, Option.pure_def,
    Option.some.injEq, text?_eq_some_iff, integer?_eq_some_iff]
  constructor
  · rintro ⟨func, h₁, domain, h₂, modified, h₃, modifying, h₄, operation, h₅, group, h₆, skill, h₇,
      rfl⟩
    exact ⟨h₁, h₂, h₃, h₄, h₅, h₆, h₇⟩
  · rintro ⟨h₁, h₂, h₃, h₄, h₅, h₆, h₇⟩
    exact ⟨_, h₁, _, h₂, _, h₃, _, h₄, _, h₅, _, h₆, _, h₇, rfl⟩

theorem ofJson?_positional (value : EntryField → Json) :
    ofJson? (.array (EntryField.all.map value)) = ofFields? fun f => some (value f) := by
  simp only [EntryField.all, List.map_cons, List.map_nil, ofJson?]
  congr 1
  funext f
  cases f <;> rfl

theorem ofJson?_eq_some_iff {v : Json} {e : Entry} : ofJson? v = some e ↔ e.Shaped v := by
  constructor
  · intro h
    unfold ofJson? at h
    split at h
    next => exact .named (ofFields?_eq_some_iff.mp h)
    next func domain modified modifying operation group skill =>
      have places :=
        ofJson?_positional (EntryField.among func domain modified modifying operation group skill)
      exact .positional (ofFields?_eq_some_iff.mp (places.symm.trans h))
    next => cases h
  · rintro (h | h)
    · exact ofFields?_eq_some_iff.mpr h
    · exact (ofJson?_positional _).trans (ofFields?_eq_some_iff.mpr h)

end Entry

/-! ### what a complete entry states -/

/-- the domains that an entry may name, as the items an item modifier acts on -/
def itemDomains : List (String × Domain) :=
  [("itemID", .item), ("shipID", .ship), ("charID", .pilot), ("otherID", .other)]

/-- the functions that act on the items that require a skill -/
def skillFunctions : List String := ["LocationRequiredSkillModifier", "OwnerRequiredSkillModifier"]

/-- the functions that an entry may have -/
def functionTexts : List String :=
  ["ItemModifier", "LocationModifier", "LocationGroupModifier"] ++ skillFunctions

namespace Entry

/-- all that an entry needs to be a modifier.  The domain is always named, also where the function
does not use it. -/
structure Complete (e : Entry) : Prop where
  func : ∃ func ∈ functionTexts, e.func = some func
  domain : ∃ text ∈ domainTexts, e.domain = some text
  group : e.func = some "LocationGroupModifier" → e.group ≠ none
  skill : ∀ func ∈ skillFunctions, e.func = some func → e.skill ≠ none
  operation : ∃ code, e.operation = some code ∧ -1 ≤ code.toInt ∧ code.toInt ≤ 7
  modified : e.modified ≠ none
  modifying : e.modifying ≠ none

/-- the items that the function of an entry acts on, if its domain is `text` -/
inductive ActsOn (e : Entry) (text : String) : Domain → Prop where
  | item {d : Domain} (func : e.func = some "ItemModifier") (named : (text, d) ∈ itemDomains) :
      ActsOn e text d
  | location (func : e.func = some "LocationModifier") : ActsOn e text .location
  | locationGroup {group : Int32} (func : e.func = some "LocationGroupModifier")
      (h : e.group = some group) :
      ActsOn e text (.locationGroup ⟨group⟩)
  | requiredSkill {func : String} {code : Int32} (skilled : func ∈ skillFunctions)
      (named : e.func = some func)
      (h : e.skill = some code) : ActsOn e text (.requiredSkill (.ofCode code))

/-- the modifier that an entry states -/
structure States (e : Entry) (m : RawModifier) : Prop where
  domain : ∃ text ∈ domainTexts, e.domain = some text ∧ e.ActsOn text m.domain
  operation : e.operation = some m.operation.code
  modified : e.modified = some m.modified.value
  modifying : e.modifying = some m.modifying.value

end Entry

/-! ### what may be wrong -/

/-- which of several faults is reported: the one of least rank -/
def DescriptionError.rank : DescriptionError → Nat
  | .notJson | .notArray _ | .malformed => 0
  | .missing .func => 1
  | .missing .domain => 2
  | .unknownDomain _ => 3
  | .missing .group | .missing .skill | .unknownFunction _ => 4
  | .missing .operation => 5
  | .unknownOperation _ | .skillPointsToLevel => 6
  | .missing .modified => 7
  | .missing .modifying => 8

/-- what is wrong with an entry, each fault without regard to the others -/
inductive Entry.Fault (e : Entry) : DescriptionError → Prop where
  | noFunction (h : e.func = none) : Fault e (.missing .func)
  | noDomain (h : e.domain = none) : Fault e (.missing .domain)
  | unknownDomain {text : String} (h : e.domain = some text) (unknown : text ∉ domainTexts) :
      Fault e (.unknownDomain text)
  | noGroup (func : e.func = some "LocationGroupModifier") (h : e.group = none) :
      Fault e (.missing .group)
  | noSkill {func : String} (skilled : func ∈ skillFunctions) (named : e.func = some func)
      (h : e.skill = none) :
      Fault e (.missing .skill)
  | unknownFunction {func : String} (h : e.func = some func) (unknown : func ∉ functionTexts) :
      Fault e (.unknownFunction func)
  | noOperation (h : e.operation = none) : Fault e (.missing .operation)
  | skillPoints (h : e.operation = some 9) : Fault e .skillPointsToLevel
  | unknownOperation {code : Int32} (h : e.operation = some code)
      (unknown : ¬(-1 ≤ code.toInt ∧ code.toInt ≤ 7))
      (other : code ≠ 9) : Fault e (.unknownOperation code)
  | noModified (h : e.modified = none) : Fault e (.missing .modified)
  | noModifying (h : e.modifying = none) : Fault e (.missing .modifying)

/-- what is wrong with a value: that it has not the shape of an entry, or a fault of the entry it
is -/
inductive EntryFault (v : Json) : DescriptionError → Prop where
  | malformed (h : ∀ e : Entry, ¬e.Shaped v) : EntryFault v .malformed
  | stated {e : Entry} {err : DescriptionError} (h : e.Shaped v) (fault : e.Fault err) :
      EntryFault v err

/-! ### the operation of a code -/

namespace Operation

theorem code_bounds (op : Operation) : -1 ≤ op.code.toInt ∧ op.code.toInt ≤ 7 := by
  cases op <;> decide

theorem exists_code {code : Int32} (lower : -1 ≤ code.toInt) (upper : code.toInt ≤ 7) :
    ∃ op, code = Operation.code op := by
  have nine : code.toInt = -1 ∨ code.toInt = 0 ∨ code.toInt = 1 ∨ code.toInt = 2 ∨ code.toInt = 3 ∨
      code.toInt = 4 ∨ code.toInt = 5 ∨ code.toInt = 6 ∨ code.toInt = 7 := by omega
  rcases nine with h | h | h | h | h | h | h | h | h
  · exact ⟨.preAssign, Int32.toInt_inj.mp h⟩
  · exact ⟨.preMul, Int32.toInt_inj.mp h⟩
  · exact ⟨.preDiv, Int32.toInt_inj.mp h⟩
  · exact ⟨.modAdd, Int32.toInt_inj.mp h⟩
  · exact ⟨.modSub, Int32.toInt_inj.mp h⟩
  · exact ⟨.postMul, Int32.toInt_inj.mp h⟩
  · exact ⟨.postDiv, Int32.toInt_inj.mp h⟩
  · exact ⟨.postPercent, Int32.toInt_inj.mp h⟩
  · exact ⟨.postAssign, Int32.toInt_inj.mp h⟩

theorem ofCode_of_ne {code : Int32} (h : ∀ op, code ≠ Operation.code op) :
    ofCode code = if code = 9 then .error .skillPointsToLevel
      else .error (.unknownOperation code) := by
  have away : code ≠ -1 ∧ code ≠ 0 ∧ code ≠ 1 ∧ code ≠ 2 ∧ code ≠ 3 ∧ code ≠ 4 ∧ code ≠ 5 ∧
      code ≠ 6 ∧ code ≠ 7 :=
    ⟨h .preAssign, h .preMul, h .preDiv, h .modAdd, h .modSub, h .postMul, h .postDiv,
      h .postPercent, h .postAssign⟩
  obtain ⟨h₁, h₂, h₃, h₄, h₅, h₆, h₇, h₈, h₉⟩ := away
  unfold ofCode
  rw [if_neg h₁, if_neg h₂, if_neg h₃, if_neg h₄, if_neg h₅, if_neg h₆, if_neg h₇, if_neg h₈,
    if_neg h₉]

theorem ofCode_eq_ok_iff {code : Int32} {op : Operation} :
    ofCode code = .ok op ↔ code = op.code := by
  constructor
  · intro h
    by_cases known : ∃ op', code = Operation.code op'
    · obtain ⟨op', rfl⟩ := known
      rw [op'.ofCode_code] at h
      exact congrArg Operation.code (Except.ok.inj h)
    · rw [ofCode_of_ne (not_exists.mp known)] at h
      split at h <;> cases h
  · rintro rfl
    exact op.ofCode_code

end Operation

/-! ### the first fault -/

theorem DescriptionError.rank_alone {field : EntryField} (group : field ≠ .group)
    (skill : field ≠ .skill)
    {err : DescriptionError} (same : err.rank = rank (.missing field)) : err = .missing field := by
  cases err with
  | missing field' => cases field <;> cases field' <;> first | rfl | contradiction
  | _ => cases field <;> first | contradiction | cases same

theorem DescriptionError.rank_lt (err : DescriptionError) : err.rank < 9 := by
  unfold rank
  split <;> omega

namespace Entry
variable (e : Entry)

/-- a check that finds the faults of one rank -/
def Checks (k : Nat) {α : Type} (x : Except DescriptionError α) : Prop :=
  ∀ err, x = .error err ↔ e.Fault err ∧ err.rank = k

/-- checks that report the first fault of those that have at least the rank `k` -/
def Reports (k : Nat) {α : Type} (x : Except DescriptionError α) : Prop :=
  ∀ err, x = .error err ↔ e.Fault err ∧ k ≤ err.rank ∧ ∀ err', e.Fault err' → k ≤ err'.rank →
    err.rank ≤ err'.rank

variable {e}

theorem Checks.bind {k : Nat} {α β : Type} {x : Except DescriptionError α}
    {f : α → Except DescriptionError β}
    (hx : e.Checks k x) (hf : ∀ a, x = .ok a → e.Reports (k + 1) (f a)) :
    e.Reports k (x >>= f) := by
  intro err
  cases x with
  | error found =>
    obtain ⟨fault, rank⟩ := (hx found).mp rfl
    constructor
    · intro h
      obtain rfl : found = err := Except.error.inj h
      exact ⟨fault, rank.ge, fun err' _ least => rank.le.trans least⟩
    · rintro ⟨other, least, first⟩
      have same : err.rank = k := le_antisymm ((first found fault rank.ge).trans rank.le) least
      exact congrArg Except.error (Except.error.inj ((hx err).mpr ⟨other, same⟩))
  | ok a =>
    -- nothing has the rank `k`, so what has at least that rank has more
    have above : ∀ err', e.Fault err' → (k ≤ err'.rank ↔ k + 1 ≤ err'.rank) := by
      intro err' fault
      have off : err'.rank ≠ k := fun rank => nomatch (hx err').mpr ⟨fault, rank⟩
      omega
    refine (hf a rfl err).trans ?_
    constructor
    · rintro ⟨fault, least, first⟩
      exact ⟨fault, (above err fault).mpr least,
        fun err' h least => first err' h ((above err' h).mp least)⟩
    · rintro ⟨fault, least, first⟩
      exact ⟨fault, (above err fault).mp least,
        fun err' h least => first err' h ((above err' h).mpr least)⟩

theorem reports_ok {α : Type} (a : α) : e.Reports 9 (.ok a) := by
  intro err
  constructor
  · intro h
    cases h
  · rintro ⟨-, least, -⟩
    exact absurd err.rank_lt (by omega)

/-! ### the checks -/

theorem checks_need {α : Type} {field : EntryField} {o : Option α} (group : field ≠ .group)
    (skill : field ≠ .skill) (lacks : e.Fault (.missing field) ↔ o = none) :
    e.Checks (DescriptionError.rank (.missing field)) (need field o) := by
  intro err
  constructor
  · intro h
    cases o with
    | some a => cases h
    | none =>
      obtain rfl := Except.error.inj h
      exact ⟨lacks.mpr rfl, rfl⟩
  · rintro ⟨fault, same⟩
    obtain rfl := DescriptionError.rank_alone group skill same
    rw [lacks.mp fault]
    rfl

theorem need_eq_ok_iff {α : Type} {field : EntryField} {o : Option α} {a : α} :
    need field o = .ok a ↔ o = some a := by
  cases o with
  | none => exact ⟨nofun, nofun⟩
  | some b => exact ⟨fun h => congrArg some (Except.ok.inj h),
      fun h => congrArg Except.ok (Option.some.inj h)⟩

theorem itemDomain_eq_ok_iff {text : String} {d : Domain} :
    itemDomain text = .ok d ↔ (text, d) ∈ itemDomains := by
  unfold itemDomain itemDomains
  constructor
  · intro h
    split at h
    next named => cases h; simp [named]
    split at h
    next named => cases h; simp [named]
    split at h
    next named => cases h; simp [named]
    split at h
    next named => cases h; simp [named]
    next => cases h
  · intro h
    simp only [List.mem_cons, Prod.mk.injEq, List.not_mem_nil, or_false] at h
    rcases h with ⟨rfl, rfl⟩ | ⟨rfl, rfl⟩ | ⟨rfl, rfl⟩ | ⟨rfl, rfl⟩ <;> rfl

theorem itemDomain_of_not_mem {text : String} (h : text ∉ domainTexts) :
    itemDomain text = .error (.unknownDomain text) := by
  simp only [domainTexts, List.mem_cons, List.not_mem_nil, or_false, not_or] at h
  obtain ⟨item, ship, pilot, other⟩ := h
  unfold itemDomain
  rw [if_neg item, if_neg ship, if_neg pilot, if_neg other]

theorem checks_itemDomain {text : String} (stated : e.domain = some text) :
    e.Checks 3 (itemDomain text) := by
  intro err
  constructor
  · intro h
    by_cases known : text ∈ domainTexts
    · obtain ⟨d, named⟩ := RawModifier.itemDomain_of_mem known
      rw [named] at h
      cases h
    · rw [itemDomain_of_not_mem known] at h
      obtain rfl := Except.error.inj h
      exact ⟨.unknownDomain stated known, rfl⟩
  · rintro ⟨fault, rank⟩
    cases fault with
    | unknownDomain h unknown =>
      obtain rfl := Option.some.inj (stated.symm.trans h)
      exact itemDomain_of_not_mem unknown
    | _ => cases rank

theorem mem_functionTexts {func : String} : func ∈ functionTexts ↔
    func = "ItemModifier" ∨ func = "LocationModifier" ∨ func = "LocationGroupModifier" ∨
      func ∈ skillFunctions := by
  rw [functionTexts, List.mem_append]
  simp only [List.mem_cons, List.not_mem_nil, or_false, or_assoc]

theorem functionDomain_group (d : Domain) :
    e.functionDomain "LocationGroupModifier" d = (need .group e.group).map fun group =>
      .locationGroup ⟨group⟩ := rfl

theorem functionDomain_skill {func : String} (skilled : func ∈ skillFunctions) (d : Domain) :
    e.functionDomain func d = (need .skill e.skill).map fun code =>
      .requiredSkill (.ofCode code) := by
  simp only [skillFunctions, List.mem_cons, List.not_mem_nil, or_false] at skilled
  rcases skilled with rfl | rfl <;> rfl

theorem functionDomain_of_not_mem {func : String} (h : func ∉ functionTexts) (d : Domain) :
    e.functionDomain func d = .error (.unknownFunction func) := by
  simp only [mem_functionTexts, skillFunctions, List.mem_cons, List.not_mem_nil, or_false,
    not_or] at h
  obtain ⟨item, location, group, skilled⟩ := h
  unfold functionDomain
  rw [if_neg item, if_neg location, if_neg group, if_neg (not_or.mpr skilled)]

/-- a function that is known finds its items, or what it needs for that is missing -/
theorem functionDomain_spec {func text : String} {onItem : Domain} (stated : e.func = some func)
    (named : itemDomain text = .ok onItem) :
    (∃ d, e.functionDomain func onItem = .ok d ∧ e.ActsOn text d) ∨
    ∃ err, e.functionDomain func onItem = .error err ∧ e.Fault err ∧ err.rank = 4 := by
  by_cases known : func ∈ functionTexts
  · rcases mem_functionTexts.mp known with rfl | rfl | rfl | skilled
    · exact .inl ⟨onItem, rfl, .item stated (itemDomain_eq_ok_iff.mp named)⟩
    · exact .inl ⟨.location, rfl, .location stated⟩
    · rw [functionDomain_group]
      cases group : e.group with
      | none => exact .inr ⟨_, rfl, .noGroup stated group, rfl⟩
      | some g => exact .inl ⟨_, rfl, .locationGroup stated group⟩
    · rw [functionDomain_skill skilled]
      cases skill : e.skill with
      | none => exact .inr ⟨_, rfl, .noSkill skilled stated skill, rfl⟩
      | some code => exact .inl ⟨_, rfl, .requiredSkill skilled stated skill⟩
  · exact .inr ⟨_, functionDomain_of_not_mem known onItem, .unknownFunction stated known, rfl⟩

theorem checks_functionDomain {func text : String} {onItem : Domain} (stated : e.func = some func)
    (named : itemDomain text = .ok onItem) : e.Checks 4 (e.functionDomain func onItem) := by
  intro err
  constructor
  · intro h
    rcases functionDomain_spec stated named with ⟨d, found, -⟩ | ⟨err', failed, wrong⟩
    · cases found.symm.trans h
    · obtain rfl := Except.error.inj (failed.symm.trans h)
      exact wrong
  · rintro ⟨fault, rank⟩
    cases fault with
    | unknownFunction h unknown =>
      obtain rfl := Option.some.inj (stated.symm.trans h)
      exact functionDomain_of_not_mem unknown onItem
    | noGroup grouped absent =>
      obtain rfl := Option.some.inj (stated.symm.trans grouped)
      rw [functionDomain_group, absent]
      rfl
    | noSkill skilled func' absent =>
      obtain rfl := Option.some.inj (stated.symm.trans func')
      rw [functionDomain_skill skilled, absent]
      rfl
    | _ => cases rank

theorem ActsOn.exists_func {text : String} {d : Domain} (h : e.ActsOn text d) :
    ∃ func, e.func = some func := by
  cases h with
  | item func | location func | locationGroup func | requiredSkill _ func => exact ⟨_, func⟩

theorem functionDomain_eq_ok_iff {func text : String} {onItem d : Domain}
    (stated : e.func = some func) (named : itemDomain text = .ok onItem) :
    e.functionDomain func onItem = .ok d ↔ e.ActsOn text d := by
  constructor
  · intro h
    rcases functionDomain_spec stated named with ⟨d', found, acts⟩ | ⟨err, failed, -⟩
    · obtain rfl := Except.ok.inj (found.symm.trans h)
      exact acts
    · cases failed.symm.trans h
  · intro acts
    cases acts with
    | item item pair =>
      obtain rfl := Option.some.inj (stated.symm.trans item)
      exact named.symm.trans (itemDomain_eq_ok_iff.mpr pair)
    | location location =>
      obtain rfl := Option.some.inj (stated.symm.trans location)
      rfl
    | locationGroup grouped group =>
      obtain rfl := Option.some.inj (stated.symm.trans grouped)
      rw [functionDomain_group, group]
      rfl
    | requiredSkill skilled func' skill =>
      obtain rfl := Option.some.inj (stated.symm.trans func')
      rw [functionDomain_skill skilled, skill]
      rfl

theorem checks_ofCode {code : Int32} (stated : e.operation = some code) :
    e.Checks 6 (Operation.ofCode code) := by
  intro err
  constructor
  · intro h
    by_cases known : -1 ≤ code.toInt ∧ code.toInt ≤ 7
    · obtain ⟨op, rfl⟩ := Operation.exists_code known.1 known.2
      rw [op.ofCode_code] at h
      cases h
    · have off : ∀ op, code ≠ Operation.code op := by
        rintro op rfl
        exact known op.code_bounds
      rw [Operation.ofCode_of_ne off] at h
      split at h
      next nine =>
        obtain rfl := Except.error.inj h
        exact ⟨.skillPoints (nine ▸ stated), rfl⟩
      next other =>
        obtain rfl := Except.error.inj h
        exact ⟨.unknownOperation stated known other, rfl⟩
  · rintro ⟨fault, rank⟩
    cases fault with
    | skillPoints nine =>
      obtain rfl := Option.some.inj (stated.symm.trans nine)
      rfl
    | unknownOperation same unknown other =>
      obtain rfl := Option.some.inj (stated.symm.trans same)
      have off : ∀ op, code ≠ Operation.code op := by
        rintro op rfl
        exact unknown op.code_bounds
      rw [Operation.ofCode_of_ne off, if_neg other]
    | _ => cases rank

/-! ### decoding an entry -/

variable (e)

/-- of all that is wrong with an entry, the first is reported -/
theorem reports_decode : e.Reports 1 e.decode := by
  have func : e.Checks 1 (need .func e.func) :=
    checks_need nofun nofun ⟨fun | .noFunction h => h, .noFunction⟩
  have domain : e.Checks 2 (need .domain e.domain) :=
    checks_need nofun nofun ⟨fun | .noDomain h => h, .noDomain⟩
  have operation : e.Checks 5 (need .operation e.operation) :=
    checks_need nofun nofun ⟨fun | .noOperation h => h, .noOperation⟩
  have modified : e.Checks 7 (need .modified e.modified) :=
    checks_need nofun nofun ⟨fun | .noModified h => h, .noModified⟩
  have modifying : e.Checks 8 (need .modifying e.modifying) :=
    checks_need nofun nofun ⟨fun | .noModifying h => h, .noModifying⟩
  unfold decode
  refine func.bind fun func hfunc => domain.bind fun text htext => ?_
  refine (checks_itemDomain (need_eq_ok_iff.mp htext)).bind fun onItem named => ?_
  refine (checks_functionDomain (need_eq_ok_iff.mp hfunc) named).bind fun domain _ => ?_
  refine operation.bind fun code hcode => (checks_ofCode (need_eq_ok_iff.mp hcode)).bind
    fun operation _ => ?_
  exact modified.bind fun modified _ => modifying.bind fun modifying _ => reports_ok _

theorem bind_eq_ok_iff {ε α β : Type} {x : Except ε α} {f : α → Except ε β} {b : β} :
    x >>= f = .ok b ↔ ∃ a, x = .ok a ∧ f a = .ok b := by
  cases x with
  | error err => exact ⟨nofun, nofun⟩
  | ok a => exact ⟨fun h => ⟨a, rfl, h⟩, fun ⟨_, same, h⟩ => Except.ok.inj same ▸ h⟩

variable {e}

theorem decode_eq_ok_iff {m : RawModifier} : e.decode = .ok m ↔ e.States m := by
  unfold decode
  simp only [bind_eq_ok_iff, need_eq_ok_iff, Operation.ofCode_eq_ok_iff]
  constructor
  · rintro ⟨func, hfunc, text, htext, onItem, named, domain, acts, code, hcode, op, rfl, modified,
      hmodified, modifying, hmodifying, h⟩
    obtain rfl := Except.ok.inj h
    have known := List.mem_map_of_mem (f := Prod.fst) (itemDomain_eq_ok_iff.mp named)
    exact ⟨⟨text, known, htext, (functionDomain_eq_ok_iff hfunc named).mp acts⟩, hcode, hmodified,
      hmodifying⟩
  · rintro ⟨⟨text, known, htext, acts⟩, hcode, hmodified, hmodifying⟩
    obtain ⟨onItem, named⟩ := RawModifier.itemDomain_of_mem known
    obtain ⟨func, hfunc⟩ := acts.exists_func
    exact ⟨func, hfunc, text, htext, onItem, named, m.domain,
      (functionDomain_eq_ok_iff hfunc named).mpr acts, _, hcode, _,
      rfl, _, hmodified, _, hmodifying, rfl⟩

theorem complete_iff : e.Complete ↔ ∀ err, ¬e.Fault err := by
  constructor
  · rintro ⟨⟨func, known, hfunc⟩, ⟨text, named, htext⟩, group, skill, ⟨code, hcode, bounds⟩,
      modified, modifying⟩ err fault
    cases fault with
    | noFunction h => cases hfunc.symm.trans h
    | noDomain h => cases htext.symm.trans h
    | unknownDomain h unknown => exact unknown (Option.some.inj (htext.symm.trans h) ▸ named)
    | noGroup func' h => exact group func' h
    | noSkill skilled func' h => exact skill _ skilled func' h
    | unknownFunction h unknown => exact unknown (Option.some.inj (hfunc.symm.trans h) ▸ known)
    | noOperation h => cases hcode.symm.trans h
    | skillPoints h =>
      obtain rfl := Option.some.inj (hcode.symm.trans h)
      exact absurd bounds.2 (by decide)
    | unknownOperation h unknown => exact unknown (Option.some.inj (hcode.symm.trans h) ▸ bounds)
    | noModified h => exact modified h
    | noModifying h => exact modifying h
  · intro sound
    refine ⟨?_, ?_, fun func h => sound _ (.noGroup func h),
      fun func skilled named h => sound _ (.noSkill skilled named h),
      ?_, fun h => sound _ (.noModified h), fun h => sound _ (.noModifying h)⟩
    · cases func : e.func with
      | none => exact absurd (.noFunction func) (sound _)
      | some text => exact ⟨text, by_contra fun unknown => sound _ (.unknownFunction func unknown),
          rfl⟩
    · cases domain : e.domain with
      | none => exact absurd (.noDomain domain) (sound _)
      | some text => exact ⟨text, by_contra fun unknown => sound _ (.unknownDomain domain unknown),
          rfl⟩
    · cases operation : e.operation with
      | none => exact absurd (.noOperation operation) (sound _)
      | some code =>
        refine ⟨code, rfl, by_contra fun unknown => ?_⟩
        have other : code ≠ 9 := by
          rintro rfl
          exact sound _ (.skillPoints operation)
        exact sound _ (.unknownOperation operation unknown other)

theorem Fault.rank_pos {err : DescriptionError} (h : e.Fault err) : 1 ≤ err.rank := by
  cases h <;> exact Nat.succ_pos _

theorem exists_decode_iff : (∃ m, e.decode = .ok m) ↔ e.Complete := by
  rw [complete_iff]
  constructor
  · rintro ⟨m, accepted⟩ err fault
    -- where something is wrong, something is wrong first
    classical
    have some : ∃ k err, e.Fault err ∧ err.rank = k := ⟨_, err, fault, rfl⟩
    obtain ⟨first, fault, rank⟩ := Nat.find_spec some
    have least : ∀ err', e.Fault err' → 1 ≤ err'.rank → first.rank ≤ err'.rank := fun err' h _ =>
      rank.trans_le (Nat.find_min' some ⟨err', h, rfl⟩)
    cases accepted.symm.trans ((e.reports_decode first).mpr ⟨fault, fault.rank_pos, least⟩)
  · intro sound
    cases result : e.decode with
    | ok m => exact ⟨m, rfl⟩
    | error err => exact absurd ((e.reports_decode err).mp result).1 (sound err)

end Entry

/-! ### decoding a value -/

theorem decodeEntry_eq_ok_iff {v : Json} {m : RawModifier} :
    decodeEntry v = .ok m ↔ ∃ e : Entry, e.Shaped v ∧ e.States m := by
  unfold decodeEntry
  simp only [← Entry.ofJson?_eq_some_iff, ← Entry.decode_eq_ok_iff]
  cases Entry.ofJson? v with
  | none => exact ⟨nofun, nofun⟩
  | some e => exact ⟨fun h => ⟨e, rfl, h⟩, fun ⟨_, same, h⟩ => Option.some.inj same ▸ h⟩

theorem entryFault_iff {v : Json} {e : Entry} (shaped : e.Shaped v) {err : DescriptionError} :
    EntryFault v err ↔ e.Fault err := by
  constructor
  · rintro (h | @⟨e', _, h, fault⟩)
    · exact absurd shaped (h e)
    · have read := Entry.ofJson?_eq_some_iff.mpr shaped
      obtain rfl := Option.some.inj (read.symm.trans (Entry.ofJson?_eq_some_iff.mpr h))
      exact fault
  · exact .stated shaped

theorem decodeEntry_eq_error_iff {v : Json} {err : DescriptionError} :
    decodeEntry v = .error err ↔
      EntryFault v err ∧ ∀ err', EntryFault v err' → err.rank ≤ err'.rank := by
  unfold decodeEntry
  cases read : Entry.ofJson? v with
  | none =>
    have shapeless : ∀ e : Entry, ¬e.Shaped v := fun e h =>
      nomatch read.symm.trans (Entry.ofJson?_eq_some_iff.mpr h)
    constructor
    · intro h
      obtain rfl := Except.error.inj h
      exact ⟨.malformed shapeless, fun err' _ => Nat.zero_le _⟩
    · rintro ⟨_ | ⟨h, _⟩, -⟩
      · rfl
      · exact absurd h (shapeless _)
  | some e =>
    have shaped : e.Shaped v := Entry.ofJson?_eq_some_iff.mp read
    simp only [entryFault_iff shaped]
    refine (e.reports_decode err).trans ?_
    constructor
    · rintro ⟨fault, -, first⟩
      exact ⟨fault, fun err' h => first err' h h.rank_pos⟩
    · rintro ⟨fault, first⟩
      exact ⟨fault, fault.rank_pos, fun err' h _ => first err' h⟩

theorem lookup?_named (value : EntryField → Json) (f : EntryField) :
    Json.lookup? f.name (EntryField.all.map fun f => (f.name, value f)) = some (value f) := by
  have distinct : ((EntryField.all.map fun f => (f.name, value f)).map Prod.fst).Nodup := by
    rw [List.map_map]
    exact EntryField.nodup_names
  exact (Json.lookup?_eq_some_iff distinct).mpr (List.mem_map.mpr ⟨f, f.mem_all, rfl⟩)

/-- A value is decoded if it has the shape of an entry and the entry is complete, and then to the
modifier the entry states; of any other value the first fault is reported.  It makes no difference
if the seven values of an entry stand by name or by place. -/
theorem decodeEntry_grammar (v : Json) :
    ((∃ m, decodeEntry v = .ok m) ↔ ∃ e : Entry, e.Shaped v ∧ e.Complete) ∧
    (∀ m, decodeEntry v = .ok m ↔ ∃ e : Entry, e.Shaped v ∧ e.States m) ∧
    (∀ err, decodeEntry v = .error err ↔
      EntryFault v err ∧ ∀ err', EntryFault v err' → err.rank ≤ err'.rank) ∧
    ∀ value : EntryField → Json, decodeEntry (.array (EntryField.all.map value)) =
      decodeEntry (.object (EntryField.all.map fun f => (f.name, value f))) := by
  refine ⟨?_, fun m => decodeEntry_eq_ok_iff, fun err => decodeEntry_eq_error_iff, fun value => ?_⟩
  · simp only [decodeEntry_eq_ok_iff, ← Entry.exists_decode_iff, Entry.decode_eq_ok_iff,
      ← exists_and_left]
    exact exists_comm
  · have same : Entry.ofJson? (.array (EntryField.all.map value)) =
        Entry.ofJson? (.object (EntryField.all.map fun f => (f.name, value f))) := by
      rw [Entry.ofJson?_positional]
      exact congrArg Entry.ofFields? (funext fun f => (lookup?_named value f).symm)
    unfold decodeEntry
    rw [same]

/-- the domain is reported, not the skill, the operation and the attributes that are missing as
well -/
example :
    decodeEntry (.object
      [("domain", .text "targetID"), ("func", .text "OwnerRequiredSkillModifier")]) =
    .error (.unknownDomain "targetID") := rfl

end Fitting
