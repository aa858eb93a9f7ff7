import Std.Data.ExtTreeMap
import Std.Data.ExtTreeSet

/-!
# Keys of the reference tables

Each table of the reference data numbers its rows with 32-bit integers.  `Key t` is the key of a
row of the table `t`: keys of two tables never mix, and every table shares one order.

* `Map`, `KeySet`       finite maps and sets kept in ascending key order;
* `Map.lastRows`        of several rows with one key the last one counts;
* `Map.firstRows`       of several rows with one key the first one counts.
-/

namespace Fitting

/-- the tables of the reference data -/
inductive Table where
  | itemType | attr | effect | group | category | dbuff
deriving DecidableEq, Repr

/-- the word a displayed key starts with -/
def Table.label : Table → String
  | .itemType => "type"
  | .attr => "attr"
  | .effect => "effect"
  | .group => "group"
  | .category => "category"
  | .dbuff => "dbuff"

/-- an integer that has 32 bits with a sign -/
def int32? (i : Int) : Option Int32 :=
  if Int32.minValue.toInt ≤ i ∧ i ≤ Int32.maxValue.toInt then some (Int32.ofInt i) else none

theorem int32?_toInt (i : Int32) : int32? i.toInt = some i := by
  rw [int32?, if_pos ⟨i.minValue_le_toInt, i.toInt_le⟩, Int32.ofInt_toInt]

/-- the key of a row of the table `t` -/
structure Key (t : Table) where
  value : Int32
deriving DecidableEq, Repr

abbrev TypeId := Key .itemType
abbrev AttributeId := Key .attr
abbrev EffectId := Key .effect
abbrev GroupId := Key .group
abbrev CategoryId := Key .category
abbrev DbuffId := Key .dbuff

namespace Key
variable {t : Table}

instance : Inhabited (Key t) := ⟨⟨0⟩⟩

instance : Ord (Key t) := ⟨compareOn Key.value⟩

instance : Std.TransOrd (Key t) := inferInstanceAs (Std.TransCmp (compareOn Key.value))

instance : Std.LawfulEqOrd (Key t) where
  eq_of_compare {a b} h := by
    have hv : a.value = b.value := Std.LawfulEqOrd.eq_of_compare h
    cases a; cases b; simp_all

/-- the key of a number that has one -/
def ofInt? (i : Int) : Option (Key t) := (int32? i).map Key.mk

/-- the number of a key in decimal -/
def digits (k : Key t) : String := toString k.value.toInt

/-- a key as it is displayed: the label of its table, a colon, its number -/
def display (k : Key t) : String := t.label ++ ":" ++ k.digits

end Key

/-! ### effects that stand for warfare buffs -/

/-- the synthetic effect that carries the modifiers of a warfare buff: the negated key -/
def DbuffId.effect (d : DbuffId) : EffectId := ⟨-d.value⟩

/-- synthetic effects live below zero -/
def EffectId.isSynthetic (e : EffectId) : Bool := e.value < 0

/-! ### attributes the engine itself reads or writes -/

namespace AttributeId

def mass : AttributeId := ⟨4⟩
def speedFactor : AttributeId := ⟨20⟩
def maxVelocity : AttributeId := ⟨37⟩
def capacity : AttributeId := ⟨38⟩
def volume : AttributeId := ⟨161⟩
def skillLevel : AttributeId := ⟨280⟩
def speedBoostFactor : AttributeId := ⟨567⟩

/-- the slots whose values name the skills an item requires -/
def requiredSkills : List AttributeId := [⟨182⟩, ⟨183⟩, ⟨184⟩, ⟨1285⟩, ⟨1289⟩, ⟨1290⟩]

/-- the name of an attribute the reference data may leave undefined -/
def standardName? (a : AttributeId) : Option String :=
  if a = mass then some "mass"
  else if a = capacity then some "capacity"
  else if a = volume then some "volume"
  else if a = skillLevel then some "skillLevel"
  else none

end AttributeId

/-! ### maps and sets in ascending key order -/

abbrev Map (κ ν : Type) [Ord κ] := Std.ExtTreeMap κ ν compare

abbrev KeySet (t : Table) := Std.ExtTreeSet (Key t) compare

namespace Map
variable {κ ν ρ : Type} [Ord κ] [Std.TransOrd κ]

/-- the map of the rows: of several rows with one key the last one counts -/
def lastRows (key : ρ → κ) (value : ρ → ν) (rows : List ρ) : Map κ ν :=
  rows.foldl (fun m row => m.insert (key row) (value row)) ∅

/-- the map of the rows: of several rows with one key the first one counts -/
def firstRows (key : ρ → κ) (value : ρ → ν) (rows : List ρ) : Map κ ν :=
  rows.foldl (fun m row => m.insertIfNew (key row) (value row)) ∅

end Map

end Fitting
