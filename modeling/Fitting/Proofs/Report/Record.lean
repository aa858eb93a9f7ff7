import Mathlib.Algebra.Group.Nat.Defs
import Mathlib.Data.List.Nodup
import Mathlib.Data.List.Perm.Subperm
import Fitting.Report.Digest

/-!
# What the record of a report determines

The record of a report has no separators.  Its fields have fixed widths, and the number of the
attributes of an item stands before them, so a record can be read from its start in one way only.
It is made of bit patterns: two patterns of one double, as NaN has many, are as different here as
any others.

* `Delimits code look`     what `code` writes has a known end, and from it `look` can be told;
* `littleEndian_inj`       a number that fits its bytes is told from them;
* `Map.size_lt`            a map has fewer keys than eight bytes can count;
* `delimits_record`        the record of an item tells its type, its attributes and the patterns of
                           their values;
* `record_faithful`        so does the record of a report, and its digest does but for collisions.
-/

namespace Fitting

/-! ### numbers in fixed width -/

namespace Bytes

theorem length_littleEndian (count n : Nat) : (littleEndian count n).length = count := by
  simp [littleEndian]

theorem littleEndian_succ (count n : Nat) :
    littleEndian (count + 1) n = n.toUInt8 :: littleEndian count (n / 256) := by
  have shift : ∀ i, n >>> (8 * (i + 1)) = (n / 256) >>> (8 * i) := by
    intro i
    rw [Nat.mul_succ, Nat.add_comm, Nat.shiftRight_add, Nat.shiftRight_eq_div_pow n 8]
  unfold littleEndian
  rw [List.range_succ_eq_map, List.map_cons, List.map_map]
  congr 1
  apply List.map_congr_left
  intro i _
  exact congrArg Nat.toUInt8 (shift i)

theorem littleEndian_inj (count : Nat) {n m : Nat} (hn : n < 256 ^ count) (hm : m < 256 ^ count)
    (h : littleEndian count n = littleEndian count m) : n = m := by
  induction count generalizing n m with
  | zero => omega
  | succ count ih =>
    rw [littleEndian_succ, littleEndian_succ, List.cons.injEq] at h
    obtain ⟨low, high⟩ := h
    have rest : n / 256 = m / 256 := by
      apply ih _ _ high
      · exact Nat.div_lt_of_lt_mul (Nat.pow_succ' ▸ hn)
      · exact Nat.div_lt_of_lt_mul (Nat.pow_succ' ▸ hm)
    have least : n % 256 = m % 256 := congrArg UInt8.toNat low
    omega

end Bytes

/-! ### codes that tell their own end -/

/-- what `code` writes has a known end, and from it `look` can be told, whatever follows -/
def Delimits {α γ : Type} (code : α → List UInt8) (look : α → γ) : Prop :=
  ∀ a b rest rest', code a ++ rest = code b ++ rest' → look a = look b ∧ rest = rest'

theorem delimits_of_length {α γ : Type} {code : α → List UInt8} {look : α → γ} {n : Nat}
    (length : ∀ a, (code a).length = n) (inj : ∀ a b, code a = code b → look a = look b) :
    Delimits code look := by
  intro a b rest rest' h
  obtain ⟨same, follows⟩ := List.append_inj h ((length a).trans (length b).symm)
  exact ⟨inj a b same, follows⟩

namespace Delimits
variable {α γ δ : Type} {code code' : α → List UInt8} {look : α → γ} {look' : α → δ}
  (h : Delimits code look)
include h

/-- one field after another -/
theorem append (h' : Delimits code' look') :
    Delimits (fun a => code a ++ code' a) fun a => (look a, look' a) := by
  intro a b rest rest' same
  rw [List.append_assoc, List.append_assoc] at same
  obtain ⟨first, same⟩ := h a b _ _ same
  obtain ⟨second, same⟩ := h' a b _ _ same
  exact ⟨Prod.ext first second, same⟩

/-- as many codes one after another; that their number is known is what separates them from the
rest -/
theorem flatMap_append {xs ys : List α} (length : xs.length = ys.length) {rest rest' : List UInt8}
    (same : xs.flatMap code ++ rest = ys.flatMap code ++ rest') :
    xs.map look = ys.map look ∧ rest = rest' := by
  induction xs generalizing ys with
  | nil =>
    obtain rfl := List.eq_nil_of_length_eq_zero length.symm
    exact ⟨rfl, same⟩
  | cons x xs ih =>
    cases ys with
    | nil => cases length
    | cons y ys =>
      rw [List.flatMap_cons, List.flatMap_cons, List.append_assoc, List.append_assoc] at same
      obtain ⟨head, same⟩ := h x y _ _ same
      obtain ⟨tail, follows⟩ := ih (Nat.succ.inj length) same
      exact ⟨congrArg₂ List.cons head tail, follows⟩

/-- codes up to the end; none is empty, so their number is known -/
theorem flatMap (pos : ∀ a, code a ≠ []) {xs ys : List α}
    (same : xs.flatMap code = ys.flatMap code) :
    xs.map look = ys.map look := by
  induction xs generalizing ys with
  | nil =>
    cases ys with
    | nil => rfl
    | cons y ys =>
      rw [List.flatMap_nil, List.flatMap_cons] at same
      exact absurd (List.append_eq_nil_iff.mp same.symm).1 (pos y)
  | cons x xs ih =>
    cases ys with
    | nil =>
      rw [List.flatMap_nil, List.flatMap_cons] at same
      exact absurd (List.append_eq_nil_iff.mp same).1 (pos x)
    | cons y ys =>
      obtain ⟨head, same⟩ := h x y _ _ same
      exact congrArg₂ List.cons head (ih same)

end Delimits

/-! ### the fields of a record -/

theorem Key.toNat_inj {t : Table} {k k' : Key t}
    (h : k.value.toUInt32.toNat = k'.value.toUInt32.toNat) :
    k = k' := by
  obtain ⟨⟨word⟩⟩ := k
  obtain ⟨⟨word'⟩⟩ := k'
  obtain rfl : word = word' := UInt32.toNat_inj.mp h
  rfl

theorem length_keyRecord {t : Table} (k : Key t) : (keyRecord k).length = 4 :=
  Bytes.length_littleEndian 4 _

theorem keyRecord_inj {t : Table} {k k' : Key t} (h : keyRecord k = keyRecord k') : k = k' :=
  Key.toNat_inj (Bytes.littleEndian_inj 4 k.value.toUInt32.toNat_lt k'.value.toUInt32.toNat_lt h)

theorem delimits_key {α : Type} {t : Table} (key : α → Key t) :
    Delimits (fun a => keyRecord (key a)) key :=
  delimits_of_length (fun _ => length_keyRecord _) fun _ _ => keyRecord_inj

/-- keys are 32-bit integers, so a map has fewer of them than eight bytes can count -/
theorem Map.size_lt {t : Table} {ν : Type} (m : Map (Key t) ν) : m.size < 256 ^ 8 := by
  let number : Key t → Nat := fun k => k.value.toUInt32.toNat
  have nodup : (m.keys.map number).Nodup := List.Nodup.map (fun _ _ => Key.toNat_inj) m.nodup_keys
  have bounded : m.keys.map number ⊆ List.range (2 ^ 32) := by
    intro n hn
    obtain ⟨k, -, rfl⟩ := List.mem_map.mp hn
    exact List.mem_range.mpr k.value.toUInt32.toNat_lt
  have few : m.size ≤ 2 ^ 32 := by
    calc m.size = (m.keys.map number).length := by rw [List.length_map, m.length_keys]
      _ ≤ (List.range (2 ^ 32)).length := (nodup.subperm bounded).length_le
      _ = 2 ^ 32 := List.length_range
  omega

theorem delimits_size {α ν : Type} {t : Table} (map : α → Map (Key t) ν) :
    Delimits (fun a => Bytes.littleEndian 8 (map a).size) fun a => (map a).size :=
  delimits_of_length (fun _ => Bytes.length_littleEndian 8 _) fun a b h =>
    Bytes.littleEndian_inj 8 (map a).size_lt (map b).size_lt h

theorem delimits_pattern {α : Type} (pattern : α → UInt64) :
    Delimits (fun a => Bytes.littleEndian 8 (pattern a).toNat) pattern :=
  delimits_of_length (fun _ => Bytes.length_littleEndian 8 _) fun a b h =>
    UInt64.toNat_inj.mp (Bytes.littleEndian_inj 8 (pattern a).toNat_lt (pattern b).toNat_lt h)

theorem delimits_value : Delimits valueRecord fun row => (row.1, row.2) :=
  (delimits_key Prod.fst).append (delimits_pattern Prod.snd)

/-! ### items -/

namespace ResolvedItem

/-- the attributes in ascending order with the patterns of their values -/
def bits (r : ResolvedItem UInt64) : List (AttributeId × UInt64) := r.attributes.toList

/-- two items have the same attributes with the same patterns just when no attribute of either tells
them apart -/
theorem bits_eq_iff {r r' : ResolvedItem UInt64} :
    r.bits = r'.bits ↔ ∀ a, r.get? a = r'.get? a := by
  refine Std.ExtTreeMap.toList_inj.trans ⟨fun same a => ?_, fun same => ?_⟩
  · rw [get?, same, get?]
  · exact Std.ExtTreeMap.ext_getElem? fun a => same a

theorem delimits_record : Delimits record fun r => (r.type, r.bits) := by
  intro r r' rest rest' same
  unfold record at same
  rw [List.append_assoc, List.append_assoc] at same
  obtain ⟨head, same⟩ := (delimits_key type).append (delimits_size attributes) r r' _ _ same
  obtain ⟨type, size⟩ := Prod.ext_iff.mp head
  have length : r.attributes.toList.length = r'.attributes.toList.length := by
    rw [r.attributes.length_toList, r'.attributes.length_toList]
    exact size
  obtain ⟨rows, follows⟩ := delimits_value.flatMap_append length same
  rw [List.map_id', List.map_id'] at rows
  exact ⟨Prod.ext type rows, follows⟩

theorem record_ne_nil (r : ResolvedItem UInt64) : r.record ≠ [] := by
  intro h
  have empty : keyRecord r.type = [] :=
    (List.append_eq_nil_iff.mp (List.append_eq_nil_iff.mp h).1).1
  have four := length_keyRecord r.type
  rw [empty] at four
  cases four

/-- nothing else of an item stands in its record -/
theorem record_congr {r r' : ResolvedItem UInt64} (h : (r.type, r.bits) = (r'.type, r'.bits)) :
    r.record = r'.record := by
  have written : ∀ r : ResolvedItem UInt64, r.record =
      keyRecord r.type ++ Bytes.littleEndian 8 r.bits.length ++ r.bits.flatMap valueRecord := by
    intro r
    rw [bits, r.attributes.length_toList]
    rfl
  obtain ⟨type, bits⟩ := Prod.ext_iff.mp h
  dsimp only at type bits
  rw [written r, written r', type, bits]

end ResolvedItem

/-! ### reports -/

/-- a collision: two messages with one hash -/
def Sha256.Collide (message message' : List UInt8) : Prop :=
  message ≠ message' ∧ Sha256.hash message = Sha256.hash message'

namespace Report

/-- no item and no attribute of an item, read to the last bit, tells the two reports apart -/
structure Agree (r r' : Report UInt64) : Prop where
  length : r.items.length = r'.items.length
  types : ∀ (k : Nat) (item item' : ResolvedItem UInt64), r.items[k]? = some item →
    r'.items[k]? = some item' → item.type = item'.type
  values : ∀ (k : Nat) (item item' : ResolvedItem UInt64), r.items[k]? = some item →
    r'.items[k]? = some item' → ∀ a, item.get? a = item'.get? a

variable {r r' : Report UInt64}

theorem agree_iff : r.Agree r' ↔ r.items.length = r'.items.length ∧
    ∀ (k : Nat) (item item' : ResolvedItem UInt64), r.items[k]? = some item →
      r'.items[k]? = some item' → item.type = item'.type ∧ item.bits = item'.bits := by
  constructor
  · rintro ⟨length, types, values⟩
    refine ⟨length, fun k item item' hi hi' => ⟨types k item item' hi hi', ?_⟩⟩
    exact ResolvedItem.bits_eq_iff.mpr (values k item item' hi hi')
  · rintro ⟨length, same⟩
    refine ⟨length, fun k item item' hi hi' => (same k item item' hi hi').1,
      fun k item item' hi hi' => ?_⟩
    exact ResolvedItem.bits_eq_iff.mp (same k item item' hi hi').2

theorem Agree.record_eq (agree : r.Agree r') : r.record = r'.record := by
  obtain ⟨length, same⟩ := agree_iff.mp agree
  have records : r.items.map ResolvedItem.record = r'.items.map ResolvedItem.record := by
    apply List.ext_getElem
    · rw [List.length_map, List.length_map, length]
    · intro k hk hk'
      rw [List.length_map] at hk hk'
      rw [List.getElem_map, List.getElem_map]
      obtain ⟨type, bits⟩ := same k _ _ (List.getElem?_eq_getElem hk) (List.getElem?_eq_getElem hk')
      exact ResolvedItem.record_congr (Prod.ext type bits)
  unfold record
  rw [List.flatMap_def, List.flatMap_def, records]

theorem agree_of_record_eq (h : r.record = r'.record) : r.Agree r' := by
  have told := ResolvedItem.delimits_record.flatMap ResolvedItem.record_ne_nil h
  apply agree_iff.mpr
  constructor
  · simpa only [List.length_map] using congrArg List.length told
  · intro k item item' hi hi'
    have here := congrArg (fun rows => rows[k]?) told
    simp only [List.getElem?_map, hi, hi', Option.map_some, Option.some.injEq,
      Prod.mk.injEq] at here
    exact here

variable (r r')

/-- The record of a report says what its items are and what the patterns of their values are,
neither more nor less.  So two reports with one digest agree in all that, or their records are a
collision. -/
theorem record_faithful :
    (r.record = r'.record ↔ r.items.length = r'.items.length ∧
      ∀ (k : Nat) (item item' : ResolvedItem UInt64), r.items[k]? = some item →
        r'.items[k]? = some item' → item.type = item'.type ∧ item.bits = item'.bits) ∧
    (r.patternDigest = r'.patternDigest ↔ r.Agree r' ∨ Sha256.Collide r.record r'.record) := by
  have told : r.record = r'.record ↔ r.Agree r' := ⟨agree_of_record_eq, Agree.record_eq⟩
  refine ⟨told.trans agree_iff, ?_, ?_⟩
  · intro same
    by_cases records : r.record = r'.record
    · exact .inl (told.mp records)
    · exact .inr ⟨records, same⟩
  · rintro (agree | collision)
    · exact congrArg Sha256.hash (told.mpr agree)
    · exact collision.2

end Report

end Fitting
