import Mathlib.Data.Nat.Bitwise
import Fitting.Double

/-!
# The parts of a double

`Double.ofFloat` loses nothing: a double is told from its parts.  This holds of NaN too, of which
there is only one.

* `Kind`, `kind`                  the four kinds of doubles, each with its fields;
* `ofFloat_injective`             a double is told from its parts;
* `Regular`, `regular_ofFloat`    which mantissas go with which exponents;
* `isInf_of_ofFloat`              which doubles are infinite;
* `blurred`                       what is left of a double if only its finite values are told apart.
-/

namespace Fitting.Double

open Float.Model UnpackedFloat

/-! ### the fields of a double -/

def isNegative (x : Float) : Bool := x.toBits.toNat.testBit 63

def exponentField (x : Float) : Nat := (x.toBits.toNat >>> 52) % 2048

def mantissaField (x : Float) : Nat := x.toBits.toNat % (1 <<< 52)

theorem mantissaField_lt (x : Float) : mantissaField x < 2 ^ 52 := Nat.mod_lt _ (by decide)

theorem eq_of_toBits {x y : Float} (bits : x.toBits = y.toBits) : x = y := by
  obtain ⟨⟨b, _⟩⟩ := x
  obtain ⟨⟨b', _⟩⟩ := y
  obtain rfl : b = b' := bits
  rfl

theorem eq_of_fields {x y : Float} (negative : isNegative x = isNegative y)
    (exponent : exponentField x = exponentField y) (mantissa : mantissaField x = mantissaField y) :
    x = y := by
  have hx : x.toBits.toNat < 2 ^ 64 := x.toBits.toNat_lt
  have hy : y.toBits.toNat < 2 ^ 64 := y.toBits.toNat_lt
  have bits : x.toBits.toNat = y.toBits.toNat := by
    unfold isNegative at negative
    unfold exponentField at exponent
    unfold mantissaField at mantissa
    rw [Nat.testBit_eq_decide_div_mod_eq, Nat.testBit_eq_decide_div_mod_eq,
      decide_eq_decide] at negative
    rw [Nat.shiftRight_eq_div_pow, Nat.shiftRight_eq_div_pow] at exponent
    rw [Nat.one_shiftLeft] at mantissa
    omega
  exact eq_of_toBits (UInt64.toNat_inj.mp bits)

theorem unpackExponent_eq_ones {x : Float} :
    @unpackExponent .binary64 x.toBits.toBitVec = -1#11 ↔ exponentField x = 2047 := by
  have field : (@unpackExponent .binary64 x.toBits.toBitVec).toNat = exponentField x := by
    simp [unpackExponent, BitVec.extractLsb_toNat, exponentField]
  rw [← BitVec.toNat_inj, field]
  rfl

theorem unpackMantissa_eq_zero {x : Float} :
    @unpackMantissa .binary64 x.toBits.toBitVec = 0#52 ↔ mantissaField x = 0 := by
  have field : (@unpackMantissa .binary64 x.toBits.toBitVec).toNat = mantissaField x := by
    simp [unpackMantissa, BitVec.extractLsb_toNat, mantissaField]
  rw [← BitVec.toNat_inj, field]
  rfl

/-! ### the four kinds of doubles -/

/-- the mantissa has at most 53 binary digits, and fewer only with the least exponent -/
structure Regular (m : Nat) (e : Int) : Prop where
  mantissa_lt : m < 2 ^ 53
  least_le : -1074 ≤ e
  leading : -1074 < e → 2 ^ 52 ≤ m

/-- what the parts and the fields of a double can be -/
inductive Kind (x : Float) : Prop where
  | nan (parts : ofFloat x = .nan) (exponent : exponentField x = 2047)
      (mantissa : mantissaField x ≠ 0)
  | infinite (parts : ofFloat x = .infinite (isNegative x)) (exponent : exponentField x = 2047)
      (mantissa : mantissaField x = 0)
  | subnormal (parts : ofFloat x = .finite (isNegative x) (mantissaField x) (-1074))
      (exponent : exponentField x = 0)
  | normal
      (parts : ofFloat x =
        .finite (isNegative x) (2 ^ 52 + mantissaField x) (exponentField x - 1075))
      (exponent : 0 < exponentField x) (finite : exponentField x ≠ 2047)

theorem kind (x : Float) : Kind x := by
  have parts : ofFloat x =
      if exponentField x = 2047 then (if mantissaField x = 0 then .infinite (isNegative x)
        else .nan)
      else if exponentField x = 0 then .finite (isNegative x) (mantissaField x) (-1074)
      else .finite (isNegative x) (2 ^ 52 + mantissaField x) (exponentField x - 1075) := rfl
  by_cases ones : exponentField x = 2047
  · rw [if_pos ones] at parts
    by_cases zero : mantissaField x = 0
    · exact .infinite (parts.trans (if_pos zero)) ones zero
    · exact .nan (parts.trans (if_neg zero)) ones zero
  · rw [if_neg ones] at parts
    by_cases zero : exponentField x = 0
    · exact .subnormal (parts.trans (if_pos zero)) zero
    · exact .normal (parts.trans (if_neg zero)) (Nat.pos_of_ne_zero zero) ones

/-- there is only one NaN -/
theorem toBits_nan {x : Float} (exponent : exponentField x = 2047)
    (mantissa : mantissaField x ≠ 0) :
    x.toBits = 0x7ff8000000000000 := by
  have packed : x.toBits.toBitVec = packedNaN .binary64 :=
    x.toModel.valid.eq_packedNaN (unpackExponent_eq_ones.mpr exponent)
      (mt unpackMantissa_eq_zero.mp mantissa)
  exact UInt64.toBitVec_inj.mp packed

theorem ofFloat_injective {x y : Float} (h : ofFloat x = ofFloat y) : x = y := by
  have hx := mantissaField_lt x
  have hy := mantissaField_lt y
  rcases kind x with ⟨px, ex, mx⟩ | ⟨px, ex, mx⟩ | ⟨px, ex⟩ | ⟨px, ex, -⟩ <;>
    rcases kind y with ⟨py, ey, my⟩ | ⟨py, ey, my⟩ | ⟨py, ey⟩ | ⟨py, ey, -⟩ <;>
    simp only [px, py, infinite.injEq, finite.injEq, reduceCtorEq] at h
  case nan.nan =>
    exact eq_of_toBits ((toBits_nan ex mx).trans (toBits_nan ey my).symm)
  case infinite.infinite => exact eq_of_fields h (ex.trans ey.symm) (mx.trans my.symm)
  case subnormal.subnormal => exact eq_of_fields h.1 (ex.trans ey.symm) h.2.1
  -- a normal mantissa has a bit that no subnormal one has
  case subnormal.normal => omega
  case normal.subnormal => omega
  case normal.normal => exact eq_of_fields h.1 (by omega) (by omega)

/-- a finite double has fewer than 53 digits only if its exponent is the least one -/
theorem regular_ofFloat {x : Float} {negative : Bool} {m : Nat} {e : Int}
    (h : ofFloat x = .finite negative m e) :
    Regular m e := by
  have field := mantissaField_lt x
  cases kind x with
  | nan parts | infinite parts => simp only [parts, reduceCtorEq] at h
  | subnormal parts =>
    simp only [parts, finite.injEq] at h
    obtain ⟨-, rfl, rfl⟩ := h
    exact ⟨by omega, Int.le_refl _, fun above => absurd above (Int.lt_irrefl _)⟩
  | normal parts exponent =>
    simp only [parts, finite.injEq] at h
    obtain ⟨-, rfl, rfl⟩ := h
    exact ⟨by omega, by omega, fun _ => Nat.le_add_right _ _⟩

theorem isInf_of_ofFloat {x : Float} {negative : Bool} (h : ofFloat x = .infinite negative) :
    x.isInf = true := by
  cases kind x with
  | nan parts | subnormal parts | normal parts => simp only [parts, reduceCtorEq] at h
  | infinite parts exponent mantissa =>
    show (UnpackedFloat.unpack .binary64 x.toBits.toBitVec).isInf = true
    unfold UnpackedFloat.unpack
    dsimp only
    rw [if_pos (unpackExponent_eq_ones.mpr exponent), if_pos (unpackMantissa_eq_zero.mpr mantissa)]
    rfl

/-! ### finite values only -/

/-- a double that is a finite number -/
def finite? (x : Float) : Option Float :=
  match ofFloat x with
  | .finite _ _ _ => some x
  | _ => none

/-- a double, or NaN in place of an infinite one -/
def blurred (x : Float) : Float := (finite? x).getD (0.0 / 0.0)

theorem finite?_eq_some_iff {x y : Float} :
    finite? x = some y ↔ y = x ∧ ∃ negative m e, ofFloat x = .finite negative m e := by
  unfold finite?
  split
  · next negative m e parts => simp [parts, eq_comm]
  · next other =>
    refine iff_of_false (fun h => nomatch h) ?_
    rintro ⟨-, negative, m, e, parts⟩
    exact other negative m e parts

/-- doubles are one once blurred if they are one finite number, or both no finite number -/
theorem blurred_eq_iff {x y : Float} : blurred x = blurred y ↔ finite? x = finite? y := by
  have nan : finite? (0.0 / 0.0) = none := by decide +kernel
  have ne_nan : ∀ {x y}, finite? x = some y → y ≠ 0.0 / 0.0 := by
    rintro x _ h rfl
    obtain ⟨rfl, -⟩ := finite?_eq_some_iff.mp h
    cases nan.symm.trans h
  unfold blurred
  cases hx : finite? x with
  | none =>
    cases hy : finite? y with
    | none => exact iff_of_true rfl rfl
    | some w => exact iff_of_false (ne_nan hy).symm fun h => nomatch h
  | some v =>
    cases hy : finite? y with
    | none => exact iff_of_false (ne_nan hx) fun h => nomatch h
    | some w => exact Option.some_inj.symm

/-- unless it is infinite, a double stays as it is -/
theorem blurred_eq_self {x : Float} (h : x.isInf = false) : blurred x = x := by
  cases kind x with
  | nan parts exponent mantissa =>
    have none : finite? x = none := by rw [finite?, parts]
    rw [blurred, none]
    exact eq_of_toBits (Eq.trans (by decide +kernel) (toBits_nan exponent mantissa).symm)
  | infinite parts =>
    rw [isInf_of_ofFloat parts] at h
    cases h
  | subnormal parts | normal parts => rw [blurred, finite?, parts, Option.getD_some]

end Fitting.Double
