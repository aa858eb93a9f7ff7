import Mathlib.Data.Prod.Lex
import Mathlib.Order.Compare
import Mathlib.Algebra.Order.Ring.Int
import Fitting.Scalar

/-!
# The order of doubles

Doubles other than NaN are ordered as their places on the number line are.  `rank` is this place:
the sign and the kind of the number, its exponent, its mantissa, compared in this order.  The two
zeros have one place.

* `compare_eq_rank`   numbers compare as their ranks do;
* `lt_iff`, `le_iff`  so do doubles that are no NaN;
* `isNaN_abs`         the magnitude of such a double is no NaN either.
-/

namespace Fitting.Double

open Float.Model Float.Model.UnpackedFloat

/-- the place of a number on the number line; that of NaN does not matter -/
def rank : UnpackedFloat → ℤ ×ₗ ℤ ×ₗ ℤ
  | .infinity .negative => toLex (-2, toLex (0, 0))
  | .finite .negative m e _ => toLex (-1, toLex (-e, -m))
  | .notANumber | .zero _ => toLex (0, toLex (0, 0))
  | .finite .positive m e _ => toLex (1, toLex (e, m))
  | .infinity .positive => toLex (2, toLex (0, 0))

theorem compare_toLex {α β : Type} [LinearOrder α] [LinearOrder β] (a a' : α) (b b' : β) :
    compare (toLex (a, b)) (toLex (a', b')) = (compare a a').then (compare b b') := by
  rw [Prod.Lex.compare_def]
  rfl

theorem compare_rank {a b : UnpackedFloat} {i j : ℤ} {x y : ℤ ×ₗ ℤ} (ha : rank a = toLex (i, x))
    (hb : rank b = toLex (j, y)) :
    compare (rank a) (rank b) = (compare i j).then (compare x y) := by
  rw [ha, hb, compare_toLex]

theorem compare_neg (a b : ℤ) : compare (-a) (-b) = (compare a b).swap := by
  rcases lt_trichotomy a b with h | rfl | h
  · rw [compare_lt_iff_lt.mpr h, compare_gt_iff_gt.mpr (by omega)]
    rfl
  · rw [Std.compare_self, Std.compare_self]
    rfl
  · rw [compare_gt_iff_gt.mpr h, compare_lt_iff_lt.mpr (by omega)]
    rfl

theorem compare_natCast (m n : ℕ) : compare (m : ℤ) (n : ℤ) = compare m n := by
  rcases lt_trichotomy m n with h | rfl | h
  · rw [compare_lt_iff_lt.mpr h, compare_lt_iff_lt.mpr (by omega)]
  · rw [Std.compare_self, Std.compare_self]
  · rw [compare_gt_iff_gt.mpr h, compare_gt_iff_gt.mpr (by omega)]

theorem compare_eq_rank {a b : UnpackedFloat} (ha : a ≠ .notANumber) (hb : b ≠ .notANumber) :
    a.compare b = some (compare (rank a) (rank b)) := by
  cases a with
  | notANumber => exact absurd rfl ha
  | infinity s =>
    cases b with
    | notANumber => exact absurd rfl hb
    | infinity t => cases s <;> cases t <;> rfl
    | zero t => cases s <;> cases t <;> rfl
    | finite t n k hn => cases s <;> cases t <;> rw [compare_rank rfl rfl] <;> rfl
  | zero s =>
    cases b with
    | notANumber => exact absurd rfl hb
    | infinity t => cases s <;> cases t <;> rfl
    | zero t => cases s <;> cases t <;> rfl
    | finite t n k hn => cases s <;> cases t <;> rw [compare_rank rfl rfl] <;> rfl
  | finite s m e hm =>
    cases b with
    | notANumber => exact absurd rfl hb
    | infinity t => cases s <;> cases t <;> rw [compare_rank rfl rfl] <;> rfl
    | zero t => cases s <;> cases t <;> rw [compare_rank rfl rfl] <;> rfl
    | finite t n k hn =>
      cases s <;> cases t
      -- of two numbers with one sign the exponents decide, then the mantissas
      · have hrank : compare (rank (.finite .negative m e hm)) (rank (.finite .negative n k hn))
            = compare (toLex (-e, -(m : ℤ))) (toLex (-k, -(n : ℤ))) := compare_rank rfl rfl
        rw [hrank, compare_toLex, compare_neg, compare_neg, compare_natCast]
        show some ((compare e k).then (compare m n)).swap = _
        cases compare e k <;> rfl
      · rw [compare_rank rfl rfl]
        rfl
      · rw [compare_rank rfl rfl]
        rfl
      · have hrank : compare (rank (.finite .positive m e hm)) (rank (.finite .positive n k hn))
            = compare (toLex (e, (m : ℤ))) (toLex (k, (n : ℤ))) := compare_rank rfl rfl
        rw [hrank, compare_toLex, compare_natCast]
        rfl

/-! ### doubles -/

/-- the place of a double on the number line -/
def place (x : Float) : ℤ ×ₗ ℤ ×ₗ ℤ := rank x.toModel.unpack

theorem unpack_ne_of_not_isNaN {x : Float} (h : x.isNaN = false) :
    x.toModel.unpack ≠ .notANumber := by
  intro hn
  unfold Float.isNaN Float.Model.isNaN at h
  rw [hn] at h
  exact Bool.noConfusion h

section
variable {x y : Float} (hx : x.isNaN = false) (hy : y.isNaN = false)
include hx hy

theorem lt_iff : x < y ↔ place x < place y := by
  show x.lt y = true ↔ _
  unfold Float.lt
  rw [decide_eq_true_iff]
  show x.toModel.unpack.lt y.toModel.unpack = true ↔ _
  unfold UnpackedFloat.lt
  rw [compare_eq_rank (unpack_ne_of_not_isNaN hx) (unpack_ne_of_not_isNaN hy), ← compare_lt_iff_lt]
  simp [place]

theorem le_iff : x ≤ y ↔ place x ≤ place y := by
  show x.le y = true ↔ _
  unfold Float.le
  rw [decide_eq_true_iff]
  show x.toModel.unpack.le y.toModel.unpack = true ↔ _
  unfold UnpackedFloat.le
  rw [compare_eq_rank (unpack_ne_of_not_isNaN hx) (unpack_ne_of_not_isNaN hy), ← compare_le_iff_le]
  exact Ordering.isLE_iff_ne_gt

end

/-! ### magnitudes -/

/-- only an exponent of ones with a mantissa other than zero stands for NaN -/
theorem unpack_packComponents_ne (s : Sign) {e : BitVec 11} {m : BitVec 52}
    (h : e ≠ -1#11 ∨ m = 0#52) :
    UnpackedFloat.unpack Format.binary64 (packComponents Format.binary64 s e m) ≠ .notANumber := by
  have he : unpackExponent (packComponents Format.binary64 s e m) = e :=
    unpackExponent_packComponents
  have hm : unpackMantissa (packComponents Format.binary64 s e m) = m :=
    unpackMantissa_packComponents
  unfold UnpackedFloat.unpack
  dsimp only
  by_cases ones : e = -1#11
  · rw [if_pos (he.trans ones), if_pos (hm.trans (h.resolve_left (not_not_intro ones)))]
    exact UnpackedFloat.noConfusion
  · rw [if_neg (mt he.symm.trans ones)]
    by_cases zeros : e = 0#11
    · rw [if_pos (he.trans zeros)]
      by_cases hz : m = 0#52
      · rw [dif_pos (hm.trans hz)]
        exact UnpackedFloat.noConfusion
      · rw [dif_neg (mt hm.symm.trans hz)]
        exact UnpackedFloat.noConfusion
    · rw [if_neg (mt he.symm.trans zeros)]
      exact UnpackedFloat.noConfusion

theorem unpack_pack_ne {a : UnpackedFloat} (h : a ≠ .notANumber) :
    (Float.Model.pack a).unpack ≠ .notANumber := by
  show UnpackedFloat.unpack Format.binary64 (UnpackedFloat.pack Format.binary64 a) ≠ _
  cases a with
  | notANumber => exact absurd rfl h
  | infinity s => exact unpack_packComponents_ne s (.inr rfl)
  | zero s => exact unpack_packComponents_ne s (.inr rfl)
  | finite s m e hm =>
    unfold UnpackedFloat.pack
    dsimp only
    split
    · exact unpack_packComponents_ne s (.inr rfl)
    next small =>
      split
      · refine unpack_packComponents_ne s (.inl fun he => small ?_)
        generalize (e + Format.binary64.exponentBias + 52 : ℤ).toNat = biased at he ⊢
        have hb : biased % 2 ^ 11 = 2 ^ 11 - 1 := congrArg BitVec.toNat he
        show 2 ^ 11 ≤ biased + 1
        omega
      · exact unpack_packComponents_ne s (.inl (by decide))

theorem isNaN_abs {x : Float} (h : x.isNaN = false) : x.abs.isNaN = false := by
  have habs : x.toModel.unpack.abs ≠ .notANumber := by
    have hu := unpack_ne_of_not_isNaN h
    cases hx : x.toModel.unpack with
    | notANumber => exact absurd hx hu
    | infinity s => exact UnpackedFloat.noConfusion
    | zero s => exact UnpackedFloat.noConfusion
    | finite s m e hm => exact UnpackedFloat.noConfusion
  show (Float.Model.pack x.toModel.unpack.abs).unpack.isNaN = false
  cases hp : (Float.Model.pack x.toModel.unpack.abs).unpack with
  | notANumber => exact absurd hp (unpack_pack_ne habs)
  | infinity s => rfl
  | zero s => rfl
  | finite s m e hm => rfl

end Fitting.Double
