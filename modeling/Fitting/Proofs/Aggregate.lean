import Fitting.Aggregate
import Fitting.Proofs.DoubleOrder
import Fitting.Proofs.Exact

/-!
# The value that counts is the earliest of the best

`AggregateMode.select` compares its values by `beats`.  Where this is the order of some key, the
value it selects has the largest key, and all values before it have smaller ones: it `Leads`.

* `LinearScalar`              scalars that stand in a linear order: rationals, and doubles that are
                              no NaN;
* `select_lt`                 the selected position is that of a value;
* `scan_leads`                what the scan has found so far leads all values up to there;
* `select_leads`              so the selected value leads all of them;
* `Leads.unique`              and no other value of the list does;
* `select_earliest_extreme`   of such values the selected one is the earliest of the best, which are
                              the largest, the smallest or the largest in magnitude, and a further
                              one that is not strictly better changes nothing;
* `select_earliest`           the same of doubles, by their own comparisons.
-/

namespace Fitting

/-- scalars whose proper values, and their magnitudes, are compared by their places in a linear
order -/
class LinearScalar (α : Type) [Scalar α] where
  Proper : α → Prop
  Place : Type
  [order : LinearOrder Place]
  place : α → Place
  proper_magnitude : ∀ {x : α}, Proper x → Proper (Scalar.magnitude x)
  less_eq : ∀ {x y : α}, Proper x → Proper y → Scalar.less x y = decide (place x < place y)

attribute [reducible, instance] LinearScalar.order

instance : LinearScalar ℚ where
  Proper _ := True
  Place := ℚ
  place := id
  proper_magnitude := id
  less_eq _ _ := rfl

instance : LinearScalar Float where
  Proper x := x.isNaN = false
  Place := ℤ ×ₗ ℤ ×ₗ ℤ
  place := Double.place
  proper_magnitude := Double.isNaN_abs
  less_eq hx hy := decide_eq_decide.mpr (Double.lt_iff hx hy)

namespace AggregateMode

section
variable {α : Type} [Scalar α] {mode : AggregateMode}

theorem scan_lt (values : List α) : ∀ {best : Nat} {value : α} {next : Nat}, best < next →
    mode.scan best value next values < next + values.length := by
  induction values with
  | nil => exact fun before => before
  | cons v values ih =>
    intro best value next before
    have length : next + 1 + values.length = next + (v :: values).length := by
      rw [List.length_cons]
      omega
    unfold scan
    split
    · exact length ▸ ih (Nat.lt_succ_self next)
    · exact length ▸ ih (Nat.lt_succ_of_lt before)

theorem select_lt {values : List α} {i : Nat} (h : mode.select values = some i) :
    i < values.length := by
  cases values with
  | nil => cases h
  | cons v values =>
    obtain rfl := Option.some.inj h
    have inside : mode.scan 0 v 1 values < 1 + values.length := scan_lt values Nat.zero_lt_one
    rw [List.length_cons]
    omega

theorem exists_select (mode : AggregateMode) {values : List α} (nonempty : values ≠ []) :
    ∃ i, mode.select values = some i := by
  obtain ⟨v, values, rfl⟩ := List.exists_cons_of_ne_nil nonempty
  exact ⟨_, rfl⟩

end

section
variable {α κ : Type} [LinearOrder κ]

/-- `v` has a larger key than all values before it and no smaller one than those after it -/
structure Leads (key : α → κ) (before : List α) (v : α) (after : List α) : Prop where
  ahead : ∀ w ∈ before, key w < key v
  behind : ∀ w ∈ after, key w ≤ key v

theorem Leads.le {key : α → κ} {before after : List α} {v : α} (h : Leads key before v after) :
    ∀ w ∈ before ++ v :: after, key w ≤ key v := by
  intro w hw
  rcases List.mem_append.mp hw with hw | hw
  · exact (h.ahead w hw).le
  · rcases List.mem_cons.mp hw with rfl | hw
    · exact le_rfl
    · exact h.behind w hw

/-- of two values that lead one list neither stands before the other -/
theorem Leads.unique {key : α → κ} {before before' after after' : List α} {v v' : α}
    (h : Leads key before v after) (h' : Leads key before' v' after')
    (same : before ++ v :: after = before' ++ v' :: after') : before.length = before'.length := by
  rcases List.append_eq_append_iff.mp same with ⟨between, rfl, rest⟩ | ⟨between, rfl, rest⟩
  · obtain _ | ⟨u, between⟩ := between
    · simp
    · -- `v` stands before `v'`, which does not lead then
      obtain ⟨rfl, rfl⟩ := List.cons.inj rest
      have behind : key v' ≤ key v := h.behind v' (by simp)
      have ahead : key v < key v' := h'.ahead v (by simp)
      exact absurd ahead (not_lt.mpr behind)
  · obtain _ | ⟨u, between⟩ := between
    · simp
    · obtain ⟨rfl, rfl⟩ := List.cons.inj rest
      have behind : key v ≤ key v' := h'.behind v (by simp)
      have ahead : key v' < key v := h.ahead v' (by simp)
      exact absurd ahead (not_lt.mpr behind)

variable [Scalar α] {mode : AggregateMode} {key : α → κ}

theorem scan_leads (values : List α) : ∀ (before : List α) (v : α) (after : List α),
    (∀ w ∈ before ++ v :: after ++ values, ∀ u ∈ before ++ v :: after ++ values,
      mode.beats w u = decide (key u < key w)) →
    Leads key before v after → ∃ before' v' after',
      before ++ v :: after ++ values = before' ++ v' :: after' ∧
      mode.scan before.length v (before ++ v :: after).length values = before'.length ∧
      Leads key before' v' after' := by
  induction values with
  | nil =>
    intro before v after _ h
    exact ⟨before, v, after, List.append_nil _, rfl, h⟩
  | cons w values ih =>
    intro before v after ordered h
    have hb : mode.beats w v = decide (key v < key w) := ordered w (by simp) v (by simp)
    unfold scan
    by_cases hlt : key v < key w
    · -- the new value takes the lead from all before it
      have shift : before ++ v :: after ++ w :: values
          = (before ++ v :: after) ++ w :: [] ++ values := by simp
      rw [if_pos (by simpa [hb] using hlt), shift]
      rw [shift] at ordered
      have h' : Leads key (before ++ v :: after) w [] :=
        ⟨fun u hu => (h.le u hu).trans_lt hlt, fun u hu => absurd hu List.not_mem_nil⟩
      simpa [Nat.add_assoc] using ih (before ++ v :: after) w [] ordered h'
    · have shift : before ++ v :: after ++ w :: values
          = before ++ v :: (after ++ [w]) ++ values := by simp
      rw [if_neg (by simpa [hb] using hlt), shift]
      rw [shift] at ordered
      have h' : Leads key before v (after ++ [w]) := by
        refine ⟨h.ahead, fun u hu => ?_⟩
        rcases List.mem_append.mp hu with hu | hu
        · exact h.behind u hu
        · rw [List.mem_singleton.mp hu]
          exact not_lt.mp hlt
      simpa [Nat.add_assoc] using ih before v (after ++ [w]) ordered h'

theorem select_leads {values : List α}
    (ordered : ∀ w ∈ values, ∀ u ∈ values, mode.beats w u = decide (key u < key w))
    (nonempty : values ≠ []) : ∃ before v after, values = before ++ v :: after ∧
      mode.select values = some before.length ∧ Leads key before v after := by
  obtain ⟨v, values, rfl⟩ := List.exists_cons_of_ne_nil nonempty
  have start : Leads key [] v [] := ⟨by simp, by simp⟩
  obtain ⟨before, w, after, he, hs, hl⟩ := scan_leads values [] v [] ordered start
  exact ⟨before, w, after, he, congrArg some hs, hl⟩

end

/-! ### values in a linear order -/

section
variable {α : Type} [Scalar α] [LinearScalar α]

open LinearScalar

/-- `v` is strictly better than `w` -/
def Prefers (mode : AggregateMode) (v w : α) : Prop :=
  match mode with
  | .maximum => place w < place v
  | .minimum => place v < place w
  | .default => place (Scalar.magnitude w) < place (Scalar.magnitude v)

/-- among proper values each mode prefers the larger key -/
theorem exists_key (mode : AggregateMode) : ∃ (κ : Type) (_ : LinearOrder κ) (key : α → κ),
    (∀ x y : α, mode.Prefers x y ↔ key y < key x) ∧
    ∀ x y : α, Proper x → Proper y → mode.beats x y = decide (key y < key x) := by
  cases mode with
  | maximum => exact ⟨_, order, place, fun x y => Iff.rfl, fun x y hx hy => less_eq hy hx⟩
  | minimum =>
    exact ⟨_, inferInstance, fun x => OrderDual.toDual (place x), fun x y => Iff.rfl,
      fun x y hx hy => less_eq hx hy⟩
  | default =>
    exact ⟨_, order, fun x => place (Scalar.magnitude x), fun x y => Iff.rfl,
      fun x y hx hy => less_eq (proper_magnitude hy) (proper_magnitude hx)⟩

/-- what is selected of proper values leads them by a key that tells which of two values is
preferred -/
theorem exists_leads (mode : AggregateMode) : ∃ (κ : Type) (_ : LinearOrder κ) (key : α → κ),
    (∀ x y : α, mode.Prefers x y ↔ key y < key x) ∧
    ∀ values : List α, (∀ v ∈ values, Proper v) → values ≠ [] → ∃ before v after,
      values = before ++ v :: after ∧ mode.select values = some before.length ∧
        Leads key before v after := by
  obtain ⟨κ, order, key, preferred, ordered⟩ := exists_key (α := α) mode
  refine ⟨κ, order, key, preferred, fun values proper nonempty => ?_⟩
  exact select_leads (fun w hw u hu => ordered w u (proper w hw) (proper u hu)) nonempty

/-- Nothing is selected only of nothing.  The selected value is as good as any and strictly better
than all before it, and another one behind the values that is not strictly better changes
nothing. -/
theorem select_earliest_extreme (mode : AggregateMode) {values : List α}
    (proper : ∀ v ∈ values, Proper v) :
    (mode.select values = none ↔ values = []) ∧
    ∀ i, mode.select values = some i → ∃ inside : i < values.length,
      (∀ w ∈ values, ¬ mode.Prefers w values[i]) ∧
      (∀ (j : Nat) (before : j < i), mode.Prefers values[i] values[j]) ∧
      ∀ w, Proper w → ¬ mode.Prefers w values[i] → mode.select (values ++ [w]) = some i := by
  constructor
  · cases values with
    | nil => exact iff_of_true rfl rfl
    | cons v values => exact iff_of_false (Option.some_ne_none _) (List.cons_ne_nil v values)
  · intro i selected
    obtain ⟨κ, order, key, preferred, leading⟩ := exists_leads (α := α) mode
    have nonempty : values ≠ [] := by
      rintro rfl
      cases selected
    obtain ⟨before, v, after, rfl, found, leads⟩ := leading values proper nonempty
    obtain rfl : before.length = i := Option.some.inj (found.symm.trans selected)
    have inside : before.length < (before ++ v :: after).length := select_lt found
    have here : (before ++ v :: after)[before.length] = v := by simp
    refine ⟨inside, fun w hw => ?_, fun j hj => ?_, fun w hw worse => ?_⟩
    · rw [here, preferred]
      exact not_lt.mpr (leads.le w hw)
    · have reach : j < (before ++ v :: after).length := hj.trans inside
      have earlier : (before ++ v :: after)[j] = before[j] := List.getElem_append_left hj
      rw [here, earlier, preferred]
      exact leads.ahead _ (List.getElem_mem hj)
    · rw [here, preferred] at worse
      have proper' : ∀ u ∈ before ++ v :: (after ++ [w]), Proper u := by
        intro u hu
        rw [← List.cons_append, ← List.append_assoc] at hu
        rcases List.mem_append.mp hu with hu | hu
        · exact proper u hu
        · exact List.mem_singleton.mp hu ▸ hw
      have leads' : Leads key before v (after ++ [w]) := by
        refine ⟨leads.ahead, fun u hu => ?_⟩
        rcases List.mem_append.mp hu with hu | hu
        · exact leads.behind u hu
        · exact List.mem_singleton.mp hu ▸ not_lt.mp worse
      obtain ⟨before', v', after', parts, found', leads''⟩ :=
        leading (before ++ v :: (after ++ [w])) proper' (by simp)
      rw [List.append_assoc, List.cons_append, found', leads'.unique leads'' parts]

/-- of equals the first one counts, be they the two zeros, a number and its negative, or one value
twice -/
theorem select_earliest_extreme_tied :
    AggregateMode.maximum.select [(-1.0 : Float), -0.0, 0.0] = some 1 ∧
    AggregateMode.maximum.select ([(-1.0 : Float), -0.0, 0.0] ++ [0.0]) = some 1 ∧
    AggregateMode.default.select [(1 : ℚ), -5, 5] = some 1 ∧
    AggregateMode.default.select ([(1 : ℚ), -5, 5] ++ [5]) = some 1 := by
  have zeros : AggregateMode.maximum.select [(-1.0 : Float), -0.0, 0.0] = some 1 := by decide
  have signs : AggregateMode.default.select [(1 : ℚ), -5, 5] = some 1 := by decide
  have numbers : ∀ v ∈ [(-1.0 : Float), -0.0, 0.0], Proper v := by
    simp only [List.forall_mem_cons]
    exact ⟨rfl, rfl, rfl, fun _ h => nomatch h⟩
  obtain ⟨_, -, -, kept⟩ := (select_earliest_extreme .maximum numbers).2 1 zeros
  obtain ⟨_, -, -, kept'⟩ := (select_earliest_extreme .default fun (_ : ℚ) _ => trivial).2 1 signs
  have zero : ¬ AggregateMode.maximum.Prefers (0.0 : Float) (-0.0) := by
    show ¬ place (-0.0 : Float) < place (0.0 : Float)
    exact not_lt.mpr ((Double.le_iff rfl rfl).mp (by decide))
  have five : ¬ AggregateMode.default.Prefers (5 : ℚ) (-5) := by
    show ¬ |(-5 : ℚ)| < |5|
    decide
  exact ⟨zeros, kept 0.0 rfl zero, signs, kept' 5 trivial five⟩

end

/-! ### doubles -/

/-- `x` is no worse than `y` -/
def favours (mode : AggregateMode) (x y : Float) : Bool :=
  match mode with
  | .maximum => y ≤ x
  | .minimum => x ≤ y
  | .default => y.abs ≤ x.abs

theorem favours_eq (mode : AggregateMode) {x y : Float} (hx : x.isNaN = false)
    (hy : y.isNaN = false) :
    mode.favours x y = true ↔ ¬ mode.Prefers y x := by
  cases mode with
  | maximum => exact decide_eq_true_iff.trans ((Double.le_iff hy hx).trans not_lt.symm)
  | minimum => exact decide_eq_true_iff.trans ((Double.le_iff hx hy).trans not_lt.symm)
  | default =>
    have le_iff := Double.le_iff (Double.isNaN_abs hy) (Double.isNaN_abs hx)
    exact decide_eq_true_iff.trans (le_iff.trans not_lt.symm)

/-- the selected double is no worse than any other, and no earlier one is as good -/
theorem select_earliest (mode : AggregateMode) {values : List Float}
    (numbers : ∀ x ∈ values, x.isNaN = false) (nonempty : values ≠ []) :
    ∃ before v after, values = before ++ v :: after ∧ mode.select values = some before.length ∧
      (∀ w ∈ values, mode.favours v w) ∧ ∀ w ∈ before, mode.favours w v = false := by
  obtain ⟨κ, order, key, preferred, leading⟩ := exists_leads (α := Float) mode
  obtain ⟨before, v, after, rfl, found, leads⟩ := leading values numbers nonempty
  have hv : v.isNaN = false := numbers v (by simp)
  refine ⟨before, v, after, rfl, found, fun w hw => ?_, fun w hw => ?_⟩
  · rw [mode.favours_eq hv (numbers w hw), preferred]
    exact not_lt.mpr (leads.le w hw)
  · have worse : ¬ mode.favours w v = true := by
      rw [mode.favours_eq (numbers w (List.mem_append_left _ hw)) hv, preferred]
      exact not_not_intro (leads.ahead w hw)
    exact Bool.eq_false_iff.mpr worse

end AggregateMode

end Fitting
