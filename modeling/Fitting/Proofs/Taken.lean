import Mathlib.Data.List.TakeWhile
import Mathlib.Data.List.Perm.Basic

/-!
# Lists taken from the first assignment on

An attribute that is declared takes all that is meant for it.  Any other takes nothing before the
first assignment, so the order of what is meant for it decides how much is lost.

* `taken`                    what an attribute takes;
* `taken_append`             what comes first either settles that all of the rest is taken, or
                             nothing;
* `dropWhile_perm`           in any order the assignments are all taken;
* `taken_perm`               so in another order other entries are lost, but none that assigns;
* `taken_perm_of_orderFree`  and none at all if the first one assigns, or nothing does.
-/

namespace Fitting

variable {α : Type} {assigns : α → Bool}

/-- what an attribute takes: all, or all from the first assignment on -/
def taken (assigns : α → Bool) (declared : Bool) (l : List α) : List α :=
  if declared then l else l.dropWhile (fun x => !assigns x)

theorem taken_map {β : Type} (g : β → α) (assigns : α → Bool) (declared : Bool) (l : List β) :
    (taken (fun x => assigns (g x)) declared l).map g = taken assigns declared (l.map g) := by
  unfold taken
  rw [List.dropWhile_map]
  split <;> rfl

theorem dropWhile_eq_self {l : List α} (h : ∀ x ∈ l.head?, assigns x) :
    l.dropWhile (fun x => !assigns x) = l := by
  cases l with
  | nil => rfl
  | cons x l => simp [h x rfl]

theorem dropWhile_eq_nil {l : List α} :
    l.dropWhile (fun x => !assigns x) = [] ↔ ∀ x ∈ l, assigns x = false := by
  simp [List.dropWhile_eq_nil_iff]

/-! ### what comes first -/

theorem dropWhile_append_silent {l : List α} (h : ∀ x ∈ l, assigns x = false) (m : List α) :
    (l ++ m).dropWhile (fun x => !assigns x) = m.dropWhile (fun x => !assigns x) :=
  List.dropWhile_append_of_pos fun x hx => by simp [h x hx]

theorem dropWhile_append_assigning {l : List α} (h : ¬ ∀ x ∈ l, assigns x = false) (m : List α) :
    (l ++ m).dropWhile (fun x => !assigns x) = l.dropWhile (fun x => !assigns x) ++ m := by
  have hne := mt dropWhile_eq_nil.mp h
  rw [List.dropWhile_append]
  simp [hne]

/-- what comes first either settles that all of the rest is taken, or has no say in what is -/
theorem taken_append (assigns : α → Bool) (declared : Bool) (before : List α) :
    (∃ head, ∀ l, taken assigns declared (before ++ l) = head ++ l) ∨
      declared = false ∧ (∀ x ∈ before, assigns x = false) ∧
        ∀ l, taken assigns declared (before ++ l) = l.dropWhile (fun x => !assigns x) := by
  cases declared with
  | true => exact .inl ⟨before, fun _ => rfl⟩
  | false =>
    by_cases h : ∀ x ∈ before, assigns x = false
    · exact .inr ⟨rfl, h, dropWhile_append_silent h⟩
    · exact .inl ⟨_, dropWhile_append_assigning h⟩

/-! ### another order -/

/-- what is taken of a list that does not assign itself -/
def followers (assigns : α → Bool) (l : List α) : List α :=
  (l.dropWhile (fun x => !assigns x)).filter (fun x => !assigns x)

theorem mem_followers {l : List α} {x : α} (h : x ∈ followers assigns l) :
    assigns x = false ∧ x ∈ l := by
  obtain ⟨hm, ha⟩ := List.mem_filter.mp h
  exact ⟨by simpa using ha, (List.dropWhile_sublist _).subset hm⟩

theorem filter_dropWhile (l : List α) :
    (l.dropWhile (fun x => !assigns x)).filter assigns = l.filter assigns := by
  induction l with
  | nil => rfl
  | cons x l ih =>
    rw [List.dropWhile_cons]
    cases hx : assigns x with
    | true => simp
    | false => simpa [hx] using ih

/-- the assignments are all taken -/
theorem dropWhile_perm (l : List α) :
    (l.dropWhile (fun x => !assigns x)).Perm (l.filter assigns ++ followers assigns l) := by
  have parts := List.filter_append_perm assigns (l.dropWhile (fun x => !assigns x))
  rw [filter_dropWhile] at parts
  exact parts.symm

variable {l l' : List α}

theorem silent_perm (perm : l.Perm l') :
    (∀ x ∈ l, assigns x = false) ↔ ∀ x ∈ l', assigns x = false :=
  forall_congr' fun _ => imp_congr_left perm.mem_iff

/-- in the middle of a list another order makes a difference to entries that do not assign only -/
theorem taken_perm (assigns : α → Bool) (declared : Bool) (before after : List α)
    (perm : l.Perm l') :
    ∃ common extra extra', (taken assigns declared (before ++ (l ++ after))).Perm
      (common ++ extra) ∧
      (taken assigns declared (before ++ (l' ++ after))).Perm (common ++ extra') ∧
      ∀ x ∈ extra ++ extra', assigns x = false ∧ x ∈ l := by
  -- where all is taken or nothing there is no difference
  have same : ∀ {m m' : List α}, m.Perm m' → ∃ common extra extra', m.Perm (common ++ extra) ∧
      m'.Perm (common ++ extra') ∧ ∀ x ∈ extra ++ extra', assigns x = false ∧ x ∈ l :=
    fun {m m'} h => ⟨m, [], [], by simp, by simpa using h.symm, by simp⟩
  rcases taken_append assigns declared before with ⟨head, h⟩ | ⟨-, -, h⟩
  · rw [h, h]
    exact same ((perm.append_right after).append_left head)
  · rw [h, h]
    by_cases hl : ∀ x ∈ l, assigns x = false
    · rw [dropWhile_append_silent hl, dropWhile_append_silent ((silent_perm perm).mp hl)]
      exact same (.refl _)
    · rw [dropWhile_append_assigning hl, dropWhile_append_assigning (mt (silent_perm perm).mpr hl)]
      have split : ∀ m : List α, (m.dropWhile (fun x => !assigns x) ++ after).Perm
          (after ++ m.filter assigns ++ followers assigns m) := by
        intro m
        rw [List.append_assoc]
        exact List.perm_append_comm.trans ((dropWhile_perm m).append_left after)
      refine ⟨after ++ l.filter assigns, followers assigns l, followers assigns l', split l, ?_, ?_⟩
      · exact (split l').trans (((perm.symm.filter assigns).append_left after).append_right _)
      · intro x hx
        rcases List.mem_append.mp hx with hx | hx
        · exact mem_followers hx
        · exact ⟨(mem_followers hx).1, perm.mem_iff.mpr (mem_followers hx).2⟩

/-- it makes no difference where the attribute is declared, where something before assigns, where
none of these entries do or where the first of them does in either order -/
theorem taken_perm_of_orderFree {declared : Bool} {before : List α} (after : List α)
    (perm : l.Perm l') (free : declared ∨ (∃ x ∈ before, assigns x) ∨ (∀ x ∈ l, assigns x = false) ∨
      ((∀ x ∈ l.head?, assigns x) ∧ ∀ x ∈ l'.head?, assigns x)) :
    (taken assigns declared (before ++ (l ++ after))).Perm
      (taken assigns declared (before ++ (l' ++ after))) := by
  rcases taken_append assigns declared before with ⟨head, h⟩ | ⟨hd, hb, h⟩
  · rw [h, h]
    exact (perm.append_right after).append_left head
  · rw [h, h]
    by_cases hl : ∀ x ∈ l, assigns x = false
    · rw [dropWhile_append_silent hl, dropWhile_append_silent ((silent_perm perm).mp hl)]
    · rw [dropWhile_append_assigning hl, dropWhile_append_assigning (mt (silent_perm perm).mpr hl)]
      rcases free with hd' | ⟨x, hx, ha⟩ | hs | ⟨hh, hh'⟩
      · rw [hd] at hd'
        exact absurd hd' Bool.false_ne_true
      · rw [hb x hx] at ha
        exact absurd ha Bool.false_ne_true
      · exact absurd hs hl
      · rw [dropWhile_eq_self hh, dropWhile_eq_self hh']
        exact perm.append_right after

end Fitting
