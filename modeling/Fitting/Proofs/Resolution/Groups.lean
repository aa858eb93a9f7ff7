import Fitting.Fit.Resolution

/-!
# The groups of warfare buffs

`dbuffGroups` gathers the tagged edges of a list by their buff.  The group of a buff is a part of
the list, `buffed`, in the order of the list and with the positions of the list.

* `getElem?_dbuffGroups`   the group of a buff, if there is one;
* `mem_groups`             the groups are these parts, none of them empty;
* `mem_of_mem_group`       a member of a group stands in the list at its position.
-/

namespace Fitting.Fit

def buff? (m : Edge × Nat) : Option DbuffId := m.1.dbuff.map DbuffTag.dbuff

/-- the edges of one warfare buff with their positions -/
def buffed (b : DbuffId) (edges : List (Edge × Nat)) : List (Edge × Nat) :=
  edges.filter (fun m => buff? m = some b)

theorem buffed_cons_pos {b : DbuffId} {m : Edge × Nat} (edges : List (Edge × Nat))
    (h : buff? m = some b) : buffed b (m :: edges) = m :: buffed b edges :=
  List.filter_cons_of_pos (by simpa using h)

theorem buffed_cons_neg {b : DbuffId} {m : Edge × Nat} (edges : List (Edge × Nat))
    (h : buff? m ≠ some b) : buffed b (m :: edges) = buffed b edges :=
  List.filter_cons_of_neg (by simpa using h)

/-- one more edge sorted into its group -/
def sortIn (groups : Map DbuffId (List (Edge × Nat))) :
    Edge × Nat → Map DbuffId (List (Edge × Nat)) :=
  fun (e, i) =>
    match e.dbuff with
    | some tag => groups.alter tag.dbuff (fun members => some (members.getD [] ++ [(e, i)]))
    | none => groups

theorem getElem?_sortIn (groups : Map DbuffId (List (Edge × Nat))) (m : Edge × Nat) (b : DbuffId) :
    (sortIn groups m)[b]? =
      if buff? m = some b then some (groups[b]?.getD [] ++ [m]) else groups[b]? := by
  obtain ⟨e, i⟩ := m
  unfold sortIn buff?
  dsimp only
  split
  next tag h =>
    rw [h, Std.ExtTreeMap.getElem?_alter]
    by_cases hb : tag.dbuff = b
    · subst hb
      simp
    · have hc : compare tag.dbuff b ≠ .eq := fun he => hb (Std.LawfulEqOrd.eq_of_compare he)
      simp [hb, hc]
  next h =>
    rw [h]
    rfl

theorem getElem?_foldl_sortIn (edges : List (Edge × Nat)) (b : DbuffId) :
    ∀ groups : Map DbuffId (List (Edge × Nat)), (edges.foldl sortIn groups)[b]? =
      if buffed b edges = [] then groups[b]? else some (groups[b]?.getD [] ++ buffed b edges) := by
  induction edges with
  | nil =>
    intro groups
    rfl
  | cons m edges ih =>
    intro groups
    rw [List.foldl_cons, ih, getElem?_sortIn]
    by_cases hm : buff? m = some b
    · rw [buffed_cons_pos edges hm, if_pos hm, if_neg (List.cons_ne_nil _ _)]
      by_cases he : buffed b edges = []
      · rw [if_pos he, he]
      · rw [if_neg he, Option.getD_some, List.append_assoc]
        rfl
    · rw [buffed_cons_neg edges hm, if_neg hm]

theorem dbuffGroups_eq (edges : List Edge) : dbuffGroups edges = edges.zipIdx.foldl sortIn ∅ := rfl

theorem getElem?_dbuffGroups (edges : List Edge) (b : DbuffId) :
    (dbuffGroups edges)[b]? =
      if buffed b edges.zipIdx = [] then none else some (buffed b edges.zipIdx) := by
  rw [dbuffGroups_eq, getElem?_foldl_sortIn]
  simp

/-- the groups are the parts of the list that belong to one buff -/
theorem mem_groups {edges : List Edge} {members : List (Edge × Nat)} :
    members ∈ (dbuffGroups edges).toList.map Prod.snd ↔
      ∃ b, members = buffed b edges.zipIdx ∧ members ≠ [] := by
  simp only [List.mem_map, Prod.exists, Std.ExtTreeMap.mem_toList_iff_getElem?_eq_some,
    getElem?_dbuffGroups, exists_eq_right]
  constructor
  · rintro ⟨b, hb⟩
    by_cases he : buffed b edges.zipIdx = []
    · simp [he] at hb
    · simp only [he, if_false, Option.some.injEq] at hb
      exact ⟨b, hb.symm, hb ▸ he⟩
  · rintro ⟨b, rfl, hne⟩
    exact ⟨b, by simp [hne]⟩

/-- a member of a group stands in the list at its position -/
theorem mem_of_mem_group {edges : List Edge} {members : List (Edge × Nat)} {e : Edge} {i : Nat}
    (hg : members ∈ (dbuffGroups edges).toList.map Prod.snd) (hm : (e, i) ∈ members) :
    edges[i]? = some e := by
  obtain ⟨b, rfl, _⟩ := mem_groups.mp hg
  exact List.mem_zipIdx_iff_getElem?.mp (List.mem_filter.mp hm).1

end Fitting.Fit
