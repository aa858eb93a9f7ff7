import Mathlib.Algebra.BigOperators.Group.List.Basic
import Mathlib.Algebra.GroupWithZero.Nat
import Mathlib.Data.List.Find
import Mathlib.Data.List.Forall2
import Mathlib.Data.List.Induction
import Mathlib.Data.List.Nodup
import Fitting.Key

/-!
# Tables made from rows

* `lastRows_rel`        rows that belong together one by one make tables that do so entry by entry;
* `getElem?_lastRows`   in a table made by `Map.lastRows` a key has the value of its last row;
* `mem_lastRows`        the keys of the table are those of the rows;
* `mem_of_lastRows`     the entries of a table of rows are rows, each under its key;
* `lastRows_eq_some`    if no key has two rows, the entries of the table are the rows;
* `size_lastRows`       and it has as many;
* `getElem?_firstRows`  in a table made by `Map.firstRows` a key has the value of its first row;
* `lastRows_filter`     rows with other keys do not matter;
* `lastRows_append_self`, `firstRows_append_self`   nor does it that the rows come twice;
* `lastRows_perm`       if no key has two rows, their order does not matter either;
* `find?_toList`        the row of a key among the rows of a table, in whatever order they are
                        taken;
* `getElem?_overlay`    one table written over another;
* `getElem?_foldl_modify`   one table that changes the entries of another;
* `rekeyed_eq_some`     a table read under other keys: of several entries under one of them the
                        greatest counts;
* `values_eq`           the values of a table in the order of their keys;
* `flatMap_toList`      what one key adds to a list made from the whole table;
* `sum_toList_insert`   what one more entry adds to a sum over the table.
-/

namespace Fitting.Map
variable {κ ν ρ : Type} [Ord κ] [Std.TransOrd κ]

theorem isSome_eq_of_rel {ν' : Type} {S : ν → ν' → Prop} {v : Option ν} {v' : Option ν'}
    (h : Option.Rel S v v') : v.isSome = v'.isSome := by
  cases h <;> rfl

/-- rows that belong together one by one and have the same keys give entries that belong together -/
theorem lastRows_rel {ρ' ν' : Type} {R : ρ → ρ' → Prop} {S : ν → ν' → Prop} {key : ρ → κ}
    {key' : ρ' → κ} {value : ρ → ν} {value' : ρ' → ν'}
    (same : ∀ row row', R row row' → key row = key' row' ∧ S (value row) (value' row'))
    {rows : List ρ} {rows' : List ρ'} (pairs : List.Forall₂ R rows rows') (k : κ) :
    Option.Rel S (lastRows key value rows)[k]? (lastRows key' value' rows')[k]? := by
  have step : ∀ (m : Map κ ν) (m' : Map κ ν'), (∀ k : κ, Option.Rel S m[k]? m'[k]?) →
      ∀ k : κ, Option.Rel S
      (rows.foldl (fun m row => m.insert (key row) (value row)) m)[k]?
      (rows'.foldl (fun m row => m.insert (key' row) (value' row)) m')[k]? := by
    induction pairs with
    | nil => exact fun _ _ start => start
    | @cons row row' rows rows' h _ ih =>
      intro m m' start
      obtain ⟨keys, values⟩ := same row row' h
      refine ih _ _ fun k => ?_
      rw [Std.ExtTreeMap.getElem?_insert, Std.ExtTreeMap.getElem?_insert, keys]
      split
      · exact .some values
      · exact start k
  refine step ∅ ∅ (fun k => ?_) k
  rw [Std.ExtTreeMap.getElem?_empty, Std.ExtTreeMap.getElem?_empty]
  exact .none

variable [Std.LawfulEqOrd κ] [DecidableEq κ]

theorem getElem?_foldl_insert (key : ρ → κ) (value : ρ → ν) (rows : List ρ) (m : Map κ ν) (k : κ) :
    (rows.foldl (fun m row => m.insert (key row) (value row)) m)[k]? =
      ((rows.reverse.find? (fun row => key row = k)).map value).or m[k]? := by
  induction rows using List.reverseRecOn with
  | nil => rfl
  | append_singleton rows row ih =>
    rw [List.foldl_append, List.foldl_cons, List.foldl_nil, Std.ExtTreeMap.getElem?_insert,
      List.reverse_append, List.reverse_singleton, List.singleton_append, List.find?_cons]
    by_cases h : key row = k
    · simp [h]
    · have hc : compare (key row) k ≠ .eq := fun he => h (Std.LawfulEqOrd.eq_of_compare he)
      simp [h, hc, ih]

theorem getElem?_lastRows (key : ρ → κ) (value : ρ → ν) (rows : List ρ) (k : κ) :
    (lastRows key value rows)[k]? =
      (rows.reverse.find? (fun row => key row = k)).map value := by
  unfold lastRows
  rw [getElem?_foldl_insert, Std.ExtTreeMap.getElem?_empty, Option.or_none]

theorem mem_lastRows {key : ρ → κ} {value : ρ → ν} {rows : List ρ} {k : κ} :
    k ∈ lastRows key value rows ↔ ∃ row ∈ rows, key row = k := by
  rw [← Std.ExtTreeMap.isSome_getElem?_iff_mem, getElem?_lastRows, Option.isSome_map,
    List.find?_isSome]
  simp only [List.mem_reverse, decide_eq_true_eq]

theorem mem_of_lastRows {key : ρ → κ} {rows : List ρ} {k : κ} {row : ρ}
    (found : (lastRows key id rows)[k]? = some row) : row ∈ rows ∧ key row = k := by
  rw [getElem?_lastRows, Option.map_id] at found
  exact ⟨List.mem_reverse.mp (List.mem_of_find?_eq_some found),
    by simpa using List.find?_some found⟩

/-- rows with other keys do not matter -/
theorem lastRows_filter {key : ρ → κ} {value : ρ → ν} {rows : List ρ} {keep : ρ → Bool} {k : κ}
    (h : ∀ row ∈ rows, key row = k → keep row) :
    (lastRows key value (rows.filter keep))[k]? = (lastRows key value rows)[k]? := by
  rw [getElem?_lastRows, getElem?_lastRows, ← List.filter_reverse, List.find?_filter]
  refine congrArg (Option.map value) (List.find?_congr fun row hr => ?_)
  by_cases hk : key row = k
  · simp [hk, h row (List.mem_reverse.mp hr) hk]
  · simp [hk]

theorem lastRows_append_self (key : ρ → κ) (value : ρ → ν) (rows : List ρ) :
    lastRows key value (rows ++ rows) = lastRows key value rows := by
  apply Std.ExtTreeMap.ext_getElem?
  intro k
  rw [getElem?_lastRows, getElem?_lastRows, List.reverse_append, List.find?_append, Option.or_self]

/-- rows changed under their keys -/
theorem getElem?_lastRows_map {key : ρ → κ} {change : ρ → ρ}
    (keeps : ∀ row, key (change row) = key row) (rows : List ρ) (k : κ) :
    (lastRows key id (rows.map change))[k]? = (lastRows key id rows)[k]?.map change := by
  rw [getElem?_lastRows, getElem?_lastRows, ← List.map_reverse, List.find?_map, Option.map_id]
  simp only [Function.comp_def, keeps, id]

theorem lastRows_eq_some {key : ρ → κ} {value : ρ → ν} {rows : List ρ} {k : κ} {v : ν}
    (h : (rows.map key).Nodup) :
    (lastRows key value rows)[k]? = some v ↔ ∃ row ∈ rows, key row = k ∧ value row = v := by
  rw [getElem?_lastRows, Option.map_eq_some_iff]
  constructor
  · rintro ⟨row, hr, rfl⟩
    exact ⟨row, List.mem_reverse.mp (List.mem_of_find?_eq_some hr),
      by simpa using List.find?_some hr, rfl⟩
  · rintro ⟨row, hr, hk, rfl⟩
    have hf : (rows.reverse.find? (fun row => key row = k)).isSome :=
      List.find?_isSome.mpr ⟨row, List.mem_reverse.mpr hr, by simpa using hk⟩
    obtain ⟨row', hr'⟩ := Option.isSome_iff_exists.mp hf
    have hm := List.mem_reverse.mp (List.mem_of_find?_eq_some hr')
    have hk' : key row' = k := by simpa using List.find?_some hr'
    have : row' = row := List.inj_on_of_nodup_map h hm hr (hk'.trans hk.symm)
    exact ⟨row', hr', by rw [this]⟩

/-- if no key has two rows, the table has as many entries as there are rows -/
theorem size_lastRows {key : ρ → κ} {value : ρ → ν} {rows : List ρ} (h : (rows.map key).Nodup) :
    (lastRows key value rows).size = rows.length := by
  induction rows using List.reverseRecOn with
  | nil => exact Std.ExtTreeMap.size_empty
  | append_singleton rows row ih =>
    rw [List.map_append, List.map_singleton, List.nodup_append'] at h
    obtain ⟨distinct, -, apart⟩ := h
    have new : key row ∉ lastRows key value rows := fun hm =>
      apart (List.mem_map.mpr (mem_lastRows.mp hm)) (List.mem_singleton_self _)
    have last : lastRows key value (rows ++ [row]) =
        (lastRows key value rows).insert (key row) (value row) :=
      List.foldl_concat ..
    rw [last, Std.ExtTreeMap.size_insert, if_neg (mt Std.ExtTreeMap.mem_iff_contains.mpr new),
      ih distinct, List.length_append, List.length_singleton]

theorem lastRows_perm {key : ρ → κ} {rows rows' : List ρ} (value : ρ → ν) (h : (rows.map key).Nodup)
    (perm : rows.Perm rows') : lastRows key value rows = lastRows key value rows' := by
  have h' : (rows'.map key).Nodup := (perm.map key).nodup_iff.mp h
  apply Std.ExtTreeMap.ext_getElem?
  intro k
  apply Option.ext
  intro v
  rw [lastRows_eq_some h, lastRows_eq_some h']
  simp only [perm.mem_iff]

/-- a row adds nothing to a key that has one -/
theorem getElem?_insertIfNew_or (m : Map κ ν) (k k' : κ) (v : ν) :
    (m.insertIfNew k v)[k']? = m[k']?.or (if k = k' then some v else none) := by
  rw [Std.ExtTreeMap.getElem?_insertIfNew]
  by_cases h : k = k'
  · subst h
    by_cases hm : k ∈ m <;> simp [hm]
  · have hc : compare k k' ≠ .eq := fun he => h (Std.LawfulEqOrd.eq_of_compare he)
    simp [h, hc]

theorem getElem?_foldl_insertIfNew (key : ρ → κ) (value : ρ → ν) (rows : List ρ) (k : κ) :
    ∀ m : Map κ ν, (rows.foldl (fun m row => m.insertIfNew (key row) (value row)) m)[k]? =
      m[k]?.or ((rows.find? (fun row => key row = k)).map value) := by
  induction rows with
  | nil => exact fun m => Option.or_none.symm
  | cons row rows ih =>
    intro m
    rw [List.foldl_cons, ih, getElem?_insertIfNew_or, List.find?_cons, Option.or_assoc]
    by_cases h : key row = k <;> simp [h]

theorem getElem?_firstRows (key : ρ → κ) (value : ρ → ν) (rows : List ρ) (k : κ) :
    (firstRows key value rows)[k]? = (rows.find? (fun row => key row = k)).map value := by
  unfold firstRows
  rw [getElem?_foldl_insertIfNew]
  simp

theorem firstRows_append_self (key : ρ → κ) (value : ρ → ν) (rows : List ρ) :
    firstRows key value (rows ++ rows) = firstRows key value rows := by
  apply Std.ExtTreeMap.ext_getElem?
  intro k
  rw [getElem?_firstRows, getElem?_firstRows, List.find?_append, Option.or_self]

omit [Ord κ] [Std.TransOrd κ] [Std.LawfulEqOrd κ] in
theorem flatMap_eq_nil_of_keys {β : Type} (g : ν → List β) {k : κ} {rows : List (κ × ν)}
    (h : k ∉ rows.map Prod.fst) :
    rows.flatMap (fun (k', v) => if k' = k then g v else []) = [] := by
  refine List.flatMap_eq_nil_iff.mpr fun row hr => if_neg ?_
  rintro rfl
  exact h (List.mem_map_of_mem hr)

omit [Std.LawfulEqOrd κ] [DecidableEq κ] in
theorem values_eq (m : Map κ ν) : m.values = m.toList.map Prod.snd := by
  have hf : m.values = m.foldr (fun _ value values => value :: values) [] := by
    obtain ⟨m⟩ := m
    induction m using Std.ExtDTreeMap.inductionOn with
    | mk m => rfl
  rw [hf, Std.ExtTreeMap.foldr_eq_foldr_toList, List.map_eq_foldr]

omit [Std.LawfulEqOrd κ] [DecidableEq κ] in
theorem nodup_toList (m : Map κ ν) : (m.toList.map Prod.fst).Nodup := by
  rw [Std.ExtTreeMap.map_fst_toList_eq_keys]
  exact Std.ExtTreeMap.nodup_keys

/-- no two rows of the table have one key, so at most one row adds something -/
theorem flatMap_toList {β : Type} (m : Map κ ν) (g : ν → List β) (k : κ) :
    m.toList.flatMap (fun (k', v) => if k' = k then g v else []) = (m[k]?.map g).getD [] := by
  have nodup := nodup_toList m
  cases hv : m[k]? with
  | none =>
    refine flatMap_eq_nil_of_keys g fun hk => ?_
    rw [Std.ExtTreeMap.map_fst_toList_eq_keys, Std.ExtTreeMap.mem_keys,
      Std.ExtTreeMap.mem_iff_isSome_getElem?, hv] at hk
    exact Bool.false_ne_true hk
  | some v =>
    have hm : (k, v) ∈ m.toList := Std.ExtTreeMap.mem_toList_iff_getElem?_eq_some.mpr hv
    obtain ⟨before, after, he⟩ := List.append_of_mem hm
    rw [he, List.map_append, List.map_cons, List.nodup_middle, List.nodup_cons,
      List.mem_append, not_or] at nodup
    rw [he, List.flatMap_append, List.flatMap_cons, flatMap_eq_nil_of_keys g nodup.1.1,
      flatMap_eq_nil_of_keys g nodup.1.2]
    simp

theorem find?_toList {m : Map κ ν} {rows : List (κ × ν)} (perm : rows.Perm m.toList) (k : κ) :
    rows.find? (fun row => row.1 = k) = m[k]?.map (k, ·) := by
  have entry : ∀ row, row ∈ rows ↔ m[row.1]? = some row.2 := fun row =>
    perm.mem_iff.trans Std.ExtTreeMap.mem_toList_iff_getElem?_eq_some
  cases hv : m[k]? with
  | none =>
    refine List.find?_eq_none.mpr fun row hr hk => ?_
    rw [← of_decide_eq_true hk, (entry row).mp hr] at hv
    cases hv
  | some v =>
    have found : (rows.find? fun row => row.1 = k).isSome :=
      List.find?_isSome.mpr ⟨(k, v), (entry (k, v)).mpr hv, decide_eq_true rfl⟩
    obtain ⟨row, hr⟩ := Option.isSome_iff_exists.mp found
    have hk : row.1 = k := by simpa using List.find?_some hr
    have hrow := (entry row).mp (List.mem_of_find?_eq_some hr)
    rw [hk, hv] at hrow
    rw [hr, ← hk, Option.some.inj hrow]
    rfl

/-- the rows of one table written over another -/
theorem getElem?_overlay (top : Map κ ρ) (value : ρ → ν) (m : Map κ ν) (k : κ) :
    (top.toList.foldl (fun m (k, row) => m.insert k (value row)) m)[k]? =
      (top[k]?.map value).or m[k]? := by
  rw [getElem?_foldl_insert Prod.fst (fun row => value row.2), find?_toList (List.reverse_perm _),
    Option.map_map]
  rfl

/-- rows that change the entries of their keys: a key that has no two rows is changed once -/
theorem getElem?_foldl_modify_rows (change : ρ → ν → ν) {rows : List (κ × ρ)}
    (distinct : (rows.map Prod.fst).Nodup)
    (m : Map κ ν) (k : κ) : (rows.foldl (fun m (k, row) => m.modify k (change row)) m)[k]? =
      ((rows.find? fun row => row.1 = k).map Prod.snd).elim m[k]? fun row =>
        m[k]?.map (change row) := by
  induction rows generalizing m with
  | nil => rfl
  | cons row rows ih =>
    obtain ⟨own, others⟩ := List.nodup_cons.mp distinct
    rw [List.foldl_cons, ih others, Std.ExtTreeMap.getElem?_modify, List.find?_cons]
    by_cases h : row.1 = k
    · have later : rows.find? (fun row => row.1 = k) = none :=
        List.find?_eq_none.mpr fun row' hr hk =>
          own (List.mem_map.mpr ⟨row', hr, (of_decide_eq_true hk).trans h.symm⟩)
      simp [h, later]
    · have hc : compare row.1 k ≠ .eq := fun he => h (Std.LawfulEqOrd.eq_of_compare he)
      simp [h, hc]

/-- one table changes the entries of another that have its keys -/
theorem getElem?_foldl_modify (top : Map κ ρ) (change : ρ → ν → ν) (m : Map κ ν) (k : κ) :
    (top.toList.foldl (fun m (k, row) => m.modify k (change row)) m)[k]? =
      top[k]?.elim m[k]? fun row => m[k]?.map (change row) := by
  rw [getElem?_foldl_modify_rows change (nodup_toList top), find?_toList (List.Perm.refl _),
    Option.map_map]
  cases top[k]? <;> rfl

/-! ### a table under other keys -/

omit [DecidableEq κ] in
/-- the entries of a table come in ascending order, so the one that is found from behind is the
greatest -/
theorem find?_reverse_toList {κ' : Type} [DecidableEq κ'] (m : Map κ ν) (other : κ → κ') {k' : κ'}
    {row : κ × ν} (found : m.toList.reverse.find? (fun row => other row.1 = k') = some row) :
    m[row.1]? = some row.2 ∧ other row.1 = k' ∧ ∀ l ∈ m, other l = k' → (compare l row.1).isLE := by
  have entry := List.mem_reverse.mp (List.mem_of_find?_eq_some found)
  obtain ⟨own, behind, front, split, skipped⟩ := List.find?_eq_some_iff_append.mp found
  have order : m.toList.reverse.Pairwise fun a b => compare b.1 a.1 = .lt :=
    List.pairwise_reverse.mpr Std.ExtTreeMap.ordered_keys_toList
  rw [split] at order
  refine ⟨Std.ExtTreeMap.mem_toList_iff_getElem?_eq_some.mp entry, of_decide_eq_true own,
    fun l hl same => ?_⟩
  obtain ⟨x, hx⟩ := Option.isSome_iff_exists.mp (Std.ExtTreeMap.isSome_getElem?_iff_mem.mpr hl)
  have listed : (l, x) ∈ behind ++ row :: front :=
    split ▸ List.mem_reverse.mpr (Std.ExtTreeMap.mem_toList_iff_getElem?_eq_some.mpr hx)
  obtain earlier | here | later := (List.mem_append.trans (or_congr_right List.mem_cons)).mp listed
  · simpa [same] using skipped (l, x) earlier
  · exact here ▸ Std.ReflOrd.isLE_rfl
  · have below := List.rel_of_pairwise_cons (List.pairwise_append.mp order).2.1 later
    simp [below]

omit [DecidableEq κ] in
/-- of several entries under one other key the greatest one counts -/
theorem rekeyed_eq_some {κ' : Type} [Ord κ'] [Std.TransOrd κ'] [Std.LawfulEqOrd κ'] [DecidableEq κ']
    (m : Map κ ν) (other : κ → κ') (k' : κ') (v : ν) :
    (lastRows (fun row => other row.1) Prod.snd m.toList)[k']? = some v ↔
      ∃ k, m[k]? = some v ∧ other k = k' ∧ ∀ l ∈ m, other l = k' → (compare l k).isLE := by
  rw [getElem?_lastRows, Option.map_eq_some_iff]
  constructor
  · rintro ⟨row, found, rfl⟩
    exact ⟨row.1, find?_reverse_toList m other found⟩
  · rintro ⟨k, hk, own, greatest⟩
    have some_row : (m.toList.reverse.find? fun row => other row.1 = k').isSome :=
      List.find?_isSome.mpr ⟨(k, v),
        List.mem_reverse.mpr (Std.ExtTreeMap.mem_toList_iff_getElem?_eq_some.mpr hk),
        decide_eq_true own⟩
    obtain ⟨row, found⟩ := Option.isSome_iff_exists.mp some_row
    obtain ⟨entry, named, last⟩ := find?_reverse_toList m other found
    have mem : ∀ {l x}, m[l]? = some x → l ∈ m := fun h =>
      Std.ExtTreeMap.isSome_getElem?_iff_mem.mp (Option.isSome_of_eq_some h)
    have same : compare row.1 k = .eq :=
      Std.OrientedCmp.isLE_antisymm (greatest row.1 (mem entry) named) (last k (mem hk) own)
    rw [Std.LawfulEqOrd.eq_of_compare same, hk] at entry
    exact ⟨row, found, (Option.some.inj entry).symm⟩

/-! ### sums over a table -/

theorem toList_insert_perm (m : Map κ ν) (k : κ) (v : ν) :
    (m.insert k v).toList.Perm ((k, v) :: m.toList.filter fun row => row.1 ≠ k) := by
  have distinct : ∀ m : Map κ ν, m.toList.Nodup := fun m => (nodup_toList m).of_map
  have added : (k, v) ∉ m.toList.filter fun row => row.1 ≠ k := by simp
  refine (List.perm_ext_iff_of_nodup (distinct _) ?_).mpr fun row => ?_
  · exact List.nodup_cons.mpr ⟨added, (distinct m).filter _⟩
  · obtain ⟨k', v'⟩ := row
    rw [List.mem_cons, List.mem_filter, Std.ExtTreeMap.mem_toList_iff_getElem?_eq_some,
      Std.ExtTreeMap.mem_toList_iff_getElem?_eq_some, Std.ExtTreeMap.getElem?_insert]
    by_cases h : k = k'
    · subst h
      simp [eq_comm]
    · have hc : compare k k' ≠ .eq := fun he => h (Std.LawfulEqOrd.eq_of_compare he)
      simp [hc, Ne.symm h]

/-- a sum over a table, less the value of one key -/
theorem sum_toList (w : ν → Nat) (m : Map κ ν) (k : κ) :
    (m.toList.map fun row => w row.2).sum =
      (m[k]?.map w).getD 0 +
        ((m.toList.filter fun row => row.1 ≠ k).map fun row => w row.2).sum := by
  cases hv : m[k]? with
  | none =>
    have all : (m.toList.filter fun row => row.1 ≠ k) = m.toList := by
      refine List.filter_eq_self.mpr fun row hr => decide_eq_true ?_
      rintro rfl
      rw [Std.ExtTreeMap.mem_toList_iff_getElem?_eq_some.mp hr] at hv
      cases hv
    rw [all]
    exact (Nat.zero_add _).symm
  | some v =>
    have same : m.insert k v = m := by
      apply Std.ExtTreeMap.ext_getElem?
      intro k'
      rw [Std.ExtTreeMap.getElem?_insert]
      split
      next h => rw [← Std.LawfulEqOrd.eq_of_compare h, hv]
      next => rfl
    have parts := toList_insert_perm m k v
    rw [same] at parts
    rw [(parts.map fun row => w row.2).sum_eq]
    rfl

theorem sum_toList_insert (w : ν → Nat) (m : Map κ ν) (k : κ) (v : ν) :
    ((m.insert k v).toList.map fun row => w row.2).sum =
      w v + ((m.toList.filter fun row => row.1 ≠ k).map fun row => w row.2).sum :=
  ((toList_insert_perm m k v).map fun row => w row.2).sum_eq

end Fitting.Map
