import Mathlib.Data.List.Nodup
import Fitting.Proofs.Aggregate
import Fitting.Proofs.Resolution.Dialogue

/-!
# Which buffs count

Of the edges of one warfare buff only the winner counts: the earliest whose value is no worse than
any other of the buff.  An edge of a buff that is not the winner loses.

* `winner?`, `loses`      the rule, on edges with their positions;
* `exists_winner`         among values that are no NaN every buff has a winner;
* `buffed_counting`       of each buff exactly the winner counts;
* `mem_losers`            the positions dropped from a group are those of its members that lose;
* `collapse_eq`           so `collapse` drops the losing edges and nothing else;
* `counting_renumber`     the rule does not look at the positions themselves, only at their order.
-/

namespace Fitting.Fit

section
variable (value : Cell → Float)

/-- the earliest member of a group that no other is better than -/
def winner? (members : List (Edge × Nat)) : Option (Edge × Nat) :=
  members.find? fun m => members.all fun n =>
    (groupMode members).favours (value m.1.cell) (value n.1.cell)

/-- another edge of the same buff counts in the place of `m` -/
def loses (rivals : List (Edge × Nat)) (m : Edge × Nat) : Bool :=
  match buff? m with
  | some b => decide (winner? value (buffed b rivals) ≠ some m)
  | none => false

/-- the edges that count among their rivals -/
def counting (rivals : List (Edge × Nat)) : List (Edge × Nat) :=
  rivals.filter (fun m => !loses value rivals m)

/-- no edge of a buff has the value NaN -/
def BuffsAreNumbers (edges : List Edge) : Prop :=
  ∀ e ∈ edges, e.dbuff.isSome → (value e.cell).isNaN = false

end

section
variable {value : Cell → Float}

theorem winner?_mem {members : List (Edge × Nat)} {m : Edge × Nat}
    (h : winner? value members = some m) : m ∈ members :=
  List.mem_of_find?_eq_some h

theorem mem_buffed {b : DbuffId} {rivals : List (Edge × Nat)} {m : Edge × Nat} :
    m ∈ buffed b rivals ↔ m ∈ rivals ∧ buff? m = some b := by
  simp [buffed]

theorem loses_of_buff {b : DbuffId} {rivals : List (Edge × Nat)} {m : Edge × Nat}
    (h : buff? m = some b) :
    loses value rivals m = decide (winner? value (buffed b rivals) ≠ some m) := by
  unfold loses
  rw [h]

theorem loses_untagged {rivals : List (Edge × Nat)} {m : Edge × Nat} (h : buff? m = none) :
    loses value rivals m = false := by
  unfold loses
  rw [h]

/-! ### the winner of a group -/

/-- a group has a winner, and all other members are its losers -/
theorem exists_winner {members : List (Edge × Nat)} (nonempty : members ≠ [])
    (numbers : ∀ m ∈ members, (value m.1.cell).isNaN = false) :
    ∃ before m after, members = before ++ m :: after ∧ winner? value members = some m ∧
      losers members (members.map (fun m => value m.1.cell)) = (before ++ after).map Prod.snd := by
  have hnum : ∀ x ∈ members.map (fun m => value m.1.cell), x.isNaN = false := by
    intro x hx
    obtain ⟨m, hm, rfl⟩ := List.mem_map.mp hx
    exact numbers m hm
  obtain ⟨vs, v, ws, he, hs, hbest, hfirst⟩ :=
    (groupMode members).select_earliest hnum (by simpa using nonempty)
  obtain ⟨before, rest, hm, rfl, hrest⟩ := List.map_eq_append_iff.mp he
  obtain ⟨m, after, rfl, rfl, rfl⟩ := List.map_eq_cons_iff.mp hrest
  refine ⟨before, m, after, hm, ?_, ?_⟩
  · refine List.find?_eq_some_iff_append.mpr ⟨?_, before, after, hm, fun a ha => ?_⟩
    · exact List.all_eq_true.mpr fun n hn => hbest _ (List.mem_map_of_mem hn)
    · have hmem : m ∈ members := hm ▸ List.mem_append_right _ (List.mem_cons_self ..)
      rw [Bool.not_eq_true', List.all_eq_false]
      exact ⟨m, hmem, by simpa using hfirst _ (List.mem_map_of_mem ha)⟩
  · unfold losers
    rw [hs, List.length_map, hm]
    simp [List.eraseIdx_append_of_length_le]

theorem BuffsAreNumbers.buffed {rivals : List (Edge × Nat)}
    (numbers : BuffsAreNumbers value (rivals.map Prod.fst)) (b : DbuffId) :
    ∀ m ∈ buffed b rivals, (value m.1.cell).isNaN = false := by
  intro m hm
  obtain ⟨hr, hb⟩ := mem_buffed.mp hm
  refine numbers m.1 (List.mem_map_of_mem hr) ?_
  obtain ⟨tag, ht, _⟩ := Option.map_eq_some_iff.mp hb
  rw [ht]
  rfl

theorem winner?_isSome {rivals : List (Edge × Nat)} {b : DbuffId} (nonempty : buffed b rivals ≠ [])
    (numbers : BuffsAreNumbers value (rivals.map Prod.fst)) :
    ∃ m, winner? value (buffed b rivals) = some m := by
  obtain ⟨_, m, _, _, h, _⟩ := exists_winner nonempty (numbers.buffed b)
  exact ⟨m, h⟩

/-- of each buff exactly the winner counts -/
theorem buffed_counting {rivals : List (Edge × Nat)} (nodup : rivals.Nodup) {b : DbuffId}
    {m : Edge × Nat} (h : winner? value (buffed b rivals) = some m) :
    buffed b (counting value rivals) = [m] := by
  have hm : m ∈ buffed b rivals := winner?_mem h
  have keep : buffed b (counting value rivals)
      = (buffed b rivals).filter (fun n => n = m) := by
    unfold counting buffed
    rw [List.filter_filter, List.filter_filter]
    refine List.filter_congr fun n _ => ?_
    by_cases hb : buff? n = some b
    · rw [loses_of_buff hb, h]
      simp [hb, eq_comm]
    · simp [hb]
  have once : (buffed b rivals).count m = 1 :=
    List.count_eq_one_of_mem (nodup.filter _) hm
  rw [keep, List.filter_eq, once]
  rfl

/-! ### what `collapse` drops -/

theorem nodup_zipIdx (edges : List Edge) : edges.zipIdx.Nodup := by
  refine List.Nodup.of_map Prod.snd ?_
  rw [List.zipIdx_map_snd]
  exact List.nodup_range'

theorem eq_of_position {edges : List Edge} {m n : Edge × Nat} (hm : m ∈ edges.zipIdx)
    (hn : n ∈ edges.zipIdx) (h : m.2 = n.2) : m = n := by
  have hm' := List.mem_zipIdx_iff_getElem?.mp hm
  have hn' := List.mem_zipIdx_iff_getElem?.mp hn
  rw [h, hn'] at hm'
  exact Prod.ext (Option.some.inj hm').symm h

/-- the positions that `collapse` drops -/
def dropped (value : Cell → Float) (edges : List Edge) : List Nat :=
  ((((dbuffGroups edges).toList.map Prod.snd).filter (fun members => 1 < members.length)).map
    (fun members => losers members (members.map (fun m => value m.1.cell)))).flatten

theorem collapse_id (edges : List Edge) : collapse (m := Id) value edges =
    (edges.zipIdx.filter (fun m => !(dropped value edges).contains m.2)).map Prod.fst := by
  have inner : ∀ members : List (Edge × Nat),
      members.mapM (m := Id) (fun m => value m.1.cell) = members.map (fun m => value m.1.cell) :=
    fun members => List.mapM_pure
  have group : ∀ members : List (Edge × Nat),
      (do
        let values ← members.mapM (m := Id) (fun m => value m.1.cell)
        return losers members values)
      = (pure (losers members (members.map (fun m => value m.1.cell))) : Id (List Nat)) :=
    fun members => congrArg (losers members) (inner members)
  have groups : ∀ l : List (List (Edge × Nat)),
      (l.mapM (m := Id) fun members => do
        let values ← members.mapM (fun m => value m.1.cell)
        return losers members values)
      = l.map (fun members => losers members (members.map (fun m => value m.1.cell))) :=
    fun l => (congrArg (fun run => l.mapM (m := Id) run) (funext group)).trans List.mapM_pure
  unfold dropped
  rw [← groups]
  rfl

/-- the dropped positions of a group are those of its members that lose -/
theorem mem_losers {edges : List Edge} (numbers : BuffsAreNumbers value (edges.zipIdx.map Prod.fst))
    {b : DbuffId} (nonempty : buffed b edges.zipIdx ≠ []) {m : Edge × Nat} (hm : m ∈ edges.zipIdx) :
    m.2 ∈ losers (buffed b edges.zipIdx) ((buffed b edges.zipIdx).map (fun m => value m.1.cell)) ↔
      buff? m = some b ∧ loses value edges.zipIdx m := by
  obtain ⟨before, w, after, hw, hwin, hlose⟩ := exists_winner nonempty (numbers.buffed b)
  have member : ∀ n, n ∈ buffed b edges.zipIdx ↔ n = w ∨ n ∈ before ++ after := fun n => by
    rw [hw, List.perm_middle.mem_iff, List.mem_cons]
  rw [hlose]
  constructor
  · intro hl
    obtain ⟨n, hn, hpos⟩ := List.mem_map.mp hl
    obtain ⟨hr, hb⟩ := mem_buffed.mp ((member n).mpr (.inr hn))
    obtain rfl : n = m := eq_of_position hr hm hpos
    -- the winner stands in its group once
    have hnw : w ≠ n := by
      rintro rfl
      have nodup : (buffed b edges.zipIdx).Nodup := (nodup_zipIdx edges).filter _
      rw [hw] at nodup
      exact (List.nodup_middle.mp nodup).notMem hn
    rw [loses_of_buff hb, hwin]
    exact ⟨hb, by simpa using hnw⟩
  · rintro ⟨hb, hl⟩
    rw [loses_of_buff hb, hwin, decide_eq_true_iff] at hl
    rcases (member m).mp (mem_buffed.mpr ⟨hm, hb⟩) with rfl | hmem
    · exact absurd rfl hl
    · exact List.mem_map_of_mem hmem

theorem one_lt_length_of_mem_losers {members : List (Edge × Nat)} (nonempty : members ≠ [])
    (numbers : ∀ m ∈ members, (value m.1.cell).isNaN = false) {position : Nat}
    (h : position ∈ losers members (members.map (fun m => value m.1.cell))) :
    1 < members.length := by
  obtain ⟨before, w, after, hw, -, hlose⟩ := exists_winner nonempty numbers
  rw [hlose] at h
  have hrest := List.length_pos_of_mem h
  rw [hw]
  simp only [List.length_map, List.length_append, List.length_cons] at hrest ⊢
  omega

/-- the dropped positions are those of the losing edges -/
theorem mem_dropped {edges : List Edge} (numbers : BuffsAreNumbers value edges) {m : Edge × Nat}
    (hm : m ∈ edges.zipIdx) : m.2 ∈ dropped value edges ↔ loses value edges.zipIdx m := by
  have hnum : BuffsAreNumbers value (edges.zipIdx.map Prod.fst) := by
    rwa [List.zipIdx_map_fst]
  simp only [dropped, List.mem_flatten, List.mem_map, List.mem_filter]
  constructor
  · rintro ⟨_, ⟨members, ⟨hg, _⟩, rfl⟩, hl⟩
    obtain ⟨b, rfl, hne⟩ := mem_groups.mp (List.mem_map.mpr hg)
    exact ((mem_losers hnum hne hm).mp hl).2
  · intro hl
    cases hb : buff? m with
    | none => rw [loses_untagged hb] at hl; exact absurd hl Bool.false_ne_true
    | some b =>
      have hne : buffed b edges.zipIdx ≠ [] := List.ne_nil_of_mem (mem_buffed.mpr ⟨hm, hb⟩)
      have hmem := (mem_losers hnum hne hm).mpr ⟨hb, hl⟩
      -- a group of one is not looked at, but it has no loser either
      have hlen := one_lt_length_of_mem_losers hne (hnum.buffed b) hmem
      exact ⟨_, ⟨_, ⟨List.mem_map.mp (mem_groups.mpr ⟨b, rfl, hne⟩), decide_eq_true hlen⟩, rfl⟩,
        hmem⟩

/-- `collapse` keeps the edges that count -/
theorem collapse_eq {edges : List Edge} (numbers : BuffsAreNumbers value edges) :
    collapse (m := Id) value edges = (counting value edges.zipIdx).map Prod.fst := by
  rw [collapse_id]
  unfold counting
  refine congrArg (List.map Prod.fst) (List.filter_congr fun m hm => ?_)
  exact congrArg (!·) (Bool.eq_iff_iff.mpr (List.contains_iff_mem.trans (mem_dropped numbers hm)))

/-! ### other positions -/

section
variable {φ : Edge × Nat → Edge × Nat} (keeps : ∀ m, (φ m).1 = m.1)
include keeps

theorem buff?_renumber (m : Edge × Nat) : buff? (φ m) = buff? m := by
  unfold buff?
  rw [keeps]

theorem buffed_map (b : DbuffId) (rivals : List (Edge × Nat)) :
    buffed b (rivals.map φ) = (buffed b rivals).map φ := by
  unfold buffed
  rw [List.filter_map]
  refine congrArg (List.map φ) (List.filter_congr fun m _ => ?_)
  show decide (buff? (φ m) = some b) = _
  rw [buff?_renumber keeps]

theorem groupMode_map (members : List (Edge × Nat)) :
    groupMode (members.map φ) = groupMode members := by
  cases members with
  | nil => rfl
  | cons m members =>
    show ((φ m).1.dbuff.map DbuffTag.mode).getD _ = (m.1.dbuff.map DbuffTag.mode).getD _
    rw [keeps]

theorem winner?_map (members : List (Edge × Nat)) :
    winner? value (members.map φ) = (winner? value members).map φ := by
  unfold winner?
  rw [List.find?_map, groupMode_map keeps]
  refine congrArg (Option.map φ) (congrArg (members.find? ·) (funext fun m => ?_))
  simp only [Function.comp_def, List.all_map, keeps]

theorem loses_map {rivals : List (Edge × Nat)}
    (inj : ∀ m ∈ rivals, ∀ n ∈ rivals, φ m = φ n → m = n) {m : Edge × Nat} (hm : m ∈ rivals) :
    loses value (rivals.map φ) (φ m) = loses value rivals m := by
  cases hb : buff? m with
  | none => rw [loses_untagged hb, loses_untagged ((buff?_renumber keeps m).trans hb)]
  | some b =>
    rw [loses_of_buff hb, loses_of_buff ((buff?_renumber keeps m).trans hb), buffed_map keeps,
      winner?_map keeps]
    refine decide_eq_decide.mpr (not_congr ?_)
    rw [Option.map_eq_some_iff]
    constructor
    · rintro ⟨w, hw, he⟩
      rw [hw, inj w (mem_buffed.mp (winner?_mem hw)).1 m hm he]
    · exact fun hw => ⟨m, hw, rfl⟩

end

/-- an edge with its position among the rivals -/
def renumber (rivals : List (Edge × Nat)) (m : Edge × Nat) : Edge × Nat := (m.1, rivals.idxOf m)

theorem zipIdx_eq_renumber {rivals : List (Edge × Nat)} (nodup : rivals.Nodup) :
    (rivals.map Prod.fst).zipIdx = rivals.map (renumber rivals) := by
  refine List.ext_getElem (by simp) fun i _ h => ?_
  have hi : i < rivals.length := by simpa using h
  simp [renumber, nodup.idxOf_getElem]

/-- which edges count depends on their order only: counted from zero they are the same -/
theorem counting_renumber {rivals : List (Edge × Nat)} (nodup : rivals.Nodup) :
    (counting value (rivals.map Prod.fst).zipIdx).map Prod.fst
      = (counting value rivals).map Prod.fst := by
  have keeps : ∀ m, (renumber rivals m).1 = m.1 := fun _ => rfl
  have inj : ∀ m ∈ rivals, ∀ n ∈ rivals, renumber rivals m = renumber rivals n → m = n :=
    fun m hm n _ h => (List.idxOf_inj hm).mp (congrArg Prod.snd h)
  unfold counting
  rw [zipIdx_eq_renumber nodup, List.filter_map, List.map_map]
  refine congrArg (List.map Prod.fst) (List.filter_congr fun m hm => ?_)
  exact congrArg (!·) (loses_map keeps inj hm)

end

end Fitting.Fit
