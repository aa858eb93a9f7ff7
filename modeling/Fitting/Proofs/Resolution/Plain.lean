import Mathlib.Logic.Relation
import Fitting.Proofs.Resolution.Queries

/-!
# The plain recursion

Off the cycles of the fit the value of a cell can be defined by recursion over its sources alone,
with no cache and no open cells: `Fit.plain`.  The resolver gives the same values there, whatever it
was asked before and wherever else the fit has cycles.

* `offCycles_iff`     a cell is off the cycles exactly if its sources are;
* `plain_eq`          the equation of the recursion;
* `plain_idle`        a cell without sources has its base value;
* `Plain`             what a cache holds of cells off the cycles are their plain values;
* `value_plain`       a call keeps the cache so, and a cell off the cycles gets its plain value;
* `value_eq_plain`    so do all queries, and everything resolved at once.

A cell that is open depends on the one that is called, so a call of a cell off the cycles never
meets an open cell: this is what the induction carries.
-/

namespace Fitting.Fit

open Relation

/-! ### cells off the cycles -/

/-- an active edge of the cell `c` takes its value from the cell `d` -/
def DependsOn (f : Fit) (c d : Cell) : Prop := d ∈ f.sources c

/-- no cycle of active edges can be reached from the cell -/
def OffCycles (f : Fit) (c : Cell) : Prop :=
  ∀ d, ReflTransGen f.DependsOn c d → ¬ TransGen f.DependsOn d d

section
variable {f : Fit} {c d : Cell}

theorem sources_bare (bare : f.edges c = []) : f.sources c = [] := by
  rw [sources, bare]
  rfl

theorem edges_ne_nil_of_source (h : d ∈ f.sources c) : f.edges c ≠ [] := by
  intro bare
  rw [sources_bare bare] at h
  exact List.not_mem_nil h

theorem OffCycles.source (h : f.OffCycles c) (hd : d ∈ f.sources c) : f.OffCycles d :=
  fun e he => h e (ReflTransGen.head hd he)

theorem offCycles_iff : f.OffCycles c ↔ ∀ d ∈ f.sources c, f.OffCycles d := by
  constructor
  · exact fun h d hd => h.source hd
  · intro h e he
    rcases ReflTransGen.cases_head he with rfl | ⟨d, hd, hde⟩
    · intro hc
      obtain ⟨d, hd, hdc⟩ := TransGen.head'_iff.mp hc
      exact h d hd c hdc hc
    · exact h d hd e hde

/-- with `c` opened, all open cells depend on each source of it -/
theorem dependsOn_source {opened : List Cell} (ho : ∀ o ∈ opened, TransGen f.DependsOn o c)
    (hd : d ∈ f.sources c) : ∀ o ∈ c :: opened, TransGen f.DependsOn o d := by
  intro o hm
  rcases List.mem_cons.mp hm with rfl | hm
  · exact .single hd
  · exact (ho o hm).tail hd

/-- the recursion over the sources ends: all cells on the way to `c` are on no way from it -/
theorem OffCycles.acc (opened : List Cell) :
    (∀ o ∈ opened, TransGen f.DependsOn o c) → f.OffCycles c →
      Acc (fun d c => f.DependsOn c d) c := by
  induction opened, c using value_induction (f := f) with
  | step opened c ih =>
    intro ho h
    refine Acc.intro c fun d hd => ?_
    have fresh : c ∉ opened := fun hc => h c .refl (ho c hc)
    exact ih (edges_ne_nil_of_source hd) fresh d (dependsOn_source ho hd) (h.source hd)

end

instance offCyclesOrder (f : Fit) : WellFoundedRelation {c // f.OffCycles c} where
  rel d c := f.DependsOn c.1 d.1
  wf := ⟨fun ⟨_, h⟩ => InvImage.accessible Subtype.val (OffCycles.acc [] (by simp) h)⟩

/-! ### the recursion -/

/-- the value of a cell off the cycles by plain recursion over its sources -/
def plain (f : Fit) (catalog : Catalog) (c : Cell) (h : f.OffCycles c) : Float :=
  match f.get? c.item with
  | none => catalog.default c.attr
  | some _ =>
    f.evaluate (m := Id) catalog
      (fun d =>
        if hd : d ∈ f.sources c then f.plain catalog d (h.source hd) else catalog.default d.attr)
      c
termination_by (⟨c, h⟩ : {c // f.OffCycles c})
decreasing_by exact hd

section
variable {f : Fit} {catalog : Catalog} {opened : List Cell} {c : Cell} {cache : Cache}

theorem plain_missing (h : f.OffCycles c) (absent : f.get? c.item = none) :
    f.plain catalog c h = catalog.default c.attr := by
  rw [plain, absent]

/-- a cell of the fit: its stack, the values of the sources being plain again -/
theorem plain_eq (h : f.OffCycles c) (present : f.get? c.item ≠ none) (ρ : Cell → Float)
    (hρ : ∀ d, (hd : d ∈ f.sources c) → ρ d = f.plain catalog d (h.source hd)) :
    f.plain catalog c h = f.evaluate (m := Id) catalog ρ c := by
  obtain ⟨item, hi⟩ := Option.ne_none_iff_exists'.mp present
  rw [plain, hi]
  simp only
  rw [← answered_dialogue, ← answered_dialogue]
  refine (f.dialogue_asks catalog c).answered_congr fun d hd => ?_
  rw [dif_pos hd, hρ d hd]

theorem baseValue_missing (absent : f.get? c.item = none) :
    f.baseValue catalog c = catalog.default c.attr := by
  unfold baseValue base?
  rw [absent]
  rfl

/-- a cell without sources: its stack is empty, even if inactive edges act on it -/
theorem plain_idle (h : f.OffCycles c) (present : f.get? c.item ≠ none) (idle : f.sources c = []) :
    f.plain catalog c h = f.baseValue catalog c := by
  have inactive : (f.edges c).filter f.isActive = [] := List.map_eq_nil_iff.mp idle
  rw [plain_eq h present (fun d => catalog.default d.attr) (fun d hd => by simp [idle] at hd),
    evaluate_bare _ inactive]
  rfl

/-! ### the resolver gives the plain values -/

/-- what the cache holds of cells off the cycles are their plain values -/
def Plain (f : Fit) (catalog : Catalog) (cache : Cache) : Prop :=
  ∀ c v, (h : f.OffCycles c) → cache[c]? = some v → v = f.plain catalog c h

theorem plain_empty (f : Fit) (catalog : Catalog) : f.Plain catalog ∅ := by
  intro c v h hv
  simp at hv

theorem Plain.insert {v : Float} (hp : f.Plain catalog cache)
    (hv : ∀ h : f.OffCycles c, v = f.plain catalog c h) : f.Plain catalog (cache.insert c v) := by
  intro d w h hw
  by_cases hc : c = d
  · subst hc
    rw [Std.ExtTreeMap.getElem?_insert_self] at hw
    rw [← Option.some.inj hw]
    exact hv h
  · rw [Cache.getElem?_insert_ne hc] at hw
    exact hp d w h hw

/-- if the sources of a cell have their plain values, its evaluation gives its own plain value -/
theorem plain_evaluated (source : Cell → StateM Cache Float)
    (inside : ∀ d ∈ f.sources c, ∀ s, f.Plain catalog s → f.Plain catalog (source d s).2 ∧
      ∀ h : f.OffCycles d, (source d s).1 = f.plain catalog d h)
    (present : f.get? c.item ≠ none) (hp : f.Plain catalog cache) (h : f.OffCycles c) :
    ((f.dialogue catalog c).answered source cache).1 = f.plain catalog c h := by
  let ρ : Cell → Float := fun d =>
    if hd : d ∈ f.sources c then f.plain catalog d (h.source hd) else 0
  have hρ : ∀ d, (hd : d ∈ f.sources c) → ρ d = f.plain catalog d (h.source hd) :=
    fun d hd => dif_pos hd
  have answers : ∀ d ∈ f.sources c, ∀ s, f.Plain catalog s → (source d s).1 = ρ d := by
    intro d hd s hs
    rw [hρ d hd]
    exact (inside d hd s hs).2 _
  rw [plain_eq h present ρ hρ, ← answered_dialogue]
  exact (f.dialogue_asks catalog c).answered_eq source ρ (f.Plain catalog)
    (fun d hd s hs => (inside d hd s hs).1) answers cache hp

/-- a call leaves the cache plain, and a cell off the cycles gets its plain value.  The open cells
depend on the cell that is called -/
theorem value_plain (f : Fit) (catalog : Catalog) (opened : List Cell) (c : Cell) :
    (∀ o ∈ opened, TransGen f.DependsOn o c) → ∀ cache, f.Plain catalog cache →
      f.Plain catalog (f.value catalog opened c cache).2 ∧
      ∀ h : f.OffCycles c, (f.value catalog opened c cache).1 = f.plain catalog c h := by
  induction opened, c using value_induction (f := f) with
  | step opened c ih =>
    intro ho cache hp
    obtain ⟨v, after, hrun⟩ : ∃ v after, f.value catalog opened c cache = (v, after) :=
      ⟨_, _, rfl⟩
    rw [hrun]
    cases exit_of_value hrun with
    | cached known => exact ⟨hp, fun h => hp c v h known⟩
    | missing unknown absent =>
      exact ⟨hp, fun h => by rw [plain_missing h absent, baseValue_missing absent]⟩
    | unmodified unknown present bare =>
      have hv : ∀ h : f.OffCycles c, f.baseValue catalog c = f.plain catalog c h :=
        fun h => (plain_idle h present (sources_bare bare)).symm
      exact ⟨hp.insert hv, hv⟩
    | circular unknown modified again =>
      exact ⟨hp, fun h => absurd (ho c again) (h c .refl)⟩
    | @evaluated v after unknown modified fresh run =>
      -- the sources are called with `c` open, and `c` depends on each of them
      have inside : ∀ d ∈ f.sources c, ∀ s, f.Plain catalog s →
          f.Plain catalog (f.value catalog (c :: opened) d s).2 ∧
          ∀ h : f.OffCycles d, (f.value catalog (c :: opened) d s).1 = f.plain catalog d h :=
        fun d hd s hs => ih modified fresh d (dependsOn_source ho hd) s hs
      have hafter := (f.dialogue_asks catalog c).preserves (f.value catalog (c :: opened))
        (f.Plain catalog) (fun d hd s hs => (inside d hd s hs).1) cache hp
      have hv := plain_evaluated _ inside (present_of_edges modified) hp
      rw [run] at hafter hv
      exact ⟨hafter.insert hv, hv⟩

end

/-- a query has no open cells around it -/
theorem query_plain (f : Fit) (catalog : Catalog) (c : Cell) {cache : Cache}
    (hp : f.Plain catalog cache) : f.Plain catalog (f.value catalog [] c cache).2 ∧
      ∀ h : f.OffCycles c, (f.value catalog [] c cache).1 = f.plain catalog c h :=
  f.value_plain catalog [] c (by simp) cache hp

theorem cacheAfter_plain (f : Fit) (catalog : Catalog) (queries : List Cell) :
    f.Plain catalog (f.cacheAfter catalog queries) :=
  answers_preserves (f.Plain catalog) (fun c _ hp => (f.query_plain catalog c hp).1) queries ∅
    (f.plain_empty catalog)

theorem resolveRest_plain (f : Fit) (catalog : Catalog) {c : Cell} (h : f.OffCycles c)
    (declared : c ∈ f.declared) {cache : Cache} (hp : f.Plain catalog cache) :
    (f.resolveRest catalog cache).1.get? c = some (f.plain catalog c h) := by
  obtain ⟨v, hv⟩ :=
    Option.isSome_iff_exists.mp ((f.isSome_resolveRest_get? catalog cache c).mpr declared)
  obtain ⟨s, hs, rfl⟩ := resolveRest_answer (I := f.Plain catalog)
    (fun c _ hp => (f.query_plain catalog c hp).1) hp hv
  rw [hv, (f.query_plain catalog c hs).2 h]

/-- whatever was asked before, a cell off the cycles has its plain value; and where the cell is
declared, resolving everything gives it that value -/
theorem value_eq_plain (f : Fit) (catalog : Catalog) (queries : List Cell) (c : Cell)
    (h : f.OffCycles c) :
    (f.value catalog [] c (f.cacheAfter catalog queries)).1 = f.plain catalog c h ∧
    (c ∈ f.declared →
      (f.resolveRest catalog (f.cacheAfter catalog queries)).1.get? c
          = some (f.plain catalog c h) ∧
        (f.resolveAll catalog).get? c = some (f.plain catalog c h)) :=
  have hp := f.cacheAfter_plain catalog queries
  ⟨(f.query_plain catalog c hp).2 h, fun declared =>
    ⟨f.resolveRest_plain catalog h declared hp,
      f.resolveRest_plain catalog h declared (f.plain_empty catalog)⟩⟩

/-- the loop leaves the cell beside it off the cycles, also if the loop is asked for first -/
theorem value_eq_plain_beside_loop :
    ¬ besideLoop.OffCycles looped ∧ ∃ h : besideLoop.OffCycles boosted,
      (besideLoop.value .empty [] boosted (besideLoop.cacheAfter .empty [looped])).1
          = besideLoop.plain .empty boosted h ∧
        (besideLoop.resolveAll .empty).get? boosted
          = some (besideLoop.plain .empty boosted h) := by
  have loop : besideLoop.DependsOn looped looped := by
    show looped ∈ besideLoop.sources looped
    decide
  have leaf : besideLoop.OffCycles trained := by
    have hs : besideLoop.sources trained = [] := by decide
    rw [offCycles_iff, hs]
    simp
  have off : besideLoop.OffCycles boosted := by
    have hs : besideLoop.sources boosted = [trained] := by decide
    rw [offCycles_iff, hs]
    simpa using leaf
  have h := value_eq_plain besideLoop .empty [looped] boosted off
  exact ⟨fun hc => hc looped .refl (.single loop), off, h.1, (h.2 (by decide)).2⟩

end Fitting.Fit
