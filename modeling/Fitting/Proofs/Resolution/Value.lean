import Fitting.Proofs.Resolution.Dialogue

/-!
# The exits of an evaluation

`Fit.value` returns in one of five ways, and `Fit.Exit` names them.  What a call does to the cache
is read off its exits, for the calls inside it by `value_induction`: there are fewer cells left to
open.

* `value_exit`       a call returns by one of the exits;
* `value_extends`    a call only adds entries to the cache;
* `Tidy`             no open cell is cached, and only cells of the fit are;
* `value_tidy`       a call leaves a tidy cache tidy;
* `settled_value`    after a call its cell is settled: it has its value without any work;
* `Settled.extends`  it stays settled when the cache grows.
-/

namespace Fitting

/-- every entry of the first cache is an entry of the second -/
def Cache.Extends (before after : Cache) : Prop :=
  ∀ (c : Cell) (v : Float), before[c]? = some v → after[c]? = some v

namespace Cache.Extends
variable {a b c : Cache}

theorem refl (a : Cache) : a.Extends a := fun _ _ h => h
theorem trans (hab : a.Extends b) (hbc : b.Extends c) : a.Extends c :=
  fun d v h => hbc d v (hab d v h)

theorem insert {d : Cell} (h : a.Extends b) (hd : a[d]? = none) (v : Float) :
    a.Extends (b.insert d v) := by
  intro e w he
  have hne : compare d e ≠ .eq := by
    intro hc
    rw [Std.LawfulEqOrd.eq_of_compare hc, he] at hd
    cases hd
  rw [Std.ExtTreeMap.getElem?_insert, if_neg hne]
  exact h e w he

end Cache.Extends

theorem Cache.getElem?_insert_ne {cache : Cache} {c d : Cell} (h : c ≠ d) (v : Float) :
    (cache.insert c v)[d]? = cache[d]? := by
  rw [Std.ExtTreeMap.getElem?_insert, if_neg]
  exact fun hc => h (Std.LawfulEqOrd.eq_of_compare hc)

namespace Fit
variable {f : Fit} {catalog : Catalog} {opened : List Cell} {c : Cell} {cache : Cache}

theorem edges_eq_nil (h : f.get? c.item = none) : f.edges c = [] := by
  unfold edges
  rw [h]

/-! ### the five exits -/

/-- the value a call returns and the cache after it -/
inductive Exit (f : Fit) (catalog : Catalog) (opened : List Cell) (c : Cell) (cache : Cache) :
    Float → Cache → Prop where
  | cached {v : Float} (known : cache[c]? = some v) : Exit f catalog opened c cache v cache
  /-- there is no such item -/
  | missing (unknown : cache[c]? = none) (absent : f.get? c.item = none) :
      Exit f catalog opened c cache (f.baseValue catalog c) cache
  /-- nothing acts on the cell -/
  | unmodified (unknown : cache[c]? = none) (present : f.get? c.item ≠ none)
      (bare : f.edges c = []) :
      Exit f catalog opened c cache (f.baseValue catalog c)
        (cache.insert c (f.baseValue catalog c))
  /-- the cell is met again while it is open -/
  | circular (unknown : cache[c]? = none) (modified : f.edges c ≠ []) (again : c ∈ opened) :
      Exit f catalog opened c cache (f.baseValue catalog c) cache
  | evaluated {v : Float} {after : Cache} (unknown : cache[c]? = none)
      (modified : f.edges c ≠ []) (fresh : c ∉ opened)
      (run : (f.dialogue catalog c).answered (f.value catalog (c :: opened)) cache = (v, after)) :
      Exit f catalog opened c cache v (after.insert c v)

theorem value_cached {v : Float} (known : cache[c]? = some v) :
    f.value catalog opened c cache = (v, cache) := by
  rw [value, known]

theorem value_missing (unknown : cache[c]? = none) (absent : f.get? c.item = none) :
    f.value catalog opened c cache = (f.baseValue catalog c, cache) := by
  rw [value, unknown]
  simp [absent]

theorem value_circular (unknown : cache[c]? = none) (modified : f.edges c ≠ [])
    (again : c ∈ opened) : f.value catalog opened c cache = (f.baseValue catalog c, cache) := by
  have present : f.get? c.item ≠ none := fun h => modified (edges_eq_nil h)
  rw [value, unknown]
  simp [present, modified, again]

theorem value_unmodified (unknown : cache[c]? = none) (present : f.get? c.item ≠ none)
    (bare : f.edges c = []) : f.value catalog opened c cache
      = (f.baseValue catalog c, cache.insert c (f.baseValue catalog c)) := by
  rw [value, unknown]
  simp [present, bare]

theorem value_evaluated {v : Float} {after : Cache} (unknown : cache[c]? = none)
    (modified : f.edges c ≠ []) (fresh : c ∉ opened)
    (run : (f.dialogue catalog c).answered (f.value catalog (c :: opened)) cache = (v, after)) :
    f.value catalog opened c cache = (v, after.insert c v) := by
  have present : f.get? c.item ≠ none := fun h => modified (edges_eq_nil h)
  have run' : f.evaluate catalog (fun d => f.value catalog (c :: opened) d) c cache
      = (v, after) := by
    rw [← run, answered_dialogue]
  rw [value, unknown]
  simp [present, modified, fresh, run']

theorem value_exit (f : Fit) (catalog : Catalog) (opened : List Cell) (c : Cell) (cache : Cache) :
    f.Exit catalog opened c cache (f.value catalog opened c cache).1
      (f.value catalog opened c cache).2 := by
  cases unknown : cache[c]? with
  | some v =>
    rw [value_cached unknown]
    exact .cached unknown
  | none =>
    by_cases absent : f.get? c.item = none
    · rw [value_missing unknown absent]
      exact .missing unknown absent
    · by_cases bare : f.edges c = []
      · rw [value_unmodified unknown absent bare]
        exact .unmodified unknown absent bare
      · by_cases again : c ∈ opened
        · rw [value_circular unknown bare again]
          exact .circular unknown bare again
        · obtain ⟨v, after, run⟩ : ∃ v after,
              (f.dialogue catalog c).answered (f.value catalog (c :: opened)) cache = (v, after) :=
            ⟨_, _, rfl⟩
          rw [value_evaluated unknown bare again run]
          exact .evaluated unknown bare again run

theorem exit_of_value {v : Float} {after : Cache}
    (h : f.value catalog opened c cache = (v, after)) : f.Exit catalog opened c cache v after := by
  have exit := f.value_exit catalog opened c cache
  rw [h] at exit
  exact exit

/-- what holds of a call if it holds of all calls inside it, holds of every call -/
theorem value_induction {motive : List Cell → Cell → Prop}
    (step : ∀ opened c, (f.edges c ≠ [] → c ∉ opened → ∀ d, motive (c :: opened) d) →
      motive opened c) (opened : List Cell) (c : Cell) : motive opened c :=
  step opened c fun modified fresh d =>
    have := length_unopened_lt f opened c modified fresh
    value_induction step (c :: opened) d
termination_by (f.unopened opened).length

/-! ### what a call does to the cache -/

theorem value_extends (f : Fit) (catalog : Catalog) (opened : List Cell) (c : Cell) :
    ∀ cache : Cache, cache.Extends (f.value catalog opened c cache).2 := by
  induction opened, c using value_induction (f := f) with
  | step opened c ih =>
    intro cache
    obtain ⟨v, after, h⟩ : ∃ v after, f.value catalog opened c cache = (v, after) := ⟨_, _, rfl⟩
    rw [h]
    cases exit_of_value h with
    | cached known => exact .refl cache
    | missing unknown absent => exact .refl cache
    | unmodified unknown present bare => exact (Cache.Extends.refl cache).insert unknown _
    | circular unknown modified again => exact .refl cache
    | evaluated unknown modified fresh run =>
      have hx := (f.dialogue_asks catalog c).preserves (f.value catalog (c :: opened))
        (cache.Extends ·) (fun d _ s hs => hs.trans (ih modified fresh d s)) cache (.refl cache)
      rw [run] at hx
      exact hx.insert unknown _

/-- the cells whose evaluation is open have edges and are not cached, and what is cached is of the
fit -/
structure Tidy (f : Fit) (opened : List Cell) (cache : Cache) : Prop where
  modified : ∀ c ∈ opened, f.edges c ≠ []
  uncached : ∀ c ∈ opened, cache[c]? = none
  present : ∀ (c : Cell) (v : Float), cache[c]? = some v → f.get? c.item ≠ none

theorem tidy_empty (f : Fit) : f.Tidy [] ∅ where
  modified := by simp
  uncached := by simp
  present := by simp

theorem Tidy.open (h : f.Tidy opened cache) (modified : f.edges c ≠ [])
    (unknown : cache[c]? = none) : f.Tidy (c :: opened) cache where
  modified := List.forall_mem_cons.mpr ⟨modified, h.modified⟩
  uncached := List.forall_mem_cons.mpr ⟨unknown, h.uncached⟩
  present := h.present

theorem Tidy.insert (h : f.Tidy opened cache) (present : f.get? c.item ≠ none)
    (fresh : c ∉ opened) (v : Float) : f.Tidy opened (cache.insert c v) where
  modified := h.modified
  uncached := by
    intro d hd
    have hne : c ≠ d := fun hc => fresh (hc ▸ hd)
    rw [Cache.getElem?_insert_ne hne]
    exact h.uncached d hd
  present := by
    intro d w hd
    by_cases hc : c = d
    · exact hc ▸ present
    · rw [Cache.getElem?_insert_ne hc] at hd
      exact h.present d w hd

theorem Tidy.close (h : f.Tidy (c :: opened) cache) : f.Tidy opened cache where
  modified := fun d hd => h.modified d (List.mem_cons_of_mem _ hd)
  uncached := fun d hd => h.uncached d (List.mem_cons_of_mem _ hd)
  present := h.present

theorem present_of_edges (modified : f.edges c ≠ []) : f.get? c.item ≠ none :=
  fun h => modified (edges_eq_nil h)

theorem value_tidy (f : Fit) (catalog : Catalog) (opened : List Cell) (c : Cell) :
    ∀ cache : Cache, f.Tidy opened cache → f.Tidy opened (f.value catalog opened c cache).2 := by
  induction opened, c using value_induction (f := f) with
  | step opened c ih =>
    intro cache ht
    obtain ⟨v, after, h⟩ : ∃ v after, f.value catalog opened c cache = (v, after) := ⟨_, _, rfl⟩
    rw [h]
    cases exit_of_value h with
    | cached known => exact ht
    | missing unknown absent => exact ht
    | unmodified unknown present bare =>
      exact ht.insert present (fun hc => ht.modified c hc bare) _
    | circular unknown modified again => exact ht
    | evaluated unknown modified fresh run =>
      have hx := (f.dialogue_asks catalog c).preserves (f.value catalog (c :: opened))
        (f.Tidy (c :: opened)) (fun d _ s hs => ih modified fresh d s hs) cache
          (ht.open modified unknown)
      rw [run] at hx
      exact hx.close.insert (present_of_edges modified) fresh _

/-! ### the same cell once more -/

/-- how a cell has the value `v` without anything being resolved -/
inductive Settled (f : Fit) (catalog : Catalog) (opened : List Cell) (cache : Cache) (c : Cell) :
    Float → Prop where
  | cached {v : Float} (known : cache[c]? = some v) : Settled f catalog opened cache c v
  | missing (unknown : cache[c]? = none) (absent : f.get? c.item = none) :
      Settled f catalog opened cache c (f.baseValue catalog c)
  | circular (unknown : cache[c]? = none) (modified : f.edges c ≠ []) (again : c ∈ opened) :
      Settled f catalog opened cache c (f.baseValue catalog c)

theorem Settled.value_eq {v : Float} (h : f.Settled catalog opened cache c v) :
    f.value catalog opened c cache = (v, cache) := by
  cases h with
  | cached known => exact value_cached known
  | missing unknown absent => exact value_missing unknown absent
  | circular unknown modified again => exact value_circular unknown modified again

theorem settled_value {v : Float} {after : Cache}
    (h : f.value catalog opened c cache = (v, after)) : f.Settled catalog opened after c v := by
  cases exit_of_value h with
  | cached known => exact .cached known
  | missing unknown absent => exact .missing unknown absent
  | unmodified unknown present bare => exact .cached Std.ExtTreeMap.getElem?_insert_self
  | circular unknown modified again => exact .circular unknown modified again
  | evaluated unknown modified fresh run => exact .cached Std.ExtTreeMap.getElem?_insert_self

theorem Settled.extends {v : Float} {after : Cache} (h : f.Settled catalog opened cache c v)
    (he : cache.Extends after) (ht : f.Tidy opened after) : f.Settled catalog opened after c v := by
  cases h with
  | cached known => exact .cached (he c v known)
  | missing unknown absent =>
    refine .missing ?_ absent
    exact Option.eq_none_iff_forall_ne_some.mpr fun w hw => ht.present c w hw absent
  | circular unknown modified again => exact .circular (ht.uncached c again) modified again

/-! ### fits with the same answers -/

/-- a value depends on which items there are, what acts on their attributes, and what they are at
first -/
theorem value_congr {g : Fit} (absent : ∀ h, g.get? h = none ↔ f.get? h = none)
    (edges : ∀ c, g.edges c = f.edges c) (active : g.isActive = f.isActive)
    (base : ∀ c, g.baseValue catalog c = f.baseValue catalog c) (opened : List Cell) (c : Cell) :
    ∀ cache, g.value catalog opened c cache = f.value catalog opened c cache := by
  have dialogue : ∀ c, g.dialogue catalog c = f.dialogue catalog c := by
    intro c
    unfold Fit.dialogue evaluate
    rw [edges, active, base]
  induction opened, c using value_induction (f := f) with
  | step opened c ih =>
    intro cache
    obtain ⟨v, after, h⟩ : ∃ v after, f.value catalog opened c cache = (v, after) := ⟨_, _, rfl⟩
    rw [h]
    cases exit_of_value h with
    | cached known => exact value_cached known
    | missing unknown gone =>
      rw [value_missing unknown ((absent c.item).mpr gone), base]
    | unmodified unknown present bare =>
      rw [value_unmodified unknown (mt (absent c.item).mp present) ((edges c).trans bare), base]
    | circular unknown modified again =>
      rw [value_circular unknown (edges c ▸ modified) again, base]
    | evaluated unknown modified fresh run =>
      have inside : g.value catalog (c :: opened) = f.value catalog (c :: opened) :=
        funext fun d => funext (ih modified fresh d)
      exact value_evaluated unknown (edges c ▸ modified) fresh (by rw [dialogue, inside, run])

end Fit

end Fitting
