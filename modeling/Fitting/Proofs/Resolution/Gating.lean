import Fitting.Proofs.Resolution.Rewire

/-!
# Inactive edges do not count

`Fit.prune` deletes every edge whose source is a module that is not engaged enough.  The resolver
gives the same values with these edges and without them, cycles or not.

* `edges_prune`       what is left on a cell are its active edges;
* `evaluate_prune`    an evaluation looks at the active edges only;
* `value_prune`       a call has the same value and leaves the same cache;
* `answers_prune`     so have all queries, and everything resolved at once.

A cell that has inactive edges only is opened in the one fit and not in the other.  But its
evaluation asks for no source, so no call is ever made while it is open: every open cell has an
active edge.
-/

namespace Fitting.Fit

/-- the fit without its inactive edges -/
def prune (f : Fit) : Fit := f.mapEdges (fun _ edges => edges.filter f.isActive)

section
variable (f : Fit) (catalog : Catalog)

theorem edges_prune (c : Cell) : f.prune.edges c = (f.edges c).filter f.isActive :=
  f.edges_mapEdges (fun _ edges => edges.filter f.isActive) rfl

theorem isActive_prune : f.prune.isActive = f.isActive := f.isActive_mapEdges _

theorem active_prune (c : Cell) :
    (f.prune.edges c).filter f.prune.isActive = (f.edges c).filter f.isActive := by
  rw [isActive_prune, edges_prune, List.filter_filter]
  simp only [Bool.and_self]

theorem baseValue_prune (c : Cell) : f.prune.baseValue catalog c = f.baseValue catalog c :=
  f.baseValue_mapEdges _ catalog c

theorem get?_prune_eq_none {h : Handle} : f.prune.get? h = none ↔ f.get? h = none :=
  f.get?_mapEdges_eq_none _

theorem evaluate_prune {m : Type → Type} [Monad m] (source : Cell → m Float) (c : Cell) :
    f.prune.evaluate catalog source c = f.evaluate catalog source c := by
  unfold evaluate
  rw [active_prune, baseValue_prune]

theorem dialogue_prune (c : Cell) : f.prune.dialogue catalog c = f.dialogue catalog c :=
  f.evaluate_prune catalog Dialogue.question c

/-- a call has the same value and leaves the same cache with the inactive edges and without them;
every open cell has an active edge -/
theorem value_prune (opened : List Cell) (c : Cell) :
    (∀ o ∈ opened, (f.edges o).filter f.isActive ≠ []) →
      ∀ cache, f.prune.value catalog opened c cache = f.value catalog opened c cache := by
  induction opened, c using value_induction (f := f) with
  | step opened c ih =>
    intro ho cache
    obtain ⟨v, after, h⟩ : ∃ v after, f.value catalog opened c cache = (v, after) := ⟨_, _, rfl⟩
    rw [h]
    cases exit_of_value h with
    | cached known => exact value_cached known
    | missing unknown absent =>
      rw [value_missing unknown (f.get?_prune_eq_none.mpr absent), baseValue_prune]
    | unmodified unknown present bare =>
      have present' := mt f.get?_prune_eq_none.mp present
      rw [value_unmodified unknown present' (by rw [edges_prune, bare]; rfl), baseValue_prune]
    | circular unknown modified again =>
      have modified' : f.prune.edges c ≠ [] := by rw [edges_prune]; exact ho c again
      rw [value_circular unknown modified' again, baseValue_prune]
    | @evaluated v after unknown modified fresh run =>
      by_cases bare : (f.edges c).filter f.isActive = []
      · -- here the cell is opened and asks for nothing, there nothing acts on it
        have present' := mt f.get?_prune_eq_none.mp (present_of_edges modified)
        rw [answered_dialogue, evaluate_bare _ bare] at run
        obtain ⟨rfl, rfl⟩ := Prod.mk.inj run
        rw [value_unmodified unknown present' (by rw [edges_prune, bare]), baseValue_prune]
      · have modified' : f.prune.edges c ≠ [] := by rw [edges_prune]; exact bare
        have inside : f.prune.value catalog (c :: opened) = f.value catalog (c :: opened) :=
          funext fun d => funext fun s =>
            ih modified fresh d (List.forall_mem_cons.mpr ⟨bare, ho⟩) s
        exact value_evaluated unknown modified' fresh (by rw [dialogue_prune, inside, run])

theorem value_nil_prune (c : Cell) : f.prune.value catalog [] c = f.value catalog [] c :=
  funext fun cache => f.value_prune catalog [] c (by simp) cache

/-- with the inactive edges and without them, queries have the same answers, and so has everything
resolved after them -/
theorem answers_prune (queries : List Cell) :
    (f.prune.answers catalog queries ∅).1 = (f.answers catalog queries ∅).1 ∧
    (f.prune.resolveRest catalog (f.prune.cacheAfter catalog queries)).1
      = (f.resolveRest catalog (f.cacheAfter catalog queries)).1 ∧
    f.prune.resolveAll catalog = f.resolveAll catalog := by
  have hq : f.prune.answers catalog queries = f.answers catalog queries :=
    answers_congr (f.value_nil_prune catalog) queries
  have hr : f.prune.resolveRest catalog = f.resolveRest catalog :=
    resolveRest_congr (f.value_nil_prune catalog)
  unfold resolveAll cacheAfter
  rw [hq, hr]
  exact ⟨rfl, rfl, rfl⟩

end

end Fitting.Fit
