import Mathlib.Data.Finset.Card
import Mathlib.Data.Finset.Filter
import Fitting.Proofs.Resolution.Returns

/-!
# What every state of a resolver has in common

* `Coherent`           the cells in progress are the open evaluations, each open once and none
                       cached; a call that returns has settled its cell;
* `Step.coherent`      a step keeps a coherent state coherent;
* `Reaches.coherent`   so every state of a run is coherent;
* `resolution_ends`    every call returns, and the calls that are open at one time are at most one
                       more than the cells with edges.
-/

namespace Fitting

/-- each frame waits for the call above it; `c` is the innermost call -/
def Linked : Cell → List Frame → Prop
  | _, [] => True
  | c, F :: K => F.asked = c ∧ Linked F.cell K

/-- the calls that are open are linked by the frames -/
def Resolver.IsLinked (s : Resolver) : Prop :=
  match s.control with
  | .idle => s.frames = []
  | .call c | .work c _ | .reply c _ => Linked c s.frames

namespace Fit

open Relation

/-- what every state of a run has in common -/
structure Coherent (f : Fit) (catalog : Catalog) (s : Resolver) : Prop where
  nodup : s.evaluations.Nodup
  inProgress : s.inProgress = s.evaluations.toFinset
  tidy : f.Tidy s.evaluations s.cache
  linked : s.IsLinked
  settled : ∀ c v, s.control = .reply c v → f.Settled catalog s.evaluations s.cache c v

section
variable {f : Fit} {catalog : Catalog} {s t : Resolver}

theorem coherent_start (f : Fit) (catalog : Catalog) (requests : List Request) :
    f.Coherent catalog (.start requests) where
  nodup := List.nodup_nil
  inProgress := rfl
  tidy := f.tidy_empty
  linked := rfl
  settled := by intro c v h; cases h

theorem Coherent.mem_inProgress (h : f.Coherent catalog s) (c : Cell) :
    c ∈ s.inProgress ↔ c ∈ s.evaluations := by
  rw [h.inProgress, List.mem_toFinset]

theorem Step.coherent (h : f.Step catalog s t) (hs : f.Coherent catalog s) :
    f.Coherent catalog t := by
  cases h with
  | @request K m P c q r =>
    have hK : K = [] := hs.linked
    exact ⟨hs.nodup, hs.inProgress, hs.tidy, hK ▸ trivial, nofun⟩
  | spread => exact ⟨hs.nodup, hs.inProgress, hs.tidy, hs.linked, nofun⟩
  | cached known =>
    exact ⟨hs.nodup, hs.inProgress, hs.tidy, hs.linked,
      by intro d v h; cases h; exact .cached known⟩
  | missing unknown absent =>
    exact ⟨hs.nodup, hs.inProgress, hs.tidy, hs.linked,
      by intro d v h; cases h; exact .missing unknown absent⟩
  | unmodified unknown present bare =>
    refine ⟨hs.nodup, hs.inProgress, ?_, hs.linked, ?_⟩
    · exact hs.tidy.insert present (fun hc => hs.tidy.modified _ hc bare) _
    · intro d v h
      cases h
      exact .cached Std.ExtTreeMap.getElem?_insert_self
  | circular unknown modified again =>
    refine ⟨hs.nodup, hs.inProgress, hs.tidy, hs.linked, ?_⟩
    intro d v h
    cases h
    exact .circular unknown modified ((hs.mem_inProgress _).mp again)
  | opens unknown modified fresh =>
    refine ⟨?_, ?_, hs.tidy.open modified unknown, hs.linked, nofun⟩
    · exact List.nodup_cons.mpr ⟨fun hc => fresh ((hs.mem_inProgress _).mpr hc), hs.nodup⟩
    · exact (congrArg (insert _) hs.inProgress).trans (List.toFinset_cons ..).symm
  | asks =>
    exact ⟨hs.nodup, hs.inProgress, hs.tidy, ⟨rfl, hs.linked⟩, nofun⟩
  | @closes K m P c v q r =>
    obtain ⟨fresh, hnd⟩ := List.nodup_cons.mp hs.nodup
    refine ⟨hnd, ?_, ?_, hs.linked, ?_⟩
    · have hP : P = insert c (K.map Frame.cell).toFinset :=
        hs.inProgress.trans (List.toFinset_cons ..)
      show P.erase c = (K.map Frame.cell).toFinset
      -- `c` is open once, so it is not among the evaluations below
      rw [hP, Finset.erase_insert fun hc => fresh (List.mem_toFinset.mp hc)]
    · have modified : f.edges c ≠ [] := hs.tidy.modified c (List.mem_cons_self ..)
      exact hs.tidy.close.insert (present_of_edges modified) fresh v
    · intro d w h
      cases h
      exact .cached Std.ExtTreeMap.getElem?_insert_self
  | resumes =>
    exact ⟨hs.nodup, hs.inProgress, hs.tidy, hs.linked.2, nofun⟩
  | answers =>
    exact ⟨hs.nodup, hs.inProgress, hs.tidy, rfl, nofun⟩

theorem Reaches.coherent_of (h : f.Reaches catalog s t) (hs : f.Coherent catalog s) :
    f.Coherent catalog t := by
  induction h with
  | refl => exact hs
  | tail _ hstep ih => exact (step_of_eq hstep).coherent ih

theorem Reaches.coherent {requests : List Request} (h : f.Reaches catalog (.start requests) s) :
    f.Coherent catalog s :=
  h.coherent_of (f.coherent_start catalog requests)

/-- a call in a coherent state returns, with the value and the cache that `value` gives -/
theorem Coherent.returns {c : Cell} (h : f.Coherent catalog s) (hc : s.control = .call c) :
    f.Returns catalog s
      { s with
        control := .reply c (f.value catalog s.evaluations c s.cache).1
        cache := (f.value catalog s.evaluations c s.cache).2 } := by
  obtain ⟨control, K, m, P, q, r⟩ := s
  cases hc
  obtain rfl : P = (K.map Frame.cell).toFinset := h.inProgress
  exact f.returns_value catalog (K.map Frame.cell) c K m q r rfl

end

/-! ### how many calls are open -/

/-- the cells that something acts on -/
def modifiedCells (f : Fit) : Finset Cell := f.modified.toFinset

theorem mem_modifiedCells {f : Fit} {c : Cell} : c ∈ f.modifiedCells ↔ f.edges c ≠ [] := by
  rw [modifiedCells, List.mem_toFinset]
  refine ⟨fun h => ?_, mem_modified f c⟩
  simp only [modified, List.mem_flatMap, List.mem_map, List.mem_filter, Prod.exists, mem_entries,
    Std.ExtTreeMap.mem_toList_iff_getElem?_eq_some, Bool.not_eq_true',
    List.isEmpty_eq_false_iff] at h
  obtain ⟨k, item, hi, a, state, ⟨hs, acted⟩, rfl⟩ := h
  simpa only [edges, hi, Item.edges, hs] using acted

theorem length_openCalls_le (s : Resolver) : s.openCalls.length ≤ s.evaluations.length + 1 := by
  obtain ⟨control, K, m, P, q, r⟩ := s
  cases control <;> simp [Resolver.openCalls, Resolver.evaluations]

theorem Coherent.length_evaluations_le {f : Fit} {catalog : Catalog} {s : Resolver}
    (h : f.Coherent catalog s) : s.evaluations.length ≤ f.modifiedCells.card := by
  rw [← List.toFinset_card_of_nodup h.nodup]
  refine Finset.card_le_card fun c hc => ?_
  exact mem_modifiedCells.mpr (h.tidy.modified c (List.mem_toFinset.mp hc))

/-- every run comes to its end and every call in it returns; the calls that are open at one time are
at most one more than the declared cells with edges -/
theorem resolution_ends (f : Fit) (catalog : Catalog) (requests : List Request) :
    (∃ t, f.Reaches catalog (.start requests) t ∧ f.step catalog t = none ∧
      t.answers = (f.answers catalog (requests.flatMap f.requested) ∅).1) ∧
    ∀ s, f.Reaches catalog (.start requests) s →
      (∀ c, s.control = .call c → ∃ t, f.Returns catalog s t) ∧
        s.openCalls.length ≤ f.modifiedCells.card + 1 := by
  refine ⟨⟨_, f.reaches_idle catalog requests ∅ [], rfl, rfl⟩, fun s hs => ⟨?_, ?_⟩⟩
  · exact fun c hc => ⟨_, hs.coherent.returns hc⟩
  · have h := hs.coherent.length_evaluations_le
    have h' := length_openCalls_le s
    omega

/-- a cell that takes its value from itself is called again while it is being evaluated -/
theorem reaches_self_loop : ∃ resume, besideLoop.Reaches .empty (.start [.value looped])
    ⟨.call looped, [⟨looped, looped, resume⟩], ∅, {looped}, [], []⟩ := by
  have modified : besideLoop.edges looped ≠ [] := by decide
  obtain ⟨resume, h⟩ : ∃ resume, besideLoop.dialogue .empty looped = .ask looped resume :=
    ⟨_, rfl⟩
  have opens : besideLoop.Step .empty ⟨.call looped, [], ∅, ∅, [], []⟩
      ⟨.work looped (.ask looped resume), [], ∅, {looped}, [], []⟩ := by
    rw [← h]
    exact .opens rfl modified (Finset.notMem_empty _)
  exact ⟨resume, .head Step.request.eq (.head opens.eq (.single Step.asks.eq))⟩

/-- this second call returns, too, with two calls open -/
theorem resolution_ends_self_loop : ∃ s, besideLoop.Reaches .empty (.start [.value looped]) s ∧
    s.openCalls = [looped, looped] ∧ (∃ t, besideLoop.Returns .empty s t) ∧
    s.openCalls.length ≤ besideLoop.modifiedCells.card + 1 := by
  obtain ⟨resume, hs⟩ := reaches_self_loop
  have h := (resolution_ends besideLoop .empty [.value looped]).2 _ hs
  exact ⟨_, hs, rfl, h.1 _ rfl, h.2⟩

end Fit

end Fitting
