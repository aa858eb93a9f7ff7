import Fitting.Proofs.Resolution.Machine

/-!
# Calls return

The steps of a resolver lead from the beginning of a call to its return, and what they compute in
between is `Fit.value`: the open cells are those of the frames.

* `work_done`        an evaluation comes to its end, if the calls inside it return;
* `returns_value`    a call returns the value that `Fit.value` gives, with the cache it gives;
* `reaches_idle`     a run comes to its end, with the answers that `Fit.answers` gives.
-/

namespace Fitting.Fit

open Relation

section
variable {f : Fit} {catalog : Catalog} {K : List Frame} {P : Finset Cell} {c : Cell}
  {opened : List Cell} {q : List Request} {r : List Float}

theorem stepIn_of_step {depth : Nat} {s t : Resolver} (h : f.Step catalog s t)
    (hs : ∀ c v, s.control ≠ .reply c v) : f.StepIn catalog depth s t :=
  ⟨fun ⟨_, c, v, hc⟩ => hs c v hc, h.eq⟩

theorem work_done
    (calls : ∀ d resume m, f.Returns catalog ⟨.call d, ⟨c, d, resume⟩ :: K, m, P, q, r⟩
      ⟨.reply d (f.value catalog opened d m).1, ⟨c, d, resume⟩ :: K,
        (f.value catalog opened d m).2, P, q, r⟩)
    (x : Dialogue Float) :
    ∀ m, ReflTransGen (f.StepIn catalog K.length) ⟨.work c x, K, m, P, q, r⟩
      ⟨.work c (.done (x.answered (f.value catalog opened) m).1), K,
        (x.answered (f.value catalog opened) m).2, P, q, r⟩ := by
  induction x with
  | done v => exact fun m => .refl
  | ask d resume ih =>
    intro m
    have inside := (calls d resume m).1.lift id fun s t h => h.mono (Nat.le_succ K.length)
    have resumes : f.StepIn catalog K.length
        ⟨.reply d (f.value catalog opened d m).1, ⟨c, d, resume⟩ :: K,
          (f.value catalog opened d m).2, P, q, r⟩
        ⟨.work c (resume (f.value catalog opened d m).1), K, (f.value catalog opened d m).2,
          P, q, r⟩ :=
      ⟨fun h => absurd h.1 (Nat.not_succ_le_self K.length), Step.resumes.eq⟩
    refine .head (stepIn_of_step .asks (by simp)) (inside.trans (.head resumes ?_))
    exact ih (f.value catalog opened d m).1 (f.value catalog opened d m).2

/-- a call returns with the value and the cache that `value` gives; the frames and the cells in
progress are again what they were -/
theorem returns_value (f : Fit) (catalog : Catalog) (opened : List Cell) (c : Cell) :
    ∀ (K : List Frame) (m : Cache) (q : List Request) (r : List Float), K.map Frame.cell = opened →
      f.Returns catalog ⟨.call c, K, m, opened.toFinset, q, r⟩
        ⟨.reply c (f.value catalog opened c m).1, K, (f.value catalog opened c m).2,
          opened.toFinset, q, r⟩ := by
  induction opened, c using value_induction (f := f) with
  | step opened c ih =>
    intro K m q r hK
    refine ⟨?_, Nat.le_refl _, _, _, rfl⟩
    obtain ⟨v, after, h⟩ : ∃ v after, f.value catalog opened c m = (v, after) := ⟨_, _, rfl⟩
    rw [h]
    cases exit_of_value h with
    | cached known => exact .single (stepIn_of_step (.cached known) (by simp))
    | missing unknown absent => exact .single (stepIn_of_step (.missing unknown absent) (by simp))
    | unmodified unknown present bare =>
      exact .single (stepIn_of_step (.unmodified unknown present bare) (by simp))
    | circular unknown modified again =>
      have again' : c ∈ opened.toFinset := List.mem_toFinset.mpr again
      exact .single (stepIn_of_step (.circular unknown modified again') (by simp))
    | @evaluated v after unknown modified fresh run =>
      have fresh' : c ∉ opened.toFinset := fun hc => fresh (List.mem_toFinset.mp hc)
      -- the calls inside are made above one more frame, that of `c`
      have work := work_done (K := K) (q := q) (r := r)
        (fun d resume m => ih modified fresh d (⟨c, d, resume⟩ :: K) m q r (by rw [← hK]; rfl))
        (f.dialogue catalog c) m
      rw [run, List.toFinset_cons] at work
      have close : f.Step catalog ⟨.work c (.done v), K, after, insert c opened.toFinset, q, r⟩
          ⟨.reply c v, K, after.insert c v, (insert c opened.toFinset).erase c, q, r⟩ := .closes
      rw [Finset.erase_insert fresh'] at close
      exact .head (stepIn_of_step (.opens unknown modified fresh') (by simp))
        (work.tail (stepIn_of_step close (by simp)))

/-! ### whole runs -/

theorem reaches_queries (f : Fit) (catalog : Catalog) (cells : List Cell) :
    ∀ (m : Cache) (q : List Request) (r : List Float),
      f.Reaches catalog ⟨.idle, [], m, ∅, cells.map .value ++ q, r⟩
        ⟨.idle, [], (f.answers catalog cells m).2, ∅, q, r ++ (f.answers catalog cells m).1⟩ := by
  induction cells with
  | nil =>
    intro m q r
    rw [answers_nil, List.append_nil]
    exact .refl
  | cons c cells ih =>
    intro m q r
    have call := (f.returns_value catalog [] c [] m (cells.map .value ++ q) r rfl).reaches
    have rest := ih (f.value catalog [] c m).2 q (r ++ [(f.value catalog [] c m).1])
    rw [List.append_assoc, List.singleton_append] at rest
    rw [answers_cons]
    exact .head Step.request.eq (call.trans (.head Step.answers.eq rest))

theorem reaches_idle (f : Fit) (catalog : Catalog) (requests : List Request) :
    ∀ (m : Cache) (r : List Float), f.Reaches catalog ⟨.idle, [], m, ∅, requests, r⟩
      ⟨.idle, [], (f.answers catalog (requests.flatMap f.requested) m).2, ∅, [],
        r ++ (f.answers catalog (requests.flatMap f.requested) m).1⟩ := by
  induction requests with
  | nil =>
    intro m r
    rw [List.flatMap_nil, answers_nil, List.append_nil]
    exact .refl
  | cons request requests ih =>
    intro m r
    rw [List.flatMap_cons, answers_append, ← List.append_assoc]
    refine ReflTransGen.trans ?_ (ih _ _)
    cases request with
    | value c => exact f.reaches_queries catalog [c] m requests r
    | all => exact .head Step.spread.eq (f.reaches_queries catalog f.asked m requests r)

end

end Fitting.Fit
