import Mathlib.Data.Finset.Basic
import Mathlib.Data.Finset.Dedup
import Mathlib.Logic.Relation
import Fitting.Proofs.Resolution.Queries

/-!
# A resolver step by step

`Fit.value` gives the value of a call and the cache after it.  Here the states in between are made
explicit: a `Resolver` has its cache, the set of cells in progress and, for each evaluation that
waits for a source, a `Frame` with the rest of that evaluation.  `Fit.step` makes one step.  A
request for all values is one for each cell of `asked`, as in `resolveRest_snd`.

* `Step`             the steps by name;
* `step_of_eq`       `Fit.step` makes no other steps;
* `Reaches`          any number of steps;
* `Returns`          from the beginning of a call to its return;
* `Returns.unique`   a call has one return at most.
-/

namespace Fitting

open Relation

/-- an evaluation that waits for the value of a source -/
structure Frame where
  cell : Cell
  /-- the source it waits for -/
  asked : Cell
  resume : Float → Dialogue Float

/-- what a resolver does next -/
inductive Control where
  /-- take a request -/
  | idle
  /-- begin the call of a cell -/
  | call (c : Cell)
  /-- go on with the evaluation of a cell -/
  | work (c : Cell) (rest : Dialogue Float)
  /-- return from the call of a cell -/
  | reply (c : Cell) (v : Float)

/-- what a resolver is asked for -/
inductive Request where
  | value (c : Cell)
  /-- the values of all attributes of all items -/
  | all

/-- a resolver between two steps -/
structure Resolver where
  control : Control
  /-- the evaluation that has begun last comes first -/
  frames : List Frame
  cache : Cache
  inProgress : Finset Cell
  pending : List Request
  answers : List Float

namespace Resolver

def start (requests : List Request) : Resolver := ⟨.idle, [], ∅, ∅, requests, []⟩

/-- the calls that have begun and have not returned, the innermost first -/
def openCalls (s : Resolver) : List Cell :=
  match s.control with
  | .idle => s.frames.map Frame.cell
  | .call c | .work c _ | .reply c _ => c :: s.frames.map Frame.cell

/-- the evaluations that have begun and are not finished, the innermost first -/
def evaluations (s : Resolver) : List Cell :=
  match s.control with
  | .work c _ => c :: s.frames.map Frame.cell
  | .idle | .call _ | .reply _ _ => s.frames.map Frame.cell

/-- the resolver returns from a call that began with this number of frames, or from one around it -/
def IsBack (depth : Nat) (s : Resolver) : Prop :=
  s.frames.length ≤ depth ∧ ∃ c v, s.control = .reply c v

theorem IsBack.mono {depth depth' : Nat} {s : Resolver} (h : s.IsBack depth) (hd : depth ≤ depth') :
    s.IsBack depth' :=
  ⟨h.1.trans hd, h.2⟩

end Resolver

/-- the cells that a request asks for -/
def Fit.requested (f : Fit) : Request → List Cell
  | .value c => [c]
  | .all => f.asked

namespace Fit

/-- one step of a resolver; none if there is nothing left to do -/
def step (f : Fit) (catalog : Catalog) (s : Resolver) : Option Resolver :=
  match s.control with
  | .idle =>
    match s.pending with
    | [] => none
    | .value c :: rest => some { s with control := .call c, pending := rest }
    | .all :: rest => some { s with pending := f.asked.map .value ++ rest }
  | .call c =>
    match s.cache[c]? with
    | some known => some { s with control := .reply c known }
    | none =>
      let base := f.baseValue catalog c
      if (f.get? c.item).isNone then some { s with control := .reply c base }
      else if f.edges c = [] then
        some { s with control := .reply c base, cache := s.cache.insert c base }
      else if c ∈ s.inProgress then some { s with control := .reply c base }
      else
        some { s with
          control := .work c (f.dialogue catalog c)
          inProgress := insert c s.inProgress }
  | .work c (.ask d resume) =>
    some { s with control := .call d, frames := ⟨c, d, resume⟩ :: s.frames }
  | .work c (.done v) =>
    some { s with
      control := .reply c v
      cache := s.cache.insert c v
      inProgress := s.inProgress.erase c }
  | .reply _ v =>
    match s.frames with
    | frame :: frames => some { s with control := .work frame.cell (frame.resume v), frames }
    | [] => some { s with control := .idle, answers := s.answers ++ [v] }

/-- the steps by name: `K` are the frames, `m` is the cache, `P` holds the cells in progress, `q`
are the requests left and `r` the answers so far -/
inductive Step (f : Fit) (catalog : Catalog) : Resolver → Resolver → Prop where
  | request {K m P c q r} :
      Step f catalog ⟨.idle, K, m, P, .value c :: q, r⟩ ⟨.call c, K, m, P, q, r⟩
  | spread {K m P q r} :
      Step f catalog ⟨.idle, K, m, P, .all :: q, r⟩
        ⟨.idle, K, m, P, f.asked.map .value ++ q, r⟩
  | cached {K m P c v q r} (known : m[c]? = some v) :
      Step f catalog ⟨.call c, K, m, P, q, r⟩ ⟨.reply c v, K, m, P, q, r⟩
  | missing {K m P c q r} (unknown : m[c]? = none) (absent : f.get? c.item = none) :
      Step f catalog ⟨.call c, K, m, P, q, r⟩ ⟨.reply c (f.baseValue catalog c), K, m, P, q, r⟩
  | unmodified {K m P c q r} (unknown : m[c]? = none) (present : f.get? c.item ≠ none)
      (bare : f.edges c = []) :
      Step f catalog ⟨.call c, K, m, P, q, r⟩
        ⟨.reply c (f.baseValue catalog c), K, m.insert c (f.baseValue catalog c), P, q, r⟩
  | circular {K m P c q r} (unknown : m[c]? = none) (modified : f.edges c ≠ []) (again : c ∈ P) :
      Step f catalog ⟨.call c, K, m, P, q, r⟩ ⟨.reply c (f.baseValue catalog c), K, m, P, q, r⟩
  | opens {K m P c q r} (unknown : m[c]? = none) (modified : f.edges c ≠ []) (fresh : c ∉ P) :
      Step f catalog ⟨.call c, K, m, P, q, r⟩
        ⟨.work c (f.dialogue catalog c), K, m, insert c P, q, r⟩
  | asks {K m P c d resume q r} :
      Step f catalog ⟨.work c (.ask d resume), K, m, P, q, r⟩
        ⟨.call d, ⟨c, d, resume⟩ :: K, m, P, q, r⟩
  | closes {K m P c v q r} :
      Step f catalog ⟨.work c (.done v), K, m, P, q, r⟩
        ⟨.reply c v, K, m.insert c v, P.erase c, q, r⟩
  | resumes {F K m P d v q r} :
      Step f catalog ⟨.reply d v, F :: K, m, P, q, r⟩ ⟨.work F.cell (F.resume v), K, m, P, q, r⟩
  | answers {m P c v q r} :
      Step f catalog ⟨.reply c v, [], m, P, q, r⟩ ⟨.idle, [], m, P, q, r ++ [v]⟩

section
variable {f : Fit} {catalog : Catalog} {s t : Resolver}

theorem Step.eq (h : f.Step catalog s t) : f.step catalog s = some t := by
  cases h with
  | request => rfl
  | spread => rfl
  | cached known => simp only [step, known]
  | missing unknown absent => simp [step, unknown, absent]
  | unmodified unknown present bare => simp [step, unknown, present, bare]
  | circular unknown modified again =>
    simp [step, unknown, present_of_edges modified, modified, again]
  | opens unknown modified fresh =>
    simp [step, unknown, present_of_edges modified, modified, fresh]
  | asks => rfl
  | closes => rfl
  | resumes => rfl
  | answers => rfl

theorem step_of_eq (h : f.step catalog s = some t) : f.Step catalog s t := by
  obtain ⟨control, K, m, P, q, r⟩ := s
  cases control with
  | idle =>
    cases q with
    | nil => cases h
    | cons request q =>
      cases request with
      | value c => cases h; exact .request
      | all => cases h; exact .spread
  | call c =>
    cases unknown : m[c]? with
    | some v =>
      simp only [step, unknown, Option.some.injEq] at h
      exact h ▸ .cached unknown
    | none =>
      simp only [step, unknown, Option.isNone_iff_eq_none] at h
      split at h
      next absent => cases h; exact .missing unknown absent
      next present =>
        split at h
        next bare => cases h; exact .unmodified unknown present bare
        next modified =>
          split at h
          next again => cases h; exact .circular unknown modified again
          next fresh => cases h; exact .opens unknown modified fresh
  | work c rest =>
    cases rest with
    | done v => cases h; exact .closes
    | ask d resume => cases h; exact .asks
  | reply c v =>
    cases K with
    | nil => cases h; exact .answers
    | cons F K => cases h; exact .resumes

end

/-! ### runs -/

def Reaches (f : Fit) (catalog : Catalog) : Resolver → Resolver → Prop :=
  ReflTransGen (fun s t => f.step catalog s = some t)

/-- a step inside a call that began with this number of frames -/
def StepIn (f : Fit) (catalog : Catalog) (depth : Nat) (s t : Resolver) : Prop :=
  ¬ s.IsBack depth ∧ f.step catalog s = some t

/-- `t` is the first state after the beginning `s` of a call in which the call returns -/
def Returns (f : Fit) (catalog : Catalog) (s t : Resolver) : Prop :=
  ReflTransGen (f.StepIn catalog s.frames.length) s t ∧ t.IsBack s.frames.length

section
variable {f : Fit} {catalog : Catalog} {depth depth' : Nat} {s t u : Resolver}

theorem StepIn.mono (h : f.StepIn catalog depth' s t) (hd : depth ≤ depth') :
    f.StepIn catalog depth s t :=
  ⟨fun hb => h.1 (hb.mono hd), h.2⟩

theorem Returns.reaches (h : f.Returns catalog s t) : f.Reaches catalog s t :=
  h.1.lift id fun _ _ hs => hs.2

theorem step_rightUnique (f : Fit) (catalog : Catalog) :
    Relator.RightUnique (fun s t => f.step catalog s = some t) :=
  fun _ _ _ ht hu => Option.some.inj (ht.symm.trans hu)

theorem stepIn_rightUnique (f : Fit) (catalog : Catalog) (depth : Nat) :
    Relator.RightUnique (f.StepIn catalog depth) :=
  fun _ _ _ ht hu => f.step_rightUnique catalog ht.2 hu.2

/-- of two states of one run one comes before the other -/
theorem Reaches.total (ht : f.Reaches catalog s t) (hu : f.Reaches catalog s u) :
    f.Reaches catalog t u ∨ f.Reaches catalog u t :=
  ReflTransGen.total_of_right_unique (f.step_rightUnique catalog) ht hu

theorem eq_of_isBack (back : s.IsBack depth) (h : ReflTransGen (f.StepIn catalog depth) s t) :
    s = t := by
  rcases ReflTransGen.cases_head h with he | ⟨u, hu, -⟩
  · exact he
  · exact absurd back hu.1

theorem Returns.unique (ht : f.Returns catalog s t) (hu : f.Returns catalog s u) : t = u := by
  rcases ReflTransGen.total_of_right_unique (f.stepIn_rightUnique catalog s.frames.length) ht.1 hu.1
    with h | h
  · exact eq_of_isBack ht.2 h
  · exact (eq_of_isBack hu.2 h).symm

end

end Fit

end Fitting
