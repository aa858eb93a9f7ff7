import Fitting.Proofs.Resolution.Coherent

/-!
# The same call again

* `Reaches.extends`       in a run entries are added to the cache and none is ever changed;
* `Settled.later`         a settled cell stays settled until the cells in progress change;
* `Step.evaluation`       an evaluation stays where it is among the open ones until its cell is
                          cached;
* `Received.unique`       so all values that the evaluation of a cell gets for one source are the
                          same;
* `Faithful`              what is left of an evaluation has the result that the whole of it has;
* `steady`                all of it for every run.

A cell that is settled because it is open is settled only as long as it is open.  So the values of
one source at two times are compared while the cells in progress are the same, and they are the same
whenever one and the same evaluation is the innermost one.
-/

namespace Fitting.Fit

open Relation

section
variable {f : Fit} {catalog : Catalog} {s t u : Resolver} {c d : Cell} {v w : Float}

/-! ### entries stay -/

theorem Step.extends (h : f.Step catalog s t) (hs : f.Coherent catalog s) :
    s.cache.Extends t.cache := by
  cases h with
  | unmodified unknown present bare => exact (Cache.Extends.refl _).insert unknown _
  | closes =>
    exact (Cache.Extends.refl _).insert (hs.tidy.uncached _ (List.mem_cons_self ..)) _
  | _ => exact .refl _

theorem Reaches.extends (h : f.Reaches catalog s t) (hs : f.Coherent catalog s) :
    s.cache.Extends t.cache := by
  induction h with
  | refl => exact .refl _
  | tail hst hstep ih =>
    exact ih.trans ((step_of_eq hstep).extends (Reaches.coherent_of hst hs))

theorem Coherent.uncached (h : f.Coherent catalog s) (hc : c ∈ s.inProgress) :
    s.cache[c]? = none :=
  h.tidy.uncached c ((h.mem_inProgress c).mp hc)

theorem Coherent.ne_work (h : f.Coherent catalog s) (hc : s.cache[c]? = some v)
    (x : Dialogue Float) : s.control ≠ .work c x := by
  intro hx
  have open' : c ∈ s.evaluations := by
    obtain ⟨control, K, m, P, q, r⟩ := s
    cases hx
    exact List.mem_cons_self ..
  rw [h.tidy.uncached c open'] at hc
  cases hc

/-! ### settled cells -/

theorem Settled.later (h : f.Settled catalog s.evaluations s.cache c v)
    (hs : f.Coherent catalog s) (ht : f.Coherent catalog t) (he : s.cache.Extends t.cache)
    (hP : t.inProgress = s.inProgress) : f.Settled catalog t.evaluations t.cache c v := by
  refine Settled.extends ?_ he ht.tidy
  cases h with
  | cached known => exact .cached known
  | missing unknown absent => exact .missing unknown absent
  | circular unknown modified again =>
    refine .circular unknown modified ?_
    rw [← ht.mem_inProgress, hP, hs.mem_inProgress]
    exact again

/-- the call of a settled cell returns at once and changes nothing -/
theorem Settled.step_eq (h : f.Settled catalog s.evaluations s.cache c v)
    (hs : f.Coherent catalog s) :
    f.step catalog { s with control := .call c } = some { s with control := .reply c v } := by
  cases h with
  | cached known => exact (Step.cached known).eq
  | missing unknown absent => exact (Step.missing unknown absent).eq
  | circular unknown modified again =>
    exact (Step.circular unknown modified ((hs.mem_inProgress c).mpr again)).eq

theorem Settled.unique {opened : List Cell} {cache : Cache}
    (h : f.Settled catalog opened cache c v) (h' : f.Settled catalog opened cache c w) : v = w :=
  congrArg Prod.fst (h.value_eq.symm.trans h'.value_eq)

theorem Coherent.settled_of_inProgress (h : f.Coherent catalog s) (hc : c ∈ s.inProgress) :
    f.Settled catalog s.evaluations s.cache c (f.baseValue catalog c) :=
  have again := (h.mem_inProgress c).mp hc
  .circular (h.uncached hc) (h.tidy.modified c again) again

/-- after a call, whatever is called then while the same cells are open, the call has the same value
again and leaves the cache alone -/
theorem value_again {opened : List Cell} {cache : Cache} (ht : f.Tidy opened cache) (c : Cell)
    (others : List Cell) :
    f.value catalog opened c
        (others.mapM (f.value catalog opened) (f.value catalog opened c cache).2).2 =
      ((f.value catalog opened c cache).1,
        (others.mapM (f.value catalog opened) (f.value catalog opened c cache).2).2) := by
  have hset : f.Settled catalog opened (f.value catalog opened c cache).2 c
      (f.value catalog opened c cache).1 := settled_value rfl
  have hkeep := mapM_preserves (f.value catalog opened)
    (fun after => f.Tidy opened after ∧ (f.value catalog opened c cache).2.Extends after)
    (fun d after h => ⟨f.value_tidy catalog opened d after h.1,
      h.2.trans (f.value_extends catalog opened d after)⟩)
    others (f.value catalog opened c cache).2 ⟨f.value_tidy catalog opened c cache ht, .refl _⟩
  exact (hset.extends hkeep.2 hkeep.1).value_eq

/-! ### the values one evaluation gets -/

theorem Step.evaluation (h : f.Step catalog s t) {l : List Cell} (hs : (c :: l) <:+ s.evaluations) :
    (∃ v, t.cache[c]? = some v) ∨ (c :: l) <:+ t.evaluations := by
  cases h with
  | opens unknown modified fresh => exact .inr (hs.trans (List.suffix_cons ..))
  | closes =>
    rcases List.suffix_cons_iff.mp hs with he | hs
    · cases he
      exact .inl ⟨_, Std.ExtTreeMap.getElem?_insert_self⟩
    · exact .inr hs
  | _ => exact .inr hs

theorem Reaches.evaluation (h : f.Reaches catalog s t) (hs : f.Coherent catalog s) {l : List Cell}
    (hl : (c :: l) <:+ s.evaluations) :
    (∃ v, t.cache[c]? = some v) ∨ (c :: l) <:+ t.evaluations := by
  induction h with
  | refl => exact .inr hl
  | tail hst hstep ih =>
    rcases ih with ⟨v, hv⟩ | ih
    · exact .inl ⟨v, (step_of_eq hstep).extends (Reaches.coherent_of hst hs) c v hv⟩
    · exact (step_of_eq hstep).evaluation ih

/-- the innermost evaluation is of one cell at two times: the cells in progress are the same -/
theorem Reaches.inProgress_eq (h : f.Reaches catalog s t) (hs : f.Coherent catalog s)
    {l l' : List Cell} (hl : s.evaluations = c :: l) (hl' : t.evaluations = c :: l') :
    t.inProgress = s.inProgress := by
  have ht := Reaches.coherent_of h hs
  have hnd := ht.nodup
  rw [hl'] at hnd
  rw [ht.inProgress, hs.inProgress, hl, hl']
  -- the evaluation of `c` has not come to its end in between, or `c` would be cached
  rcases h.evaluation hs (l := l) (by rw [hl]) with ⟨v, hv⟩ | hsuf
  · have hnone := ht.tidy.uncached c (by rw [hl']; exact List.mem_cons_self ..)
    rw [hnone] at hv
    cases hv
  · rw [hl'] at hsuf
    rcases List.suffix_cons_iff.mp hsuf with he | hsuf
    · rw [he]
    · exact absurd (hsuf.subset (List.mem_cons_self ..)) (List.nodup_cons.mp hnd).1

/-- in the run of these requests an evaluation of `c` gets the value `v` for its source `d` -/
def Received (f : Fit) (catalog : Catalog) (requests : List Request) (c d : Cell) (v : Float) :
    Prop :=
  ∃ s, f.Reaches catalog (.start requests) s ∧ s.control = .reply d v ∧
    (s.frames.head?).map Frame.cell = some c

theorem evaluations_of_reply (hs : s.control = .reply d v)
    (hF : (s.frames.head?).map Frame.cell = some c) : ∃ l, s.evaluations = c :: l := by
  obtain ⟨control, K, m, P, q, r⟩ := s
  cases hs
  cases K with
  | nil => cases hF
  | cons F K => cases hF; exact ⟨K.map Frame.cell, rfl⟩

theorem Received.unique {requests : List Request} (hv : f.Received catalog requests c d v)
    (hw : f.Received catalog requests c d w) : v = w := by
  obtain ⟨s, hs, hsv, hsF⟩ := hv
  obtain ⟨t, ht, htw, htF⟩ := hw
  have hset := hs.coherent.settled d v hsv
  have hset' := ht.coherent.settled d w htw
  obtain ⟨l, hl⟩ := evaluations_of_reply hsv hsF
  obtain ⟨l', hl'⟩ := evaluations_of_reply htw htF
  -- both values are those of a settled cell, and the later state still settles the earlier value
  rcases hs.total ht with h | h
  · have hP := h.inProgress_eq hs.coherent hl hl'
    exact (hset.later hs.coherent ht.coherent (h.extends hs.coherent) hP).unique hset'
  · have hP := h.inProgress_eq ht.coherent hl' hl
    exact hset.unique (hset'.later ht.coherent hs.coherent (h.extends ht.coherent) hP)

/-! ### the result of an evaluation -/

/-- with the values `ρ` of the sources, what is left of each open evaluation has the result that the
whole of it has -/
structure Faithful (f : Fit) (catalog : Catalog) (ρ : Cell → Cell → Float) (s : Resolver) :
    Prop where
  working : ∀ c x, s.control = .work c x →
    x.answered (m := Id) (ρ c) = f.evaluate (m := Id) catalog (ρ c) c
  waiting : ∀ F ∈ s.frames, (F.resume (ρ F.cell F.asked)).answered (m := Id) (ρ F.cell)
    = f.evaluate (m := Id) catalog (ρ F.cell) F.cell

variable {ρ : Cell → Cell → Float}

theorem faithful_start (f : Fit) (catalog : Catalog) (ρ : Cell → Cell → Float)
    (requests : List Request) : f.Faithful catalog ρ (.start requests) where
  working := by intro c x h; cases h
  waiting := by intro F hF; cases hF

theorem Step.faithful (h : f.Step catalog s t) (hs : f.Faithful catalog ρ s) (linked : s.IsLinked)
    (hρ : ∀ c d v, s.control = .reply d v → (s.frames.head?).map Frame.cell = some c → v = ρ c d) :
    f.Faithful catalog ρ t := by
  cases h with
  | opens unknown modified fresh =>
    refine ⟨fun c x hx => ?_, hs.waiting⟩
    cases hx
    exact answered_dialogue ..
  | @asks K m P c d resume q r =>
    refine ⟨nofun, List.forall_mem_cons.mpr ⟨?_, hs.waiting⟩⟩
    exact hs.working c (.ask d resume) rfl
  | @resumes F K m P d v q r =>
    refine ⟨fun c x hx => ?_, (List.forall_mem_cons.mp hs.waiting).2⟩
    cases hx
    -- the frame waits for the very source that replies
    have hd : F.asked = d := linked.1
    rw [hρ F.cell d v rfl rfl, ← hd]
    exact (List.forall_mem_cons.mp hs.waiting).1
  | _ => exact ⟨nofun, hs.waiting⟩

theorem exists_sources (f : Fit) (catalog : Catalog) (requests : List Request) :
    ∃ ρ : Cell → Cell → Float, ∀ c d v, f.Received catalog requests c d v → v = ρ c d := by
  have h : ∀ c d, ∃ x, ∀ v, f.Received catalog requests c d v → v = x := by
    intro c d
    by_cases hx : ∃ x, f.Received catalog requests c d x
    · obtain ⟨x, hx⟩ := hx
      exact ⟨x, fun v hv => hv.unique hx⟩
    · exact ⟨0, fun v hv => absurd ⟨v, hv⟩ hx⟩
  choose ρ hρ using h
  exact ⟨ρ, hρ⟩

theorem Reaches.faithful {requests : List Request} (h : f.Reaches catalog (.start requests) s)
    (hρ : ∀ c d v, f.Received catalog requests c d v → v = ρ c d) : f.Faithful catalog ρ s := by
  induction h with
  | refl => exact f.faithful_start catalog ρ requests
  | @tail s t hs hstep ih =>
    refine (step_of_eq hstep).faithful ih (Reaches.coherent hs).linked ?_
    exact fun c d v hv hF => hρ c d v ⟨s, hs, hv, hF⟩

end

/-! ### whole runs -/

/-- what holds in the run of a resolver with these requests, inside of calls and between them -/
structure Steady (f : Fit) (catalog : Catalog) (requests : List Request) : Prop where
  /-- no cell is in progress and cached -/
  disjoint : ∀ s, f.Reaches catalog (.start requests) s →
    ∀ c ∈ s.inProgress, s.cache[c]? = none
  /-- the cells in progress are those whose evaluation is open, each is open once -/
  open_iff : ∀ s, f.Reaches catalog (.start requests) s →
    s.evaluations.Nodup ∧ ∀ c, c ∈ s.inProgress ↔ c ∈ s.evaluations
  /-- entries of the cache are added and never changed -/
  writeOnce : ∀ s t, f.Reaches catalog (.start requests) s → f.Reaches catalog s t →
    s.cache.Extends t.cache
  /-- a call leaves the cells in progress as it found them and only adds entries; its value is that
  of `Fit.value` -/
  restored : ∀ s t c, f.Reaches catalog (.start requests) s → s.control = .call c →
    f.Returns catalog s t →
      t.inProgress = s.inProgress ∧ s.cache.Extends t.cache ∧
        t.control = .reply c (f.value catalog s.evaluations c s.cache).1 ∧
        t.cache = (f.value catalog s.evaluations c s.cache).2
  /-- an evaluation that comes to its end is not begun again -/
  onceDone : ∀ s t u c v, f.Reaches catalog (.start requests) s → s.control = .work c (.done v) →
    f.step catalog s = some t → f.Reaches catalog t u → ∀ x, u.control ≠ .work c x
  /-- the call of a cell in progress returns its base value at once -/
  circular : ∀ s c, f.Reaches catalog (.start requests) s → c ∈ s.inProgress →
    f.step catalog { s with control := .call c }
      = some { s with control := .reply c (f.baseValue catalog c) }
  /-- after a call has returned, the same call, made while the same cells are in progress, returns
  the same value at once and changes nothing -/
  repeated : ∀ s t u c v, f.Reaches catalog (.start requests) s → s.control = .call c →
    f.Returns catalog s t → t.control = .reply c v → f.Reaches catalog t u →
    u.inProgress = s.inProgress →
      f.step catalog { u with control := .call c } = some { u with control := .reply c v }
  /-- so it does after any other calls that might have been made in between -/
  repeatedAfter : ∀ s c, f.Reaches catalog (.start requests) s → ∀ others : List Cell,
    f.value catalog s.evaluations c
        (others.mapM (f.value catalog s.evaluations)
          (f.value catalog s.evaluations c s.cache).2).2 =
      ((f.value catalog s.evaluations c s.cache).1,
        (others.mapM (f.value catalog s.evaluations)
          (f.value catalog s.evaluations c s.cache).2).2)
  /-- the evaluation of a cell `c` gets one value `ρ c d` for its source `d`, whenever it asks for
  it.  These values select the edges that count, and each of these counts with the value it was
  selected by -/
  oneValue : ∃ ρ : Cell → Cell → Float,
    (∀ c d v, f.Received catalog requests c d v → v = ρ c d) ∧
    ∀ s c v, f.Reaches catalog (.start requests) s → s.control = .work c (.done v) →
      v = Stack.apply stackingWeight
        ⟨(collapse (m := Id) (ρ c) ((f.edges c).filter f.isActive)).map
          (fun e => ⟨e.operation, ρ c e.cell, e.penalized⟩)⟩
        (f.baseValue catalog c) (catalog.highIsGood c.attr)

theorem onceDone_of_coherent {f : Fit} {catalog : Catalog} {s t u : Resolver} {c : Cell} {v : Float}
    (hs : f.Coherent catalog s) (hc : s.control = .work c (.done v))
    (hst : f.step catalog s = some t) (htu : f.Reaches catalog t u) (x : Dialogue Float) :
    u.control ≠ .work c x := by
  have ht := (step_of_eq hst).coherent hs
  have hv : t.cache[c]? = some v := by
    cases step_of_eq hst <;> cases hc
    exact Std.ExtTreeMap.getElem?_insert_self
  exact (Reaches.coherent_of htu ht).ne_work (htu.extends ht c v hv) x

theorem restored_of_coherent {f : Fit} {catalog : Catalog} {s t : Resolver} {c : Cell}
    (hs : f.Coherent catalog s) (hc : s.control = .call c) (h : f.Returns catalog s t) :
    t.inProgress = s.inProgress ∧ s.cache.Extends t.cache ∧
      t.control = .reply c (f.value catalog s.evaluations c s.cache).1 ∧
      t.cache = (f.value catalog s.evaluations c s.cache).2 := by
  obtain rfl := h.unique (hs.returns hc)
  exact ⟨rfl, f.value_extends catalog s.evaluations c s.cache, rfl, rfl⟩

theorem repeated_of_coherent {f : Fit} {catalog : Catalog} {s t u : Resolver} {c : Cell} {v : Float}
    (hs : f.Coherent catalog s) (hc : s.control = .call c) (h : f.Returns catalog s t)
    (hv : t.control = .reply c v) (htu : f.Reaches catalog t u)
    (hP : u.inProgress = s.inProgress) :
    f.step catalog { u with control := .call c } = some { u with control := .reply c v } := by
  have ht := Reaches.coherent_of h.reaches hs
  have hu := Reaches.coherent_of htu ht
  have hPt : u.inProgress = t.inProgress := hP.trans (restored_of_coherent hs hc h).1.symm
  exact ((ht.settled c v hv).later ht hu (htu.extends ht) hPt).step_eq hu

/-- the run of a resolver is steady, whatever it is asked for -/
theorem steady (f : Fit) (catalog : Catalog) (requests : List Request) :
    f.Steady catalog requests where
  disjoint s hs c hc := hs.coherent.uncached hc
  open_iff s hs := ⟨hs.coherent.nodup, hs.coherent.mem_inProgress⟩
  writeOnce s t hs hst := hst.extends hs.coherent
  restored s t c hs hc h := restored_of_coherent hs.coherent hc h
  onceDone s t u c v hs hc hst htu x := onceDone_of_coherent hs.coherent hc hst htu x
  circular s c hs hc := (hs.coherent.settled_of_inProgress hc).step_eq hs.coherent
  repeated s t u c v hs hc h hv htu hP := repeated_of_coherent hs.coherent hc h hv htu hP
  repeatedAfter s c hs others := value_again hs.coherent.tidy c others
  oneValue := by
    obtain ⟨ρ, hρ⟩ := f.exists_sources catalog requests
    refine ⟨ρ, hρ, fun s c v hs hc => ?_⟩
    rw [← evaluate_id]
    exact (hs.faithful hρ).working c (.done v) hc

/-- a cell that takes its value from itself is called while it is in progress, and has its base
value then -/
theorem steady_self_loop : ∃ s, besideLoop.Reaches .empty (.start [.value looped]) s ∧
    s.control = .call looped ∧ looped ∈ s.inProgress ∧
    besideLoop.step .empty s
      = some { s with control := .reply looped (besideLoop.baseValue .empty looped) } := by
  obtain ⟨resume, hs⟩ := reaches_self_loop
  have again : looped ∈ ({looped} : Finset Cell) := Finset.mem_singleton_self _
  exact ⟨_, hs, rfl, again, (steady besideLoop .empty [.value looped]).circular _ _ hs again⟩

end Fitting.Fit
