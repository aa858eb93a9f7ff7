import Fitting.Proofs.Resolution.Plain
import Fitting.Proofs.Resolution.Rewire
import Fitting.Proofs.Resolution.Winners

/-!
# Duplicate buffs resolve as if only the winners existed

`Fit.dropLosers` deletes every edge that loses against another edge of its warfare buff.  In a fit
without cycles this changes no value.

* `active_dropLosers`      what is left on a cell are its inactive edges and the edges that count;
* `evaluate_dropLosers`    among what is left nothing loses, so an evaluation is the same;
* `plain_dropLosers`       so are all values, by induction along the sources;
* `collapse_resolved`      at any time a run collapses the edges of a cell by the resolved values;
* `duplicates_collapse`    of each buff exactly the winner counts, and the losers might as well not
                           exist.
-/

namespace Fitting.Fit

open Relation

/-- no cycle of active edges -/
def Acyclic (f : Fit) : Prop := ∀ c, ¬ TransGen f.DependsOn c c

theorem Acyclic.offCycles {f : Fit} (h : f.Acyclic) (c : Cell) : f.OffCycles c := fun d _ => h d

/-- a fit has no cycle if nothing acts on the sources -/
theorem acyclic_of_sources {f : Fit} (bare : ∀ c ∈ f.modified, ∀ d ∈ f.sources c, f.edges d = []) :
    f.Acyclic := by
  have last : ∀ {c}, f.edges c = [] → f.OffCycles c :=
    fun h => offCycles_iff.mpr fun d hd => absurd h (edges_ne_nil_of_source hd)
  intro c
  by_cases h : f.edges c = []
  · exact last h c .refl
  · exact offCycles_iff.mpr (fun d hd => last (bare c (mem_modified f c h) d hd)) c .refl

/-- the active edges on a cell, in the order they were attached -/
def active (f : Fit) (c : Cell) : List Edge := (f.edges c).filter f.isActive

/-- the active edges with their positions among all edges -/
def rivals (f : Fit) (edges : List Edge) : List (Edge × Nat) :=
  edges.zipIdx.filter (fun m => f.isActive m.1)

/-- the fit without the edges that lose, given the values of the sources -/
def dropLosers (f : Fit) (value : Cell → Float) : Fit :=
  f.mapEdges fun _ edges =>
    (edges.zipIdx.filter fun m => !(f.isActive m.1 && loses value (f.rivals edges) m)).map Prod.fst

/-- the value a new resolver gives a cell -/
def resolved (f : Fit) (catalog : Catalog) (c : Cell) : Float := (f.value catalog [] c ∅).1

section
variable (f : Fit)

theorem rivals_map_fst (edges : List Edge) :
    (f.rivals edges).map Prod.fst = edges.filter f.isActive := by
  unfold rivals
  have h := List.filter_map (f := Prod.fst) (p := f.isActive) (l := edges.zipIdx)
  rw [List.zipIdx_map_fst] at h
  exact h.symm

theorem nodup_rivals (edges : List Edge) : (f.rivals edges).Nodup :=
  (nodup_zipIdx edges).filter _

variable (value : Cell → Float)

theorem active_dropLosers (c : Cell) : (f.dropLosers value).active c =
    (counting value (f.rivals (f.edges c))).map Prod.fst := by
  unfold active dropLosers
  rw [isActive_mapEdges, edges_mapEdges _ _ rfl, List.filter_map, List.filter_filter]
  unfold counting rivals
  rw [List.filter_filter]
  refine congrArg (List.map Prod.fst) (List.filter_congr fun m _ => ?_)
  cases h : f.isActive m.1 <;> simp [h]

/-- the active edges that are left are those that count -/
theorem active_dropLosers_eq_collapse {c : Cell} (numbers : BuffsAreNumbers value (f.active c)) :
    (f.dropLosers value).active c = collapse (m := Id) value (f.active c) := by
  rw [collapse_eq numbers, active_dropLosers, ← counting_renumber (f.nodup_rivals _),
    rivals_map_fst]
  rfl

end

/-- edges of which no two are of one buff all count -/
theorem collapse_eq_self {value : Cell → Float} {edges : List Edge}
    (single : ∀ b, (buffed b edges.zipIdx).length ≤ 1) :
    collapse (m := Id) value edges = edges := by
  have none : dropped value edges = [] := by
    have hg : ((dbuffGroups edges).toList.map Prod.snd).filter (fun ms => 1 < ms.length) = [] := by
      refine List.filter_eq_nil_iff.mpr fun members hm => ?_
      obtain ⟨b, rfl, _⟩ := mem_groups.mp hm
      simpa using single b
    unfold dropped
    rw [hg]
    rfl
  rw [collapse_id, none]
  simp

theorem buffed_map_fst (b : DbuffId) (rivals : List (Edge × Nat)) : (buffed b rivals).map Prod.fst =
    (rivals.map Prod.fst).filter (fun e => e.dbuff.map DbuffTag.dbuff = some b) :=
  (List.filter_map (f := Prod.fst)
    (p := fun e : Edge => decide (e.dbuff.map DbuffTag.dbuff = some b)) (l := rivals)).symm

theorem length_buffed_zipIdx (b : DbuffId) (rivals : List (Edge × Nat)) :
    (buffed b (rivals.map Prod.fst).zipIdx).length = (buffed b rivals).length := by
  have h : (buffed b (rivals.map Prod.fst).zipIdx).map Prod.fst =
      (buffed b rivals).map Prod.fst := by
    rw [buffed_map_fst, buffed_map_fst, List.zipIdx_map_fst]
  simpa using congrArg List.length h

/-- among edges that count no two are of one buff -/
theorem length_buffed_counting {value : Cell → Float} {rivals : List (Edge × Nat)}
    (nodup : rivals.Nodup) (numbers : BuffsAreNumbers value (rivals.map Prod.fst)) (b : DbuffId) :
    (buffed b (counting value rivals)).length ≤ 1 := by
  by_cases hb : buffed b rivals = []
  · have hsub : (buffed b (counting value rivals)).Sublist (buffed b rivals) :=
      List.filter_sublist.filter _
    have := hsub.length_le
    simp only [hb, List.length_nil] at this
    omega
  · obtain ⟨m, hm⟩ := winner?_isSome hb numbers
    rw [buffed_counting nodup hm]
    exact Nat.le_refl 1

section
variable {f : Fit} {catalog : Catalog} {value : Cell → Float}

/-- what is left collapses to itself, so the stack of the cell is the same -/
theorem evaluate_dropLosers {c : Cell} (numbers : BuffsAreNumbers value (f.active c)) :
    (f.dropLosers value).evaluate (m := Id) catalog value c
      = f.evaluate (m := Id) catalog value c := by
  have hleft := f.active_dropLosers_eq_collapse value numbers
  have hself : collapse (m := Id) value ((f.dropLosers value).active c)
      = (f.dropLosers value).active c := by
    refine collapse_eq_self fun b => ?_
    rw [active_dropLosers, length_buffed_zipIdx]
    refine length_buffed_counting (f.nodup_rivals _) ?_ b
    rw [rivals_map_fst]
    exact numbers
  unfold active at hleft hself
  rw [evaluate_id, evaluate_id, hself, hleft]
  unfold dropLosers
  rw [baseValue_mapEdges]

theorem sources_dropLosers {c d : Cell} (h : d ∈ (f.dropLosers value).sources c) :
    d ∈ f.sources c := by
  obtain ⟨e, he, rfl⟩ := List.mem_map.mp h
  have he' : e ∈ (f.dropLosers value).active c := he
  rw [active_dropLosers] at he'
  obtain ⟨m, hm, rfl⟩ := List.mem_map.mp he'
  have hr : m.1 ∈ (f.rivals (f.edges c)).map Prod.fst :=
    List.mem_map_of_mem (List.mem_filter.mp hm).1
  rw [rivals_map_fst] at hr
  exact List.mem_map_of_mem hr

theorem Acyclic.dropLosers (h : f.Acyclic) (value : Cell → Float) :
    (f.dropLosers value).Acyclic := by
  have fewer : (f.dropLosers value).DependsOn ≤ f.DependsOn := fun _ _ hd => sources_dropLosers hd
  exact fun c hc => h c (TransGen.mono fewer c c hc)

theorem get?_dropLosers_eq_none (value : Cell → Float) {h : Handle} :
    (f.dropLosers value).get? h = none ↔ f.get? h = none :=
  f.get?_mapEdges_eq_none _

theorem resolved_eq_plain {c : Cell} (h : f.OffCycles c) :
    f.resolved catalog c = f.plain catalog c h :=
  (f.query_plain catalog c (f.plain_empty catalog)).2 h

/-- every value is the same without the losers: the sources of a cell come before it -/
theorem plain_dropLosers (acyclic : f.Acyclic)
    (numbers : ∀ c, BuffsAreNumbers (f.resolved catalog) (f.active c)) (c : Cell) :
    ∀ h h', (f.dropLosers (f.resolved catalog)).plain catalog c h = f.plain catalog c h' := by
  have hacc : Acc (fun d c => f.DependsOn c d) c := OffCycles.acc [] (by simp) (acyclic.offCycles c)
  induction hacc with
  | intro c _ ih =>
    intro h h'
    by_cases absent : f.get? c.item = none
    · rw [plain_missing h' absent, plain_missing h ((get?_dropLosers_eq_none _).mpr absent)]
    · have present := mt (get?_dropLosers_eq_none (f.resolved catalog)).mp absent
      rw [plain_eq h' absent (f.resolved catalog) fun d _ => resolved_eq_plain _,
        plain_eq h present (f.resolved catalog) fun d hd => ?_, evaluate_dropLosers (numbers c)]
      -- what is left as a source was one before
      rw [resolved_eq_plain (acyclic.offCycles d)]
      exact (ih d (sources_dropLosers hd) _ _).symm

/-! ### everything resolved at once -/

theorem resolveAll_dropLosers (acyclic : f.Acyclic)
    (numbers : ∀ c, BuffsAreNumbers (f.resolved catalog) (f.active c)) :
    (f.dropLosers (f.resolved catalog)).resolveAll catalog = f.resolveAll catalog := by
  have acyclic' := acyclic.dropLosers (f.resolved catalog)
  refine Values.ext_get? (fun h => ?_) fun c => ?_
  · exact (mem_resolveRest ..).trans ((mem_byId_mapEdges ..).trans (mem_resolveRest ..).symm)
  · by_cases declared : c ∈ f.declared
    · have declared' : c ∈ (f.dropLosers (f.resolved catalog)).declared :=
        (mem_declared_mapEdges ..).mpr declared
      unfold resolveAll
      rw [resolveRest_plain f catalog (acyclic.offCycles c) declared (f.plain_empty catalog),
        resolveRest_plain _ catalog (acyclic'.offCycles c) declared' (plain_empty _ catalog),
        plain_dropLosers acyclic numbers]
    · have declared' : c ∉ (f.dropLosers (f.resolved catalog)).declared :=
        mt (mem_declared_mapEdges ..).mp declared
      rw [Option.not_isSome_iff_eq_none.mp (mt (isSome_resolveAll_get? ..).mp declared),
        Option.not_isSome_iff_eq_none.mp (mt (isSome_resolveAll_get? ..).mp declared')]

/-! ### what counts in a run -/

/-- a run collapses the active edges of a cell by the resolved values of their sources, at any time:
the cells that are open depend on it and the cache holds plain values -/
theorem collapse_resolved (acyclic : f.Acyclic) (c : Cell) {outer : List Cell}
    (chain : ∀ o ∈ outer, TransGen f.DependsOn o c) {cache : Cache}
    (plain : f.Plain catalog cache) :
    (collapse (f.value catalog (c :: outer)) (f.active c) cache).1
      = collapse (m := Id) (f.resolved catalog) (f.active c) := by
  have inside : ∀ d ∈ f.sources c, ∀ s, f.Plain catalog s →
      f.Plain catalog (f.value catalog (c :: outer) d s).2 ∧
      (f.value catalog (c :: outer) d s).1 = f.resolved catalog d := by
    intro d hd s hs
    obtain ⟨hp, hv⟩ := f.value_plain catalog (c :: outer) d (dependsOn_source chain hd) s hs
    exact ⟨hp, (hv (acyclic.offCycles d)).trans (resolved_eq_plain _).symm⟩
  rw [← answered_collapse (f.value catalog (c :: outer)),
    ← answered_collapse (m := Id) (f.resolved catalog)]
  exact (collapse_asks (f.active c)).answered_eq _ (f.resolved catalog) (f.Plain catalog)
    (fun d hd s hs => (inside d hd s hs).1) (fun d hd s hs => (inside d hd s hs).2) cache plain

theorem resolved_bare {c : Cell} (present : f.get? c.item ≠ none) (bare : f.edges c = []) :
    f.resolved catalog c = f.baseValue catalog c :=
  congrArg Prod.fst (value_unmodified rfl present bare)

end

/-- of the active edges on a cell all count that are of no buff, and of each buff exactly its
winner, in the order they were attached; and everything resolves as if no other edge of a buff
existed -/
theorem duplicates_collapse (f : Fit) (catalog : Catalog) (acyclic : f.Acyclic)
    (numbers : ∀ c, BuffsAreNumbers (f.resolved catalog) (f.active c)) :
    (∀ c, ∃ kept : List (Edge × Nat), kept.Sublist (f.active c).zipIdx ∧
      (∀ m ∈ (f.active c).zipIdx, buff? m = none → m ∈ kept) ∧
      (∀ b, buffed b (f.active c).zipIdx ≠ [] → ∃ m,
        winner? (f.resolved catalog) (buffed b (f.active c).zipIdx) = some m ∧
        buffed b kept = [m]) ∧
      ∀ outer cache, (∀ o ∈ outer, TransGen f.DependsOn o c) → f.Plain catalog cache →
        (collapse (f.value catalog (c :: outer)) (f.active c) cache).1 = kept.map Prod.fst) ∧
    (f.dropLosers (f.resolved catalog)).resolveAll catalog = f.resolveAll catalog := by
  refine ⟨fun c => ?_, resolveAll_dropLosers acyclic numbers⟩
  have hnum : BuffsAreNumbers (f.resolved catalog) ((f.active c).zipIdx.map Prod.fst) := by
    rw [List.zipIdx_map_fst]
    exact numbers c
  refine ⟨counting (f.resolved catalog) (f.active c).zipIdx, List.filter_sublist, ?_, ?_, ?_⟩
  · intro m hm untagged
    exact List.mem_filter.mpr ⟨hm, by rw [loses_untagged untagged]; rfl⟩
  · intro b hb
    obtain ⟨m, hm⟩ := winner?_isSome hb hnum
    exact ⟨m, hm, buffed_counting (nodup_zipIdx _) hm⟩
  · intro outer cache chain plain
    rw [collapse_resolved acyclic c chain plain, collapse_eq (numbers c)]

/-! ### two buffs of one kind -/

/-- an edge of the warfare buff 1, of which the smallest value counts -/
def buffing (c : Cell) : Edge := { adding c with dbuff := some ⟨⟨1⟩, .minimum⟩ }

def highBurst : Cell := ⟨pilot, ⟨2⟩⟩
def lowBurst : Cell := ⟨pilot, ⟨3⟩⟩

/-- the hull has a buff twice, and an edge of its own between.  The smaller value is not the one of
larger magnitude. -/
def twoBursts : Fit :=
  bare (itemOf .hull [(⟨1⟩, ⟨1.0, [buffing highBurst, adding highBurst, buffing lowBurst]⟩)])
    (itemOf .pilot [(⟨2⟩, ⟨30.0, []⟩), (⟨3⟩, ⟨-10.0, []⟩)])

theorem twoBursts_edges {c : Cell} (h : twoBursts.edges c ≠ []) : c = ⟨hull, ⟨1⟩⟩ := by
  have hm : c ∈ twoBursts.modified := mem_modified _ c h
  have only : twoBursts.modified = [⟨hull, ⟨1⟩⟩] := by decide
  simpa [only] using hm

theorem acyclic_twoBursts : twoBursts.Acyclic := acyclic_of_sources (by decide)

theorem twoBursts_high : twoBursts.resolved .empty highBurst = 30.0 :=
  resolved_bare (by decide) (by decide)

theorem twoBursts_low : twoBursts.resolved .empty lowBurst = -10.0 :=
  resolved_bare (by decide) (by decide)

theorem twoBursts_active :
    twoBursts.active ⟨hull, ⟨1⟩⟩ = [buffing highBurst, adding highBurst, buffing lowBurst] := by
  decide

theorem numbers_twoBursts (c : Cell) :
    BuffsAreNumbers (twoBursts.resolved .empty) (twoBursts.active c) := by
  by_cases h : twoBursts.edges c = []
  · have none : twoBursts.active c = [] := by rw [active, h]; rfl
    rw [none]
    exact fun e he => absurd he List.not_mem_nil
  · rw [twoBursts_edges h, twoBursts_active]
    intro e he _
    have hv : twoBursts.resolved .empty e.cell = 30.0 ∨
        twoBursts.resolved .empty e.cell = -10.0 := by
      simp only [List.mem_cons, List.not_mem_nil, or_false] at he
      rcases he with rfl | rfl | rfl
      · exact .inl twoBursts_high
      · exact .inl twoBursts_high
      · exact .inr twoBursts_low
    rcases hv with hv | hv <;> rw [hv] <;> decide

/-- the buff of the smaller value counts -/
theorem duplicates_collapse_twoBursts :
    twoBursts.Acyclic ∧ (∀ c, BuffsAreNumbers (twoBursts.resolved .empty) (twoBursts.active c)) ∧
    (∃ kept : List (Edge × Nat), (adding highBurst, 1) ∈ kept ∧
      buffed ⟨1⟩ kept = [(buffing lowBurst, 2)]) ∧
    (twoBursts.dropLosers (twoBursts.resolved .empty)).resolveAll .empty
      = twoBursts.resolveAll .empty := by
  obtain ⟨survivors, resolves⟩ :=
    duplicates_collapse twoBursts .empty acyclic_twoBursts numbers_twoBursts
  obtain ⟨kept, _, untagged, tagged, _⟩ := survivors ⟨hull, ⟨1⟩⟩
  rw [twoBursts_active] at untagged tagged
  obtain ⟨m, hw, hk⟩ := tagged ⟨1⟩ (by decide)
  have group : buffed ⟨1⟩ [buffing highBurst, adding highBurst, buffing lowBurst].zipIdx
      = [(buffing highBurst, 0), (buffing lowBurst, 2)] := by decide
  have high : twoBursts.resolved .empty (buffing highBurst).cell = 30.0 := twoBursts_high
  have low : twoBursts.resolved .empty (buffing lowBurst).cell = -10.0 := twoBursts_low
  have worse : AggregateMode.favours .minimum 30.0 (-10.0) = false := by decide
  have best : AggregateMode.favours .minimum (-10.0) 30.0 = true ∧
      AggregateMode.favours .minimum (-10.0) (-10.0) = true := by decide
  have mode : groupMode [(buffing highBurst, 0), (buffing lowBurst, 2)] = .minimum := rfl
  rw [group] at hw
  have hm : (buffing lowBurst, 2) = m := by
    simpa [winner?, mode, high, low, worse, best] using hw
  exact ⟨acyclic_twoBursts, numbers_twoBursts, ⟨kept, untagged _ (by decide) rfl, hm ▸ hk⟩,
    resolves⟩

end Fitting.Fit
