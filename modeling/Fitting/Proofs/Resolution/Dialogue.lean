import Fitting.Proofs.Resolution.Groups

/-!
# Evaluations as dialogues

`Fit.evaluate` is written for any way of getting the values of the sources.  Here it is run with
none at all: it stops at each value it asks for, and what is left is a function of the answer.  Such
a `Dialogue` holds all that an evaluation can do, whatever the answers are.

* `Dialogue.answered`         the dialogue held with a way of getting the answers;
* `Fit.answered_dialogue`     held with the values of the sources, the dialogue of a cell is its
                              evaluation;
* `Dialogue.Asks`             which cells a dialogue may ask for, and what its result is then;
* `Fit.dialogue_asks`         the dialogue of a cell asks for the sources of its active edges only;
* `Dialogue.Asks.preserves`   what every answer leaves true, the whole dialogue leaves true.
-/

namespace Fitting

/-- an evaluation that stops at each value it asks for -/
inductive Dialogue (α : Type) where
  | done (result : α)
  | ask (cell : Cell) (resume : Float → Dialogue α)

namespace Dialogue
variable {α β : Type}

/-- the second dialogue begins with the result of the first -/
def andThen : Dialogue α → (α → Dialogue β) → Dialogue β
  | .done a, g => g a
  | .ask c resume, g => .ask c (fun x => (resume x).andThen g)

instance : Monad Dialogue where
  pure := .done
  bind := andThen

theorem done_bind (a : α) (g : α → Dialogue β) : (Dialogue.done a >>= g) = g a := rfl
theorem ask_bind (c : Cell) (resume : Float → Dialogue α) (g : α → Dialogue β) :
    (Dialogue.ask c resume >>= g) = .ask c (fun x => resume x >>= g) := rfl

instance : LawfulMonad Dialogue :=
  LawfulMonad.mk' Dialogue
    (by
      intro α x
      induction x with
      | done a => rfl
      | ask c resume ih => exact congrArg (Dialogue.ask c) (funext ih))
    (by intro α β a g; rfl)
    (by
      intro α β γ x g h
      induction x with
      | done a => rfl
      | ask c resume ih => exact congrArg (Dialogue.ask c) (funext ih))

def question (c : Cell) : Dialogue Float := .ask c .done

/-! ### holding a dialogue -/

/-- the dialogue held with the answers of `source` -/
def answered {m : Type → Type} [Monad m] (source : Cell → m Float) : Dialogue α → m α
  | .done a => pure a
  | .ask c resume => source c >>= fun x => (resume x).answered source

section
variable {m : Type → Type} [Monad m] (source : Cell → m Float)

theorem answered_done (a : α) : (Dialogue.done a).answered source = pure a := rfl
theorem answered_pure (a : α) : (pure a : Dialogue α).answered source = pure a := rfl
theorem answered_ask (c : Cell) (resume : Float → Dialogue α) :
    (Dialogue.ask c resume).answered source
      = source c >>= fun x => (resume x).answered source := rfl

variable [LawfulMonad m]

theorem answered_question (c : Cell) : (question c).answered source = source c := by
  show (source c >>= fun x => pure x) = source c
  rw [bind_pure]

theorem answered_bind (x : Dialogue α) (g : α → Dialogue β) :
    (x >>= g).answered source = x.answered source >>= fun a => (g a).answered source := by
  induction x with
  | done a =>
    rw [done_bind, answered_done, pure_bind]
  | ask c resume ih =>
    rw [ask_bind, answered_ask, answered_ask, bind_assoc]
    exact congrArg (source c >>= ·) (funext ih)

theorem answered_mapM {ι : Type} (l : List ι) (g : ι → Dialogue β) :
    (l.mapM g).answered source = l.mapM (fun i => (g i).answered source) := by
  induction l with
  | nil => rfl
  | cons i l ih =>
    simp only [List.mapM_cons, answered_bind, answered_pure, ih]

end

/-! ### what a dialogue asks for -/

/-- whatever the answers are, only cells in `S` are asked for and the result is in `P` -/
def Asks (S : Cell → Prop) (P : α → Prop) : Dialogue α → Prop
  | .done a => P a
  | .ask c resume => S c ∧ ∀ x, (resume x).Asks S P

section
variable {S : Cell → Prop} {P : α → Prop} {Q : β → Prop}

theorem asks_pure {a : α} (h : P a) : (pure a : Dialogue α).Asks S P := h

theorem asks_question {c : Cell} (h : S c) : (question c).Asks S (fun _ => True) :=
  ⟨h, fun _ => trivial⟩

theorem Asks.bind {x : Dialogue α} {g : α → Dialogue β} (hx : x.Asks S P)
    (hg : ∀ a, P a → (g a).Asks S Q) : (x >>= g).Asks S Q := by
  induction x with
  | done a => exact hg a hx
  | ask c resume ih => exact ⟨hx.1, fun v => ih v (hx.2 v)⟩

theorem asks_mapM {ι : Type} (l : List ι) (g : ι → Dialogue β)
    (h : ∀ i ∈ l, (g i).Asks S (fun _ => True)) : (l.mapM g).Asks S (fun _ => True) := by
  induction l with
  | nil => exact trivial
  | cons i l ih =>
    rw [List.mapM_cons]
    refine (h i (List.mem_cons_self ..)).bind fun b _ => ?_
    exact (ih fun j hj => h j (List.mem_cons_of_mem _ hj)).bind fun bs _ => trivial

variable {σ : Type} (source : Cell → StateM σ Float)

theorem Asks.preserves {x : Dialogue α} (hx : x.Asks S P) (I : σ → Prop)
    (hI : ∀ c, S c → ∀ s, I s → I (source c s).2) (s : σ) (hs : I s) :
    I (x.answered source s).2 := by
  induction x generalizing s with
  | done a => exact hs
  | ask c resume ih => exact ih _ (hx.2 _) _ (hI c hx.1 s hs)

/-- if under `I` each question has the answer that `ρ` gives, the dialogue has the result that it
has with `ρ` -/
theorem Asks.answered_eq {x : Dialogue α} (hx : x.Asks S P) (ρ : Cell → Float) (I : σ → Prop)
    (hI : ∀ c, S c → ∀ s, I s → I (source c s).2)
    (hρ : ∀ c, S c → ∀ s, I s → (source c s).1 = ρ c) (s : σ) (hs : I s) :
    (x.answered source s).1 = (x.answered (m := Id) ρ) := by
  induction x generalizing s with
  | done a => rfl
  | ask c resume ih =>
    show ((resume (source c s).1).answered source (source c s).2).1 = _
    rw [ih _ (hx.2 _) _ (hI c hx.1 s hs), hρ c hx.1 s hs]
    rfl

/-- only the answers to what may be asked for matter -/
theorem Asks.answered_congr {x : Dialogue α} (hx : x.Asks S P) {ρ ρ' : Cell → Float}
    (h : ∀ c, S c → ρ c = ρ' c) : x.answered (m := Id) ρ = x.answered (m := Id) ρ' := by
  induction x with
  | done a => rfl
  | ask c resume ih =>
    show (resume (ρ c)).answered (m := Id) ρ = (resume (ρ' c)).answered (m := Id) ρ'
    rw [h c hx.1]
    exact ih _ (hx.2 _)

end

end Dialogue

/-! ### the dialogue of a cell -/

namespace Fit

/-- the cells that the active edges of a cell take their values from -/
def sources (f : Fit) (c : Cell) : List Cell := ((f.edges c).filter f.isActive).map Edge.cell

/-- the evaluation of a cell as a dialogue -/
def dialogue (f : Fit) (catalog : Catalog) (c : Cell) : Dialogue Float :=
  f.evaluate catalog Dialogue.question c

section
variable {m : Type → Type} [Monad m] [LawfulMonad m] (source : Cell → m Float)

theorem answered_collapse (edges : List Edge) :
    (collapse Dialogue.question edges).answered source = collapse source edges := by
  simp only [collapse, Dialogue.answered_bind, Dialogue.answered_mapM, Dialogue.answered_pure,
    Dialogue.answered_question]

theorem answered_dialogue (f : Fit) (catalog : Catalog) (c : Cell) :
    (f.dialogue catalog c).answered source = f.evaluate catalog source c := by
  simp only [dialogue, evaluate, Dialogue.answered_bind, Dialogue.answered_mapM,
    Dialogue.answered_pure, Dialogue.answered_question, answered_collapse]

theorem collapse_nil : collapse source [] = pure [] := by
  have h : ((dbuffGroups []).toList.map Prod.snd).filter
      (fun members => 1 < members.length) = [] := by
    have : (dbuffGroups []).toList = [] := by
      rw [← List.isEmpty_iff, Std.ExtTreeMap.isEmpty_toList]
      rfl
    rw [this]
    rfl
  unfold collapse
  simp only [h, List.mapM_nil, pure_bind]
  rfl

/-- with the values `ρ` of the sources: the stack of the edges that count -/
theorem evaluate_id (f : Fit) (catalog : Catalog) (ρ : Cell → Float) (c : Cell) :
    f.evaluate (m := Id) catalog ρ c =
      Stack.apply stackingWeight
        ⟨(collapse (m := Id) ρ ((f.edges c).filter f.isActive)).map
          (fun e => ⟨e.operation, ρ e.cell, e.penalized⟩)⟩
        (f.baseValue catalog c) (catalog.highIsGood c.attr) := by
  have h : ∀ l : List Edge,
      (l.mapM (m := Id) fun e => do
        let value ← ρ e.cell
        return (⟨e.operation, value, e.penalized⟩ : Contribution Float))
      = l.map (fun e => ⟨e.operation, ρ e.cell, e.penalized⟩) := fun l => List.mapM_pure
  show Stack.apply stackingWeight ⟨_⟩ _ _ = _
  rw [← h]

/-- with no active edge the stack is empty and the base value stays -/
theorem evaluate_bare {f : Fit} {catalog : Catalog} {c : Cell}
    (bare : (f.edges c).filter f.isActive = []) :
    f.evaluate catalog source c = pure (f.baseValue catalog c) := by
  unfold evaluate
  rw [bare, collapse_nil, pure_bind, List.mapM_nil, pure_bind]
  rfl

end

theorem collapse_asks (edges : List Edge) :
    (collapse Dialogue.question edges).Asks (· ∈ edges.map Edge.cell)
      (fun survivors => ∀ e ∈ survivors, e ∈ edges) := by
  refine (Dialogue.asks_mapM _ _ fun members hg => ?_).bind fun lost _ => ?_
  · have hg' := (List.mem_filter.mp hg).1
    refine (Dialogue.asks_mapM _ _ fun m hm => Dialogue.asks_question ?_).bind fun _ _ => trivial
    exact List.mem_map_of_mem (List.mem_of_getElem? (mem_of_mem_group hg' hm))
  · refine Dialogue.asks_pure fun e he => ?_
    obtain ⟨⟨e', i⟩, hk, rfl⟩ := List.mem_map.mp he
    exact List.mem_of_getElem? (List.mem_zipIdx_iff_getElem?.mp (List.mem_filter.mp hk).1)

theorem dialogue_asks (f : Fit) (catalog : Catalog) (c : Cell) :
    (f.dialogue catalog c).Asks (· ∈ f.sources c) (fun _ => True) := by
  refine (collapse_asks _).bind fun survivors hs => ?_
  refine (Dialogue.asks_mapM _ _ fun e he => ?_).bind fun _ _ => trivial
  exact (Dialogue.asks_question (List.mem_map_of_mem (hs e he))).bind fun _ _ => trivial

end Fit

end Fitting
