import Fitting.Proofs.Json.Literal

/-!
# Which values are written alike

What is no finite number is written as null, and this is all that the text of a value leaves open.
A text is told from its start: first the kind of the value by its first character, then the value
itself, and what is left.

* `printed`               a value with null in place of what is no finite number: `write_printed`,
                          `legible_printed`;
* `Legible`               all numbers are finite;
* `joined_told`, `bracketed_told`   items on lines of their own, given that each item is told;
* `Legible.told`          by induction a legible value is told from its text, whatever follows;
* `render_eq_iff`         so two values have one text only if they are printed as one.
-/

namespace Fitting.Json

/-! ### what is printed -/

mutual

/-- a value with null in place of what is no finite number -/
def printed : Json → Json
  | .null => .null
  | .bool b => .bool b
  | .integer i => .integer i
  | .decimal x => ((Double.finite? x).map .decimal).getD .null
  | .text s => .text s
  | .array vs => .array (printedItems vs)
  | .object ms => .object (printedMembers ms)

def printedItems : List Json → List Json
  | [] => []
  | v :: vs => v.printed :: printedItems vs

def printedMembers : List (String × Json) → List (String × Json)
  | [] => []
  | (name, v) :: ms => (name, v.printed) :: printedMembers ms

end

theorem printedItems_eq (vs : List Json) : printedItems vs = vs.map printed := by
  induction vs with
  | nil => rfl
  | cons v vs ih => rw [printedItems, ih, List.map_cons]

theorem printedMembers_eq (ms : List (String × Json)) :
    printedMembers ms = ms.map fun m => (m.1, m.2.printed) := by
  induction ms with
  | nil => rfl
  | cons m ms ih => rw [printedMembers, ih, List.map_cons]

@[simp] theorem printed_array (vs : List Json) :
    (Json.array vs).printed = .array (vs.map printed) := by
  rw [printed, printedItems_eq]

@[simp] theorem printed_object (ms : List (String × Json)) :
    (Json.object ms).printed = .object (ms.map fun m => (m.1, m.2.printed)) := by
  rw [printed, printedMembers_eq]

theorem numberText_eq_null {x : Float} (h : Double.finite? x = none) : numberText x = "null" := by
  unfold numberText
  unfold Double.finite? at h
  cases parts : Double.ofFloat x with
  | finite => simp only [parts, reduceCtorEq] at h
  | _ => rfl

mutual

theorem write_printed : ∀ (v : Json) (d : Nat), write d v.printed = write d v
  | .null, d | .bool _, d | .integer _, d | .text _, d => rfl
  | .decimal x, d => by
    cases h : Double.finite? x with
    | none => simp only [printed, h, Option.map_none, Option.getD_none, write, numberText_eq_null h]
    | some y =>
      obtain ⟨rfl, -⟩ := Double.finite?_eq_some_iff.mp h
      simp only [printed, h, Option.map_some, Option.getD_some]
  | .array [], d => rfl
  | .array (v :: vs), d => by
    simp only [printed, printedItems, write, write_printed v, writeItems_printed vs]
  | .object [], d => rfl
  | .object ((name, v) :: ms), d => by
    simp only [printed, printedMembers, write, write_printed v, writeMembers_printed ms]

theorem writeItems_printed :
    ∀ (vs : List Json) (d : Nat), writeItems d (printedItems vs) = writeItems d vs
  | [], d => rfl
  | v :: vs, d => by simp only [printedItems, writeItems, write_printed v, writeItems_printed vs]

theorem writeMembers_printed : ∀ (ms : List (String × Json)) (d : Nat),
    writeMembers d (printedMembers ms) = writeMembers d ms
  | [], d => rfl
  | (name, v) :: ms, d => by simp only [printedMembers, writeMembers, write_printed v,
      writeMembers_printed ms]

end

/-- all numbers are finite -/
inductive Legible : Json → Prop where
  | null : Legible .null
  | bool (b : Bool) : Legible (.bool b)
  | integer (i : Int) : Legible (.integer i)
  | decimal {x : Float} {negative : Bool} {m : Nat} {e : Int}
      (parts : Double.ofFloat x = .finite negative m e) :
      Legible (.decimal x)
  | text (s : String) : Legible (.text s)
  | array {vs : List Json} (h : ∀ v ∈ vs, Legible v) : Legible (.array vs)
  | object {ms : List (String × Json)} (h : ∀ m ∈ ms, Legible m.2) : Legible (.object ms)

mutual

theorem legible_printed : ∀ v : Json, Legible v.printed
  | .null => .null
  | .bool b => .bool b
  | .integer i => .integer i
  | .text s => .text s
  | .decimal x => by
    rw [printed]
    cases h : Double.finite? x with
    | none => exact .null
    | some y =>
      obtain ⟨rfl, negative, m, e, parts⟩ := Double.finite?_eq_some_iff.mp h
      exact .decimal parts
  | .array vs => .array (legible_printedItems vs)
  | .object ms => .object (legible_printedMembers ms)

theorem legible_printedItems : ∀ vs : List Json, ∀ v ∈ printedItems vs, Legible v
  | [] => fun _ h => nomatch h
  | v :: vs => List.forall_mem_cons.mpr ⟨legible_printed v, legible_printedItems vs⟩

theorem legible_printedMembers : ∀ ms : List (String × Json), ∀ m ∈ printedMembers ms, Legible m.2
  | [] => fun _ h => nomatch h
  | (_, v) :: ms => List.forall_mem_cons.mpr ⟨legible_printed v, legible_printedMembers ms⟩

end

/-! ### the first character -/

/-- the kind of a value that is written with this first character -/
def opening (c : Char) : String :=
  match c with
  | 'n' => "null"
  | 't' | 'f' => "a boolean"
  | '"' => "a string"
  | '[' => "an array"
  | '\x7b' => "an object"
  | _ => "a number"

theorem opening_digit {c : Char} (digit : c.isDigit = true) : opening c = "a number" := by
  unfold opening
  split <;> first | rfl | cases digit

theorem NumberText.opening {v : Json} {t : List Char} (h : NumberText v t) :
    ∃ c t', t = c :: t' ∧ Json.opening c = "a number" := by
  obtain @⟨negative, _, _, t, text, -⟩ := h
  cases negative with
  | true => exact ⟨'-', t, rfl, rfl⟩
  | false =>
    obtain ⟨d, t', rfl, digit⟩ := text.head
    exact ⟨d, t', rfl, opening_digit digit⟩

/-! ### items on lines of their own -/

theorem toList_newLine (d : Nat) : (newLine d).toList = '\n' :: List.replicate (2 * d) ' ' := by
  simp only [newLine, String.toList_append, String.toList_ofList]
  rfl

theorem exists_newLine (d : Nat) (t : List Char) : ∃ t', (newLine d).toList ++ t = '\n' :: t' := by
  rw [toList_newLine]
  exact ⟨_, rfl⟩

section
variable {α : Type} (text : α → List Char) (others : List α → List Char)

/-- items between brackets, each on a line of its own; `others` writes those after the first -/
def bracketLines (opener close : Char) (d : Nat) : List α → List Char
  | [] => [opener, close]
  | a :: as => opener :: (text a ++ (others as ++ ((newLine d).toList ++ [close])))

variable {text others} (nil : others [] = [])
  (cons : ∀ a as, others (a :: as) = ',' :: (text a ++ others as))
include nil cons

theorem closed_others (as : List α) (r : List Char) : Closed (others as ++ '\n' :: r) := by
  cases as with
  | nil =>
    rw [nil]
    exact closed_cons rfl r
  | cons a as =>
    rw [cons]
    exact closed_cons rfl _

/-- each item is told from its text, so all of them are: a comma or a line end comes after it -/
theorem joined_told {as as' : List α} {r r' : List Char}
    (told : ∀ a ∈ as, ∀ a' ∈ as', ∀ r r', Closed r → Closed r' → text a ++ r = text a' ++ r' →
      a = a' ∧ r = r')
    (same : others as ++ '\n' :: r = others as' ++ '\n' :: r') : as = as' ∧ r = r' := by
  induction as generalizing as' with
  | nil =>
    cases as' with
    | nil =>
      rw [nil] at same
      exact ⟨rfl, (List.cons.inj same).2⟩
    | cons a' as' =>
      rw [nil, cons] at same
      cases (List.cons.inj same).1
  | cons a as ih =>
    cases as' with
    | nil =>
      -- a comma is no line end
      rw [nil, cons] at same
      cases (List.cons.inj same).1
    | cons a' as' =>
      rw [cons, cons, List.cons_append, List.cons_append, List.append_assoc,
        List.append_assoc] at same
      obtain ⟨rfl, rest⟩ := told a List.mem_cons_self a' List.mem_cons_self _ _
        (closed_others nil cons as r) (closed_others nil cons as' r') (List.cons.inj same).2
      obtain ⟨rfl, after⟩ :=
        ih (fun b hb b' hb' => told b (List.mem_cons_of_mem _ hb) b' (List.mem_cons_of_mem _ hb'))
        rest
      exact ⟨rfl, after⟩

/-- so are the items between two brackets, of which an empty list has no lines -/
theorem bracketed_told {opener close : Char} {d : Nat} {as as' : List α} {r r' : List Char}
    (bracket : close ≠ '\n') (line : ∀ a, ∃ t, text a = '\n' :: t)
    (told : ∀ a ∈ as, ∀ a' ∈ as', ∀ r r', Closed r → Closed r' → text a ++ r = text a' ++ r' →
      a = a' ∧ r = r')
    (same : bracketLines text others opener close d as ++ r =
      bracketLines text others opener close d as' ++ r') :
    as = as' ∧ r = r' := by
  cases as with
  | nil =>
    cases as' with
    | nil => exact ⟨rfl, (List.cons.inj (List.cons.inj same).2).2⟩
    | cons a' as' =>
      obtain ⟨t, first⟩ := line a'
      rw [bracketLines, bracketLines, first] at same
      exact absurd (List.cons.inj (List.cons.inj same).2).1 bracket
  | cons a as =>
    cases as' with
    | nil =>
      obtain ⟨t, first⟩ := line a
      rw [bracketLines, bracketLines, first] at same
      exact absurd (List.cons.inj (List.cons.inj same).2).1.symm bracket
    | cons a' as' =>
      -- with a comma before the first item it is joined like the others
      have lines : ∀ b bs (r : List Char), ',' ::
          (text b ++ (others bs ++ ((newLine d).toList ++ [close])) ++ r) =
          others (b :: bs) ++ '\n' :: (List.replicate (2 * d) ' ' ++ close :: r) := by
        intro b bs r
        rw [cons, toList_newLine]
        simp only [List.append_assoc, List.cons_append, List.nil_append]
      rw [bracketLines, bracketLines, List.cons_append, List.cons_append] at same
      have inside := congrArg (',' :: ·) (List.cons.inj same).2
      rw [lines, lines] at inside
      obtain ⟨items, rest⟩ := joined_told nil cons told inside
      exact ⟨items, (List.cons.inj (List.append_cancel_left rest)).2⟩

end

/-! ### values -/

theorem toList_write_array (d : Nat) (vs : List Json) : (write d (.array vs)).toList =
    bracketLines (itemLine (d + 1)) (fun vs => (writeItems (d + 1) vs).toList) '[' ']' d vs := by
  cases vs with
  | nil =>
    rw [write]
    rfl
  | cons v vs =>
    simp only [write, bracketLines, itemLine, String.toList_append, List.append_assoc]
    rfl

theorem toList_write_object (d : Nat) (ms : List (String × Json)) : (write d (.object ms)).toList =
    bracketLines (memberLine (d + 1)) (fun ms => (writeMembers (d + 1) ms).toList)
      '\x7b' '\x7d' d ms := by
  cases ms with
  | nil =>
    rw [write]
    rfl
  | cons m ms =>
    simp only [write, bracketLines, memberLine, String.toList_append, List.append_assoc]
    rfl

theorem quoted_told {s s' : String} {r r' : List Char}
    (same : (quoted s).toList ++ r = (quoted s').toList ++ r') :
    s = s' ∧ r = r' := by
  have read : ∀ (s : String) r, string ((quoted s).toList ++ r) = some (s, r) := by
    intro s r
    rw [toList_quoted, List.cons_append, List.append_assoc]
    exact string_append (text_escaped s.toList) r
  have one := read s r
  rw [same, read s' r'] at one
  obtain ⟨rfl, rfl⟩ := Prod.mk.inj (Option.some.inj one)
  exact ⟨rfl, rfl⟩

theorem bracketLines_cons {α : Type} (text : α → List Char) (others : List α → List Char)
    (opener close : Char)
    (d : Nat) (as : List α) : ∃ t, bracketLines text others opener close d as = opener :: t := by
  cases as <;> exact ⟨_, rfl⟩

/-- the first character of a legible value tells its kind -/
theorem Legible.opening {v : Json} (h : Legible v) (d : Nat) :
    ∃ c t, (write d v).toList = c :: t ∧ Json.opening c = v.kind := by
  cases h with
  | null => exact ⟨'n', _, by rw [write]; rfl, rfl⟩
  | bool b =>
    rw [write]
    cases b
    · exact ⟨'f', _, rfl, rfl⟩
    · exact ⟨'t', _, rfl, rfl⟩
  | integer i =>
    rw [write]
    exact (numberText_integer i).opening
  | decimal parts =>
    rw [write]
    exact (numberText_decimal parts).opening
  | text s =>
    rw [write]
    exact ⟨'"', _, toList_quoted s, rfl⟩
  | @array vs =>
    rw [toList_write_array]
    obtain ⟨t, front⟩ :=
      bracketLines_cons (itemLine (d + 1)) (fun vs => (writeItems (d + 1) vs).toList) '[' ']' d vs
    exact ⟨'[', t, front, rfl⟩
  | @object ms =>
    rw [toList_write_object]
    obtain ⟨t, front⟩ :=
      bracketLines_cons (memberLine (d + 1)) (fun ms => (writeMembers (d + 1) ms).toList)
        '\x7b' '\x7d' d ms
    exact ⟨'\x7b', t, front, rfl⟩

theorem Legible.kind_eq {v v' : Json} (h : Legible v) (h' : Legible v') {d : Nat} {r r' : List Char}
    (same : (write d v).toList ++ r = (write d v').toList ++ r') : v.kind = v'.kind := by
  obtain ⟨c, t, front, kind⟩ := h.opening d
  obtain ⟨c', t', front', kind'⟩ := h'.opening d
  rw [front, front'] at same
  rw [← kind, ← kind', (List.cons.inj same).1]

theorem Legible.told_number {v v' : Json} {d : Nat} {r r' : List Char}
    (h : NumberText v (write d v).toList) (h' : Legible v') (closed : Closed r)
    (closed' : Closed r')
    (kinds : v'.kind = "a number") (same : (write d v).toList ++ r = (write d v').toList ++ r') :
    v = v' ∧ r = r' := by
  have text : NumberText v' (write d v').toList := by
    cases h' with
    | integer i =>
      rw [write]
      exact numberText_integer i
    | decimal parts =>
      rw [write]
      exact numberText_decimal parts
    | _ => simp [kind] at kinds
  exact h.told text closed closed' same

theorem Legible.told {v v' : Json} (h : Legible v) (h' : Legible v') :
    ∀ {d : Nat} {r r' : List Char}, Closed r →
    Closed r' → (write d v).toList ++ r = (write d v').toList ++ r' → v = v' ∧ r = r' := by
  induction h generalizing v' with
  | null =>
    intro d r r' _ _ same
    have kinds := Legible.null.kind_eq h' same
    cases h' with
    | null => exact ⟨rfl, List.append_cancel_left same⟩
    | _ => simp [kind] at kinds
  | bool b =>
    intro d r r' _ _ same
    have kinds := (Legible.bool b).kind_eq h' same
    cases h' with
    | bool b' =>
      rw [write, write] at same
      cases b <;> cases b'
      · exact ⟨rfl, List.append_cancel_left same⟩
      · cases (List.cons.inj same).1
      · cases (List.cons.inj same).1
      · exact ⟨rfl, List.append_cancel_left same⟩
    | _ => simp [kind] at kinds
  | integer i =>
    intro d r r' closed closed' same
    have text : NumberText (.integer i) (write d (.integer i)).toList := by
      rw [write]
      exact numberText_integer i
    exact told_number text h' closed closed' ((Legible.integer i).kind_eq h' same).symm same
  | @decimal x _ _ _ parts =>
    intro d r r' closed closed' same
    have text : NumberText (.decimal x) (write d (.decimal x)).toList := by
      rw [write]
      exact numberText_decimal parts
    exact told_number text h' closed closed' ((Legible.decimal parts).kind_eq h' same).symm same
  | text s =>
    intro d r r' _ _ same
    have kinds := (Legible.text s).kind_eq h' same
    cases h' with
    | text s' =>
      rw [write, write] at same
      obtain ⟨rfl, rest⟩ := quoted_told same
      exact ⟨rfl, rest⟩
    | _ => simp [kind] at kinds
  | @array vs h ih =>
    intro d r r' _ _ same
    have kinds := (Legible.array h).kind_eq h' same
    cases h' with
    | @array vs' h' =>
      rw [toList_write_array, toList_write_array] at same
      have told : ∀ v ∈ vs, ∀ v' ∈ vs', ∀ r r', Closed r → Closed r' →
          itemLine (d + 1) v ++ r = itemLine (d + 1) v' ++ r' → v = v' ∧ r = r' := by
        intro v hv v' hv' r r' closed closed' same
        rw [itemLine, itemLine, List.append_assoc, List.append_assoc] at same
        exact ih v hv (h' v' hv') closed closed' (List.append_cancel_left same)
      obtain ⟨rfl, rest⟩ := bracketed_told rfl (toList_writeItems (d + 1)) (by decide)
        (fun v => exists_newLine (d + 1) (write (d + 1) v).toList) told same
      exact ⟨rfl, rest⟩
    | _ => simp [kind] at kinds
  | @object ms h ih =>
    intro d r r' _ _ same
    have kinds := (Legible.object h).kind_eq h' same
    cases h' with
    | @object ms' h' =>
      rw [toList_write_object, toList_write_object] at same
      have told : ∀ m ∈ ms, ∀ m' ∈ ms', ∀ r r', Closed r → Closed r' →
          memberLine (d + 1) m ++ r = memberLine (d + 1) m' ++ r' → m = m' ∧ r = r' := by
        intro m hm m' hm' r r' closed closed' same
        simp only [memberLine, List.append_assoc] at same
        obtain ⟨name, after⟩ := quoted_told (List.append_cancel_left same)
        obtain ⟨value, rest⟩ := ih m hm (h' m' hm') closed closed' (List.append_cancel_left after)
        exact ⟨Prod.ext name value, rest⟩
      obtain ⟨rfl, rest⟩ := bracketed_told rfl (toList_writeMembers (d + 1)) (by decide)
        (fun m => exists_newLine (d + 1) _) told same
      exact ⟨rfl, rest⟩
    | _ => simp [kind] at kinds

/-- two values have one text just when they are one but for what is no finite number -/
theorem render_eq_iff {v v' : Json} : render v = render v' ↔ v.printed = v'.printed := by
  constructor
  · intro same
    have texts : (write 0 v.printed).toList ++ [] = (write 0 v'.printed).toList ++ [] := by
      rw [write_printed, write_printed]
      exact congrArg (fun s => s.toList ++ []) same
    have closed : Closed [] := fun _ h => nomatch h
    exact ((legible_printed v).told (legible_printed v') closed closed texts).1
  · intro same
    show write 0 v = write 0 v'
    rw [← write_printed, same, write_printed]

end Fitting.Json
