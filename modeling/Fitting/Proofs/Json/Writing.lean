import Mathlib.Data.List.Basic
import Fitting.Json.Writer
import Fitting.Proofs.Json.Reading

/-!
# What is written is read back

`Json.render` writes texts of the grammar, so `Json.parse?` gives back what was written.  Numbers
with a fraction or an exponent are left out: of those the reader gives the nearest double only.

* `Exact`                          no number is a decimal, and all integers fit 64 bits;
* `text_integer`, `text_escaped`   integers and strings as they are written;
* `Exact.text_write`               the writer's text of an exact value is a text of that value;
* `parse?_render`                  it is read back, if the value is not nested too deep.
-/

namespace Fitting.Json

/-! ### integers -/

theorem toDigits_head {n : Nat} (h : (Nat.toDigits 10 n).head? = some '0') :
    Nat.toDigits 10 n = ['0'] := by
  induction n using Nat.strongRecOn with
  | ind n ih =>
    by_cases small : n < 10
    · rw [Nat.toDigits_of_lt_base small] at h ⊢
      rw [Option.some.inj h]
    · have split := Nat.toDigits_of_base_le (b := 10) (by decide) (Nat.not_lt.mp small)
      rw [split, List.head?_append_of_ne_nil _ Nat.toDigits_ne_nil] at h
      have zero := congrArg (Nat.ofDigitChars 10 · 0) (ih (n / 10) (by omega) h)
      have : n / 10 = 0 := (Nat.ofDigitChars_toDigits (by decide) (by decide)).symm.trans zero
      omega

theorem whole_toDigits (n : Nat) : WholeText (Nat.toDigits 10 n) :=
  ⟨⟨Nat.toDigits_ne_nil, fun _ hc => Nat.isDigit_of_mem_toDigits (by decide) (Nat.le_refl 10) hc⟩,
    toDigits_head⟩

theorem ofDigits_toDigits (n : Nat) : Decimal.ofDigits (Nat.toDigits 10 n) = n :=
  Nat.ofDigitChars_toDigits (by decide) (by decide)

theorem unsigned_toDigits {negative : Bool} {n : Nat} {v : Json}
    (value : numberValue? negative (Nat.toDigits 10 n) none none = some v) :
    UnsignedText negative v (Nat.toDigits 10 n) := by
  have text := UnsignedText.parts (whole_toDigits n) .absent .absent value
  rwa [List.append_nil, List.append_nil] at text

theorem text_integer {i : Int} (lower : -wordBound ≤ 2 * i) (upper : i < wordBound) :
    ScalarText (.integer i) (toString i).toList := by
  cases i with
  | ofNat n =>
    have value : numberValue? false (Nat.toDigits 10 n) none none = some (.integer n) := by
      unfold numberValue?
      rw [ofDigits_toDigits]
      exact if_pos ⟨rfl, rfl, rfl, Int.ofNat_lt.mp upper⟩
    show ScalarText _ n.repr.toList
    rw [Nat.toList_repr]
    exact .unsigned (unsigned_toDigits value)
  | negSucc n =>
    have value : numberValue? true (Nat.toDigits 10 (n + 1)) none none =
        some (.integer (Int.negSucc n)) := by
      unfold numberValue?
      rw [ofDigits_toDigits]
      exact (if_neg fun h => nomatch h.2.2.1).trans (if_pos ⟨rfl, rfl, rfl, by omega, by omega⟩)
    show ScalarText _ ("-" ++ (n + 1).repr).toList
    rw [String.toList_append, Nat.toList_repr]
    exact .negative (unsigned_toDigits value)

/-! ### strings -/

theorem hex_control :
    ∀ n < 32, Numeral.hex? ['0', '0', Nat.digitChar (n / 16), Nat.digitChar (n % 16)] = some n := by
  decide

theorem StringText.escaped {s t : List Char} (h : StringText s t) (c : Char) :
    StringText (c :: s) (escaped c ++ t) := by
  unfold Json.escaped
  split
  · exact .escape rfl h
  · exact .escape rfl h
  · exact .escape rfl h
  · exact .escape rfl h
  · exact .escape rfl h
  · exact .escape rfl h
  · exact .escape rfl h
  · next quote backslash _ _ _ _ _ =>
    split
    · next control =>
      have char : Numeral.charOfCode? c.toNat = some c := by
        unfold Numeral.charOfCode?
        rw [if_pos (by omega), Char.ofNat_toNat]
      exact .code (hex_control _ control) char h
    · next printable => exact .plain quote backslash (Nat.not_lt.mp printable) h

theorem text_escaped (s : List Char) : StringText s (s.flatMap escaped) := by
  induction s with
  | nil => exact .nil
  | cons c s ih => exact ih.escaped c

theorem toList_quoted (s : String) :
    (quoted s).toList = '"' :: (s.toList.flatMap escaped ++ ['"']) := by
  unfold quoted
  simp only [String.toList_append, String.toList_ofList]
  rfl

/-! ### values -/

theorem blanks_newLine (depth : Nat) : Blanks (newLine depth).toList := by
  intro c hc
  simp only [newLine, String.toList_append, String.toList_ofList, List.mem_append,
    List.mem_replicate] at hc
  rcases hc with hc | ⟨-, rfl⟩
  · obtain rfl := List.mem_singleton.mp hc
    rfl
  · rfl

/-- items written one after the other, a comma before each but the first -/
theorem ItemsText.joined {α : Type} {item : α → List Char → Prop} (text : α → List Char)
    (others : List α → List Char) (nil : others [] = [])
    (cons : ∀ a as, others (a :: as) = ',' :: (text a ++ others as)) {b : List Char}
    (blanks : Blanks b) :
    ∀ {a as}, (∀ x ∈ a :: as, item x (text x)) →
      ItemsText item (a :: as) (text a ++ (others as ++ b)) := by
  intro a as
  induction as generalizing a with
  | nil =>
    intro each
    rw [nil]
    exact .last (each a List.mem_cons_self) blanks
  | cons a' as ih =>
    intro each
    have rest := ih fun x hx => each x (List.mem_cons_of_mem _ hx)
    have joined := ItemsText.cons (each a List.mem_cons_self) blanks_nil rest
    rw [cons, List.cons_append, List.append_assoc]
    exact joined

/-- no number is a decimal, and all integers fit 64 bits -/
inductive Exact : Json → Prop where
  | null : Exact .null
  | bool (b : Bool) : Exact (.bool b)
  | integer {i : Int} (lower : -wordBound ≤ 2 * i) (upper : i < wordBound) : Exact (.integer i)
  | text (s : String) : Exact (.text s)
  | array {vs : List Json} (h : ∀ v ∈ vs, Exact v) : Exact (.array vs)
  | object {ms : List (String × Json)} (h : ∀ m ∈ ms, Exact m.2) : Exact (.object ms)

/-- an item on a line of its own -/
def itemLine (d : Nat) (v : Json) : List Char := (newLine d).toList ++ (write d v).toList

/-- a member on a line of its own -/
def memberLine (d : Nat) (m : String × Json) : List Char :=
  (newLine d).toList ++ ((quoted m.1).toList ++ (": ".toList ++ (write d m.2).toList))

theorem toList_writeItems (d : Nat) (v : Json) (vs : List Json) :
    (writeItems d (v :: vs)).toList = ',' :: (itemLine d v ++ (writeItems d vs).toList) := by
  simp only [writeItems, itemLine, String.toList_append, List.append_assoc]
  rfl

theorem toList_writeMembers (d : Nat) (m : String × Json) (ms : List (String × Json)) :
    (writeMembers d (m :: ms)).toList = ',' :: (memberLine d m ++ (writeMembers d ms).toList) := by
  simp only [writeMembers, memberLine, String.toList_append, List.append_assoc]
  rfl

theorem member_line {n d : Nat} {m : String × Json} (h : ValueText n m.2 (write d m.2).toList) :
    MemberText (ValueText n) m (memberLine d m) := by
  have blank : Blanks [' '] := List.forall_mem_singleton.mpr rfl
  have named := MemberText.named (blanks_newLine d) (text_escaped m.1.toList)
    blanks_nil (h.padded blank)
  rw [memberLine, toList_quoted, List.cons_append, List.append_assoc]
  exact named

/-- the writer's text of an exact value is a text of that value -/
theorem Exact.text_write {v : Json} (h : v.Exact) :
    ∀ d, ValueText v.depth v (write d v).toList := by
  induction h with
  | null =>
    intro d
    rw [write]
    exact .scalar blanks_nil .null
  | bool b =>
    intro d
    rw [write]
    cases b
    · exact .scalar blanks_nil .false
    · exact .scalar blanks_nil .true
  | integer lower upper =>
    intro d
    rw [write]
    exact .scalar blanks_nil (text_integer lower upper)
  | text s =>
    intro d
    rw [write, toList_quoted]
    exact .scalar blanks_nil (.text (text_escaped _))
  | @array vs h ih =>
    intro d
    obtain _ | ⟨v, vs⟩ := vs
    · rw [write]
      exact .after blanks_nil (.array (.nothing blanks_nil))
    · have bound := depthOfItems_le.mp (Nat.le_refl (depthOfItems (v :: vs)))
      have lines : ItemsText (ValueText (depthOfItems (v :: vs))) (v :: vs) _ :=
        .joined (itemLine (d + 1)) (fun vs => (writeItems (d + 1) vs).toList) rfl
          (toList_writeItems (d + 1))
          (blanks_newLine d) fun w hw =>
            ((ih w hw (d + 1)).of_depth_le (bound w hw)).padded (blanks_newLine _)
      have text : ValueText (.succ _) (.array (v :: vs)) _ :=
        .after blanks_nil (.array (.items lines))
      simp only [itemLine, List.append_assoc, List.nil_append] at text
      simp only [write, String.toList_append, List.append_assoc]
      exact text
  | @object ms h ih =>
    intro d
    obtain _ | ⟨m, ms⟩ := ms
    · rw [write]
      exact .after blanks_nil (.object (.nothing blanks_nil))
    · have bound := depthOfMembers_le.mp (Nat.le_refl (depthOfMembers (m :: ms)))
      have lines : ItemsText (MemberText (ValueText (depthOfMembers (m :: ms)))) (m :: ms) _ :=
        .joined (memberLine (d + 1)) (fun ms => (writeMembers (d + 1) ms).toList) rfl
          (toList_writeMembers (d + 1)) (blanks_newLine d) fun w hw =>
            member_line ((ih w hw (d + 1)).of_depth_le (bound w hw))
      have text : ValueText (.succ _) (.object (m :: ms)) _ :=
        .after blanks_nil (.object (.items lines))
      simp only [memberLine, List.append_assoc, List.nil_append] at text
      simp only [write, String.toList_append, List.append_assoc]
      exact text

/-- what is written is read back -/
theorem parse?_render {v : Json} (h : v.Exact) (shallow : v.depth ≤ maxDepth) :
    parse? (render v) = some v := by
  refine parse?_eq_some_iff.mpr ⟨_, [], (List.append_nil _).symm, ?_, blanks_nil⟩
  exact (h.text_write 0).of_depth_le shallow

end Fitting.Json
