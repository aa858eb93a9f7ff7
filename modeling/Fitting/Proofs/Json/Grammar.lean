import Fitting.Json.Reader

/-!
# The grammar of JSON texts

What a JSON text is, without a word on how it is read.  A value stands after blanks; arrays and
objects are nested at most as deep as a number says.  The relations are between a value and the
characters it is written with.

* `StringText`     the characters of a string and how they are written;
* `UnsignedText`   a number without its minus;
* `BracketedText`  items divided by commas, with the bracket that closes them;
* `ValueText n`    a value with arrays and objects at most `n` deep;
* `TextOf`         a text that holds one value and nothing else;
* `Json.depth`     how deep a value is nested, which is all that `n` bounds: `ValueText.depth_le`,
                   `ValueText.of_depth_le`.
-/

namespace Fitting.Json

/-! ### numbers -/

/-- nothing but blanks -/
def Blanks (t : List Char) : Prop := ∀ c ∈ t, isBlank c

theorem blanks_nil : Blanks [] := fun _ h => nomatch h

theorem Blanks.append {b b' : List Char} (h : Blanks b) (h' : Blanks b') :
    Blanks (b ++ b') := fun c hc =>
  (List.mem_append.mp hc).elim (h c) (h' c)

def Digits (t : List Char) : Prop := t ≠ [] ∧ ∀ c ∈ t, c.isDigit

/-- a single zero, or digits that start with another one -/
def WholeText (t : List Char) : Prop := Digits t ∧ (t.head? = some '0' → t = ['0'])

inductive FractionText : Option (List Char) → List Char → Prop where
  | absent : FractionText none []
  | digits {ds : List Char} (h : Digits ds) : FractionText (some ds) ('.' :: ds)

/-- a sign in front; true for a minus -/
inductive SignText : Bool → List Char → Prop where
  | absent : SignText false []
  | plus : SignText false ['+']
  | minus : SignText true ['-']

inductive ExponentText : Option Int → List Char → Prop where
  | absent : ExponentText none []
  | digits {e : Char} {negative : Bool} {sign ds : List Char} (letter : e = 'e' ∨ e = 'E')
      (h : SignText negative sign) (hd : Digits ds) :
      ExponentText (some (if negative then -(Decimal.ofDigits ds : Int) else Decimal.ofDigits ds))
        (e :: (sign ++ ds))

/-- a number without its minus.  Beyond the doubles there is no value. -/
inductive UnsignedText (negative : Bool) : Json → List Char → Prop where
  | parts {w f e tf te} {v : Json} (whole : WholeText w) (fraction : FractionText f tf)
      (exponent : ExponentText e te) (value : numberValue? negative w f e = some v) :
      UnsignedText negative v (w ++ (tf ++ te))

/-! ### strings -/

/-- the characters of a string, and what stands for them between the quotes -/
inductive StringText : List Char → List Char → Prop where
  | nil : StringText [] []
  | plain {c : Char} {s t : List Char} (quote : c ≠ '"') (backslash : c ≠ '\\')
      (printable : 0x20 ≤ c.toNat)
      (rest : StringText s t) : StringText (c :: s) (c :: t)
  | escape {e c : Char} {s t : List Char} (letter : charOfEscape? e = some c)
      (rest : StringText s t) :
      StringText (c :: s) ('\\' :: e :: t)
  | code {a b c d ch : Char} {u : Nat} {s t : List Char} (hex : Numeral.hex? [a, b, c, d] = some u)
      (char : Numeral.charOfCode? u = some ch) (rest : StringText s t) :
      StringText (ch :: s) ('\\' :: 'u' :: a :: b :: c :: d :: t)
  /-- a character beyond sixteen bits, in two halves -/
  | pair {a b c d e f g h ch : Char} {u low : Nat} {s t : List Char}
      (hex : Numeral.hex? [a, b, c, d] = some u)
      (half : Numeral.charOfCode? u = none) (hexLow : Numeral.hex? [e, f, g, h] = some low)
      (char : charOfPair? u low = some ch) (rest : StringText s t) :
      StringText (ch :: s) ('\\' :: 'u' :: a :: b :: c :: d :: '\\' :: 'u' :: e :: f :: g :: h :: t)

/-! ### arrays and objects -/

section
variable {α : Type} (item : α → List Char → Prop)

/-- items divided by commas, at least one -/
inductive ItemsText : List α → List Char → Prop where
  | last {a : α} {t b : List Char} (h : item a t) (blanks : Blanks b) : ItemsText [a] (t ++ b)
  | cons {a : α} {as : List α} {t b ts : List Char} (h : item a t) (blanks : Blanks b)
      (rest : ItemsText as ts) : ItemsText (a :: as) (t ++ (b ++ ',' :: ts))

/-- what stands after a bracket, with the bracket that closes it -/
inductive BracketedText (close : Char) : List α → List Char → Prop where
  | nothing {b : List Char} (blanks : Blanks b) : BracketedText close [] (b ++ [close])
  | items {as : List α} {t : List Char} (h : ItemsText item as t) :
      BracketedText close as (t ++ [close])

end

/-- a member of an object: a name, a colon, a value -/
inductive MemberText (value : Json → List Char → Prop) : String × Json → List Char → Prop where
  | named {s : String} {v : Json} {b name b' t : List Char} (before : Blanks b)
      (h : StringText s.toList name)
      (between : Blanks b') (hv : value v t) :
      MemberText value (s, v) (b ++ '"' :: (name ++ '"' :: (b' ++ ':' :: t)))

/-! ### values -/

/-- a value without values inside it -/
inductive ScalarText : Json → List Char → Prop where
  | null : ScalarText .null ['n', 'u', 'l', 'l']
  | true : ScalarText (.bool true) ['t', 'r', 'u', 'e']
  | false : ScalarText (.bool false) ['f', 'a', 'l', 's', 'e']
  | text {s : String} {t : List Char} (h : StringText s.toList t) :
      ScalarText (.text s) ('"' :: (t ++ ['"']))
  | negative {v : Json} {t : List Char} (h : UnsignedText true v t) : ScalarText v ('-' :: t)
  | unsigned {v : Json} {t : List Char} (h : UnsignedText false v t) : ScalarText v t

/-- a value without blanks in front, given what a value inside it is; without that there are no
arrays and objects -/
inductive BareText : Option (Json → List Char → Prop) → Json → List Char → Prop where
  | scalar {inner} {v : Json} {t : List Char} (h : ScalarText v t) : BareText inner v t
  | array {inner} {vs : List Json} {t : List Char} (h : BracketedText inner ']' vs t) :
      BareText (some inner) (.array vs) ('[' :: t)
  | object {inner} {ms : List (String × Json)} {t : List Char}
      (h : BracketedText (MemberText inner) '}' ms t) :
      BareText (some inner) (.object ms) ('{' :: t)

inductive ValueTextWith (inner : Option (Json → List Char → Prop)) : Json → List Char → Prop where
  | after {v : Json} {b t : List Char} (blanks : Blanks b) (h : BareText inner v t) :
      ValueTextWith inner v (b ++ t)

/-- a value with arrays and objects at most `depth` deep -/
def ValueText : Nat → Json → List Char → Prop
  | 0 => ValueTextWith none
  | depth + 1 => ValueTextWith (some (ValueText depth))

/-- a text that holds one value and nothing else but blanks -/
def TextOf (v : Json) (text : String) : Prop :=
  ∃ t b, text.toList = t ++ b ∧ ValueText maxDepth v t ∧ Blanks b

/-! ### how deep a value is nested -/

mutual

/-- how many arrays and objects are around the innermost value, each one around itself -/
def depth : Json → Nat
  | .array vs => depthOfItems vs + 1
  | .object ms => depthOfMembers ms + 1
  | _ => 0

def depthOfItems : List Json → Nat
  | [] => 0
  | v :: vs => max v.depth (depthOfItems vs)

def depthOfMembers : List (String × Json) → Nat
  | [] => 0
  | (_, v) :: ms => max v.depth (depthOfMembers ms)

end

theorem depthOfItems_le {n : Nat} {vs : List Json} :
    depthOfItems vs ≤ n ↔ ∀ v ∈ vs, v.depth ≤ n := by
  induction vs with
  | nil => simp [depthOfItems]
  | cons v vs ih => rw [depthOfItems, Nat.max_le, ih, List.forall_mem_cons]

theorem depthOfMembers_le {n : Nat} {ms : List (String × Json)} :
    depthOfMembers ms ≤ n ↔ ∀ m ∈ ms, m.2.depth ≤ n := by
  induction ms with
  | nil => simp [depthOfMembers]
  | cons m ms ih => rw [depthOfMembers, Nat.max_le, ih, List.forall_mem_cons]

theorem depth_of_numberValue {negative : Bool} {w : List Char} {f : Option (List Char)}
    {e : Option Int} {v : Json} (h : numberValue? negative w f e = some v) : v.depth = 0 := by
  unfold numberValue? at h
  dsimp only at h
  split at h
  · obtain rfl := Option.some.inj h
    rfl
  · split at h
    · obtain rfl := Option.some.inj h
      rfl
    · obtain ⟨x, -, rfl⟩ := Option.map_eq_some_iff.mp h
      rfl

theorem ScalarText.depth_eq {v : Json} {t : List Char} (h : ScalarText v t) : v.depth = 0 := by
  cases h with
  | negative h | unsigned h =>
    obtain ⟨-, -, -, value⟩ := h
    exact depth_of_numberValue value
  | _ => rfl

section
variable {α : Type} {item item' : α → List Char → Prop}

theorem ItemsText.imp {as : List α} {t : List Char} (h : ItemsText item as t)
    (each : ∀ a ∈ as, ∀ t, item a t → item' a t) : ItemsText item' as t := by
  induction h with
  | last h blanks => exact .last (each _ List.mem_cons_self _ h) blanks
  | cons h blanks _ ih =>
    have head := each _ List.mem_cons_self _ h
    exact .cons head blanks (ih fun a ha => each a (List.mem_cons_of_mem _ ha))

theorem BracketedText.imp {close : Char} {as : List α} {t : List Char}
    (h : BracketedText item close as t)
    (each : ∀ a ∈ as, ∀ t, item a t → item' a t) : BracketedText item' close as t := by
  cases h with
  | nothing blanks => exact .nothing blanks
  | items h => exact .items (h.imp each)

theorem ItemsText.forall_mem {P : α → Prop} {as : List α} {t : List Char} (h : ItemsText item as t)
    (each : ∀ a t, item a t → P a) : ∀ a ∈ as, P a := by
  induction h with
  | last h _ => exact List.forall_mem_singleton.mpr (each _ _ h)
  | cons h _ _ ih => exact List.forall_mem_cons.mpr ⟨each _ _ h, ih⟩

theorem BracketedText.forall_mem {P : α → Prop} {close : Char} {as : List α} {t : List Char}
    (h : BracketedText item close as t) (each : ∀ a t, item a t → P a) : ∀ a ∈ as, P a := by
  cases h with
  | nothing => exact fun _ ha => nomatch ha
  | items h => exact h.forall_mem each

end

theorem MemberText.imp {value value' : Json → List Char → Prop} {m : String × Json} {t : List Char}
    (h : MemberText value m t) (each : ∀ t, value m.2 t → value' m.2 t) :
    MemberText value' m t := by
  cases h with
  | named before h between hv => exact .named before h between (each _ hv)

namespace ValueText
variable {n m : Nat} {v : Json} {b t : List Char}

/-- a value may have more blanks in front -/
theorem padded (blanks : Blanks b) (h : ValueText n v t) : ValueText n v (b ++ t) := by
  cases n <;> obtain ⟨more, h⟩ :=
    h <;> rw [← List.append_assoc] <;> exact .after (blanks.append more) h

theorem scalar (blanks : Blanks b) (h : ScalarText v t) : ValueText n v (b ++ t) := by
  cases n with
  | zero | succ => exact .after blanks (.scalar h)

/-- no value is nested deeper than its text may be -/
theorem depth_le (h : ValueText n v t) : v.depth ≤ n := by
  induction n generalizing v t with
  | zero =>
    obtain ⟨-, h⟩ := h
    cases h with
    | scalar h => exact Nat.le_of_eq h.depth_eq
  | succ n ih =>
    obtain ⟨-, h⟩ := h
    cases h with
    | scalar h => exact h.depth_eq ▸ Nat.zero_le _
    | array h =>
      have inside := h.forall_mem fun _ _ hv => ih hv
      exact Nat.succ_le_succ (depthOfItems_le.mpr inside)
    | object h =>
      have inside := h.forall_mem (P := fun m => m.2.depth ≤ n) fun _ _ hm => by
        obtain ⟨-, -, -, hv⟩ := hm
        exact ih hv
      exact Nat.succ_le_succ (depthOfMembers_le.mpr inside)

/-- how deep a text may be nested matters only as a bound for how deep its value is -/
theorem of_depth_le (h : ValueText n v t) (bound : v.depth ≤ m) : ValueText m v t := by
  induction n generalizing m v t with
  | zero =>
    obtain ⟨blanks, h⟩ := h
    cases h with
    | scalar h => exact scalar blanks h
  | succ n ih =>
    obtain ⟨blanks, h⟩ := h
    cases h with
    | scalar h => exact scalar blanks h
    | array h =>
      obtain _ | m := m
      · exact absurd bound (Nat.not_succ_le_zero _)
      · have inside := depthOfItems_le.mp (Nat.le_of_succ_le_succ bound)
        exact .after blanks (.array (h.imp fun v hv t ht => ih ht (inside v hv)))
    | object h =>
      obtain _ | m := m
      · exact absurd bound (Nat.not_succ_le_zero _)
      · have inside := depthOfMembers_le.mp (Nat.le_of_succ_le_succ bound)
        exact .after blanks
          (.object (h.imp fun m hm t ht => ht.imp fun t ht => ih ht (inside m hm)))

end ValueText

end Fitting.Json
