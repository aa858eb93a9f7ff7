import Fitting.Json.Number
import Fitting.Proofs.Decimal.Shortest
import Fitting.Proofs.Json.Writing

/-!
# Numbers as they are spelled

The reader rounds a number with a fraction or an exponent, so it cannot say which numbers are
written alike.  A `Literal` keeps how a number is spelled, and with it the exact value.

* `LiteralText.told`      a text is the spelling of one literal only;
* `Spells q t`            `t` has the value `q`, and a fraction or an exponent, so that it is never
                          that of an integer;
* `spells_decimalText`    every layout of a decimal has its value;
* `Stands`, `Stands.unique`   a literal stands for one number only, since no two doubles are rounded
                              from one decimal;
* `NumberText.told`       so a number is told from its text,
* `numberText_integer`, `numberText_decimal`   as integers and finite doubles are written.
-/

namespace Fitting.Json

open Decimal (ofDigits)

/-! ### digits -/

theorem ofDigits_append (a b : List Char) :
    ofDigits (a ++ b) = ofDigits a * 10 ^ b.length + ofDigits b := by
  show Nat.ofDigitChars 10 (a ++ b) 0 = _
  rw [Nat.ofDigitChars_append, Nat.ofDigitChars_eq_ofDigitChars_zero, mul_comm]
  rfl

theorem ofDigits_zeros (n : Nat) : ofDigits (List.replicate n '0') = 0 :=
  (Nat.ofDigitChars_replicate_zero).trans (by simp)

theorem head_toDigits {d : Nat} (pos : 0 < d) : (Nat.toDigits 10 d).head? ≠ some '0' := by
  intro zero
  have value := ofDigits_toDigits d
  rw [toDigits_head zero] at value
  exact absurd value.symm (Nat.pos_iff_ne_zero.mp pos)

/-! ### literals -/

/-- a number without its sign -/
structure Literal where
  whole : List Char
  fraction : Option (List Char)
  exponent : Option Int

namespace Literal

def places (l : Literal) : Nat := (l.fraction.getD []).length

/-- the exact value -/
def value (l : Literal) : ℚ :=
  ofDigits (l.whole ++ l.fraction.getD []) * 10 ^ (l.exponent.getD 0 - l.places)

/-- neither a fraction nor an exponent -/
def Plain (l : Literal) : Prop := l.fraction = none ∧ l.exponent = none

theorem value_eq {l : Literal} {d j : Nat} {k : Int}
    (digits : ofDigits (l.whole ++ l.fraction.getD []) = d * 10 ^ j)
    (exponent : l.exponent.getD 0 - l.places + j = k) : l.value = d * 10 ^ k := by
  rw [value, digits, ← exponent, zpow_add₀ (by norm_num)]
  push_cast
  rw [zpow_natCast]
  ring

end Literal

inductive LiteralText : Literal → List Char → Prop where
  | parts {w f e tf te} (whole : WholeText w) (fraction : FractionText f tf)
      (exponent : ExponentText e te) :
      LiteralText ⟨w, f, e⟩ (w ++ (tf ++ te))

theorem LiteralText.head {l : Literal} {t : List Char} (h : LiteralText l t) :
    ∃ d t', t = d :: t' ∧ d.isDigit = true := by
  obtain ⟨⟨⟨nonempty, digits⟩, -⟩, -, -⟩ := h
  obtain ⟨d, w, rfl⟩ := List.exists_cons_of_ne_nil nonempty
  exact ⟨d, _, rfl, digits d List.mem_cons_self⟩

theorem LiteralText.told {l l' : Literal} {t t' r r' : List Char} (h : LiteralText l t)
    (h' : LiteralText l' t')
    (closed : Closed r) (closed' : Closed r') (same : t ++ r = t' ++ r') : l = l' ∧ r = r' := by
  obtain ⟨whole, fraction, exponent⟩ := h
  obtain ⟨whole', fraction', exponent'⟩ := h'
  have ends := exponent.ends closed
  have ends' := exponent'.ends closed'
  simp only [List.append_assoc] at same
  have first := whole_append whole (fraction.ends fun c hc => (ends c hc).1)
  rw [same, whole_append whole' (fraction'.ends fun c hc => (ends' c hc).1)] at first
  obtain ⟨rfl, rest⟩ := Prod.mk.inj (Option.some.inj first)
  have second := fraction_append fraction ends
  rw [← rest, fraction_append fraction' ends'] at second
  obtain ⟨rfl, rest⟩ := Prod.mk.inj (Option.some.inj second)
  have third := exponent_append exponent closed
  rw [← rest, exponent_append exponent' closed'] at third
  obtain ⟨rfl, rfl⟩ := Prod.mk.inj (Option.some.inj third)
  exact ⟨rfl, rfl⟩

/-! ### decimals -/

theorem text_exponentText (e : Int) : ExponentText (some e) (exponentText e).toList := by
  have digits := (whole_toDigits e.natAbs).1
  have written : (exponentText e).toList = 'e' ::
      ((if e < 0 then ['-'] else ['+']) ++ Nat.toDigits 10 e.natAbs) := by
    unfold exponentText
    rw [String.toList_append, String.toList_append]
    show _ ++ e.natAbs.repr.toList = _
    rw [Nat.toList_repr]
    split <;> rfl
  rw [written]
  split
  · next negative =>
    have text := ExponentText.digits (.inl rfl) .minus digits
    rw [ofDigits_toDigits, if_pos rfl] at text
    rwa [show e = -(e.natAbs : Int) by omega, Int.natAbs_neg, Int.natAbs_natCast]
  · next nonneg =>
    have text := ExponentText.digits (.inl rfl) .plus digits
    rw [ofDigits_toDigits, if_neg Bool.false_ne_true] at text
    rwa [show e = (e.natAbs : Int) by omega, Int.natAbs_natCast]

/-- digits of a number without a zero in front -/
theorem wholeText_of_head {ds : List Char} (digits : Digits ds) (head : ds.head? ≠ some '0') :
    WholeText ds :=
  ⟨digits, fun zero => absurd zero head⟩

theorem toList_zeros (n : Nat) : (zeros n).toList = List.replicate n '0' := String.toList_ofList

/-- a text with a fraction or an exponent, and its value -/
def Spells (q : ℚ) (t : List Char) : Prop := ∃ l, LiteralText l t ∧ l.value = q ∧ ¬ l.Plain

section
variable {ds te : List Char} {e : Option Int} {p : Nat} {k : Int} (digits : Digits ds)
include digits

theorem Digits.take (pos : 0 < p) : Digits (ds.take p) :=
  ⟨by simp [digits.1, pos.ne'], fun c hc => digits.2 c (List.mem_of_mem_take hc)⟩

theorem Digits.drop (inside : p < ds.length) : Digits (ds.drop p) :=
  ⟨by simpa using inside, fun c hc => digits.2 c (List.mem_of_mem_drop hc)⟩

theorem Digits.zeros_append (n : Nat) : Digits (List.replicate n '0' ++ ds) :=
  ⟨by simp [digits.1], fun c hc =>
    (List.mem_append.mp hc).elim (fun zero => (List.mem_replicate.mp zero).2 ▸ rfl) (digits.2 c)⟩

theorem Digits.append_zeros (n : Nat) : Digits (ds ++ List.replicate n '0') :=
  ⟨by simp [digits.1], fun c hc =>
    (List.mem_append.mp hc).elim (digits.2 c) fun zero => (List.mem_replicate.mp zero).2 ▸ rfl⟩

/-- digits after a point and zeros -/
theorem spells_small (n : Nat) (places : -(n + ds.length : Int) = k) :
    Spells (ofDigits ds * 10 ^ k) (['0'] ++ ('.' :: (List.replicate n '0' ++ ds) ++ [])) := by
  have zero : WholeText ['0'] := ⟨⟨by simp, by simp⟩, fun _ => rfl⟩
  refine ⟨_, .parts zero (.digits (digits.zeros_append n)) .absent, ?_, fun h => nomatch h.1⟩
  have value : ofDigits (['0'] ++ (List.replicate n '0' ++ ds)) = ofDigits ds * 10 ^ 0 := by
    have front : ['0'] ++ List.replicate n '0' = List.replicate (n + 1) '0' := rfl
    rw [← List.append_assoc, front, ofDigits_append, ofDigits_zeros, zero_mul, zero_add, pow_zero,
      mul_one]
  refine Literal.value_eq value ?_
  show (0 : Int) - ((List.replicate n '0' ++ ds).length : Nat) + (0 : Nat) = k
  rw [List.length_append, List.length_replicate]
  omega

variable (head : ds.head? ≠ some '0')
include head

/-- digits with a point among them -/
theorem spells_split (pos : 0 < p) (inside : p < ds.length) (exponent : ExponentText e te)
    (places : e.getD 0 - (ds.length - p : Int) = k) :
    Spells (ofDigits ds * 10 ^ k) (ds.take p ++ ('.' :: ds.drop p ++ te)) := by
  have whole : WholeText (ds.take p) := by
    refine wholeText_of_head (digits.take pos) ?_
    rwa [List.head?_take, if_neg pos.ne']
  refine ⟨_, .parts whole (.digits (digits.drop inside)) exponent, ?_, fun h => nomatch h.1⟩
  have value : ofDigits (ds.take p ++ ds.drop p) = ofDigits ds * 10 ^ 0 := by
    rw [List.take_append_drop, pow_zero, mul_one]
  refine Literal.value_eq value ?_
  show e.getD 0 - ((ds.drop p).length : Nat) + (0 : Nat) = k
  rw [List.length_drop]
  omega

/-- digits with zeros up to the point -/
theorem spells_padded (n : Nat) (places : (n : Int) = k) :
    Spells (ofDigits ds * 10 ^ k) (ds ++ List.replicate n '0' ++ ('.' :: ['0'] ++ [])) := by
  have whole : WholeText (ds ++ List.replicate n '0') := by
    refine wholeText_of_head (digits.append_zeros n) ?_
    rwa [List.head?_append_of_ne_nil _ digits.1]
  have fraction : Digits ['0'] := ⟨by simp, by simp⟩
  refine ⟨_, .parts whole (.digits fraction) .absent, ?_, fun h => nomatch h.1⟩
  have value : ofDigits (ds ++ List.replicate n '0' ++ ['0']) = ofDigits ds * 10 ^ (n + 1) := by
    rw [List.append_assoc, ← List.replicate_succ', ofDigits_append, ofDigits_zeros,
      List.length_replicate]
    rfl
  refine Literal.value_eq value ?_
  show (0 : Int) - (1 : Nat) + (n + 1 : Nat) = k
  omega

/-- digits with an exponent -/
theorem spells_bare (exponent : ExponentText (some k) te) :
    Spells (ofDigits ds * 10 ^ k) (ds ++ ([] ++ te)) := by
  refine ⟨_, .parts (wholeText_of_head digits head) .absent exponent, ?_, fun h => nomatch h.2⟩
  have value : ofDigits (ds ++ []) = ofDigits ds * 10 ^ 0 := by rw [List.append_nil, pow_zero,
    mul_one]
  refine Literal.value_eq value ?_
  show k - (0 : Nat) + (0 : Nat) = k
  omega

end

theorem spells_decimalText {d : Nat} (pos : 0 < d) (k : Int) :
    Spells (d * 10 ^ k) (decimalText d k).toList := by
  have digits := (whole_toDigits d).1
  have head := head_toDigits pos
  have value := ofDigits_toDigits d
  unfold decimalText
  dsimp only
  generalize Nat.toDigits 10 d = ds at digits head value ⊢
  subst value
  have nonempty : 0 < ds.length := List.length_pos_of_ne_nil digits.1
  split
  · next large =>
    have text := spells_padded digits head k.toNat (Int.toNat_of_nonneg large.1)
    simpa [toList_zeros] using text
  · split
    · next inside =>
      have text := spells_split (p := (ds.length + k).toNat) (k := k) digits head (by omega)
        (by omega) .absent (by rw [Option.getD_none]; omega)
      simpa using text
    · split
      · next small =>
        have text := spells_small (k := k) digits (-(ds.length + k)).toNat (by omega)
        simpa [toList_zeros] using text
      · have exponent := text_exponentText (ds.length + k - 1)
        split
        · next c _ _ _ =>
          have single : (([c].length : Nat) : Int) + k - 1 = k := by simp
          rw [single] at exponent ⊢
          have text := spells_bare digits head exponent
          simpa using text
        · next several =>
          have more : 1 < ds.length := by
            obtain _ | ⟨c, _ | ⟨c', ds⟩⟩ := ds
            · cases nonempty
            · exact absurd rfl (several c)
            · simp
          have text := spells_split (k := k) digits head Nat.one_pos more exponent
            (by rw [Option.getD_some]; omega)
          simpa using text

theorem spells_zero : Spells 0 "0.0".toList := by
  have zero : Digits ['0'] := ⟨by simp, by simp⟩
  refine ⟨_, .parts ⟨zero, fun _ => rfl⟩ (.digits zero) .absent, ?_, fun h => nomatch h.1⟩
  have value : ofDigits (['0'] ++ ['0']) = 0 * 10 ^ 0 := rfl
  exact (Literal.value_eq value rfl).trans (by simp)

/-! ### numbers -/

def signText (negative : Bool) : List Char := if negative then ['-'] else []

/-- a literal with a sign stands for an integer of this value, or for the double that its value
rounds to -/
inductive Stands (negative : Bool) (l : Literal) : Json → Prop where
  | integer {i : Int} (plain : l.Plain) (sign : decide (i < 0) = negative)
      (value : ofDigits l.whole = i.natAbs) :
      Stands negative l (.integer i)
  | decimal {x : Float} {m : Nat} {e : Int} (parts : Double.ofFloat x = .finite negative m e)
      (parted : ¬ l.Plain)
      (rounds : Decimal.Rounds m e l.value) : Stands negative l (.decimal x)

theorem Stands.unique {negative : Bool} {l : Literal} {v v' : Json} (h : Stands negative l v)
    (h' : Stands negative l v') : v = v' := by
  cases h with
  | @integer i plain sign value =>
    cases h' with
    | @integer i' _ sign' value' =>
      have same : decide (i < 0) = decide (i' < 0) := sign.trans sign'.symm
      rw [decide_eq_decide] at same
      exact congrArg Json.integer (by omega)
    | decimal _ parted => exact absurd plain parted
  | decimal parts parted rounds =>
    cases h' with
    | integer plain => exact absurd plain parted
    | decimal parts' _ rounds' =>
      obtain ⟨rfl, rfl⟩ :=
        Decimal.Rounds.unique (Double.regular_ofFloat parts) (Double.regular_ofFloat parts')
        rounds rounds'
      exact congrArg Json.decimal (Double.ofFloat_injective (parts.trans parts'.symm))

/-- the text of a number, with its sign -/
inductive NumberText : Json → List Char → Prop where
  | signed {negative : Bool} {l : Literal} {v : Json} {t : List Char} (h : LiteralText l t)
      (stands : Stands negative l v) : NumberText v (signText negative ++ t)

/-- a sign is told from the digit that comes without one -/
theorem signText_told {n n' : Bool} {l l' : Literal} {t t' r r' : List Char} (h : LiteralText l t)
    (h' : LiteralText l' t') (same : signText n ++ t ++ r = signText n' ++ t' ++ r') :
    n = n' ∧ t ++ r = t' ++ r' := by
  obtain ⟨d, t, rfl, digit⟩ := h.head
  obtain ⟨d', t', rfl, digit'⟩ := h'.head
  cases n <;> cases n'
  · exact ⟨rfl, same⟩
  · obtain ⟨rfl, -⟩ := List.cons.inj same
    cases digit
  · obtain ⟨rfl, -⟩ := List.cons.inj same
    cases digit'
  · exact ⟨rfl, (List.cons.inj same).2⟩

theorem NumberText.told {v v' : Json} {t t' r r' : List Char} (h : NumberText v t)
    (h' : NumberText v' t')
    (closed : Closed r) (closed' : Closed r') (same : t ++ r = t' ++ r') : v = v' ∧ r = r' := by
  obtain ⟨text, stands⟩ := h
  obtain ⟨text', stands'⟩ := h'
  obtain ⟨rfl, digits⟩ := signText_told text text' same
  obtain ⟨rfl, rest⟩ := text.told text' closed closed' digits
  exact ⟨stands.unique stands', rest⟩

theorem toList_signed (negative : Bool) (s : String) :
    (Decimal.signed negative s).toList = signText negative ++ s.toList := by
  cases negative
  · rfl
  · exact String.toList_append

theorem numberText_integer (i : Int) : NumberText (.integer i) (toString i).toList := by
  have text : LiteralText ⟨Nat.toDigits 10 i.natAbs, none,
      none⟩ (Nat.toDigits 10 i.natAbs ++ ([] ++ [])) :=
    .parts (whole_toDigits _) .absent .absent
  have stands : Stands (decide (i < 0)) ⟨Nat.toDigits 10 i.natAbs, none, none⟩ (.integer i) :=
    .integer ⟨rfl, rfl⟩ rfl (ofDigits_toDigits _)
  have written : (toString i).toList = signText (decide (i < 0)) ++
      (Nat.toDigits 10 i.natAbs ++ ([] ++ [])) := by
    rw [List.append_nil, List.append_nil]
    cases i with
    | ofNat n => exact Nat.toList_repr
    | negSucc n =>
      show ("-" ++ (n + 1).repr).toList = _
      rw [String.toList_append, Nat.toList_repr, decide_eq_true (Int.negSucc_lt_zero n)]
      rfl
  rw [written]
  exact .signed text stands

theorem rounds_zero (e : Int) : Decimal.Rounds 0 e 0 := by
  refine ⟨?_, ?_, fun odd => nomatch odd⟩
  · rw [Decimal.lowerEnd_eq, if_neg (by norm_num), Nat.cast_zero, zero_mul]
  · exact mul_nonneg (Nat.cast_nonneg _) (Decimal.two_zpow_pos _).le

theorem numberText_decimal {x : Float} {negative : Bool} {m : Nat} {e : Int}
    (parts : Double.ofFloat x = .finite negative m e) :
    NumberText (.decimal x) (numberText x).toList := by
  have spelled : ∀ {q : ℚ} {s : String}, Spells q s.toList → Decimal.Rounds m e q →
      NumberText (.decimal x) (Decimal.signed negative s).toList := by
    rintro _ s ⟨l, text, rfl, parted⟩ rounds
    rw [toList_signed]
    exact .signed text (.decimal parts parted rounds)
  unfold numberText
  rw [parts]
  obtain _ | m := m
  · exact spelled spells_zero (rounds_zero e)
  · have regular := Double.regular_ofFloat parts
    have pos : 0 < m + 1 := Nat.succ_pos m
    exact spelled (spells_decimalText (Decimal.shortest_pos regular pos) _)
      (Decimal.shortest_rounds regular pos)

end Fitting.Json
