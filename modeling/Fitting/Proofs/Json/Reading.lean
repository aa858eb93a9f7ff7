import Mathlib.Data.List.TakeWhile
import Fitting.Proofs.Json.Grammar

/-!
# The reader reads the grammar

A reader takes a text off the front of the characters.  It reads a grammar if what it takes off is
always a text of it, and if it takes every text of it off whole.  Only a number could go on with
what comes after it, so the second is said of texts after which no number goes on: the rest is
`Closed`.

* `Reads`               a reader and the grammar that it reads;
* `reads_unsigned`      numbers, part by part;
* `stringBody_append`, `stringBody_sound`   strings, character by character;
* `reads_bracketed`     arrays and objects, given what reads their items;
* `reads_valueWith`, `reads_value`          values, and by induction on the depth values inside
                                            them;
* `parse?_eq_some_iff`  so the texts that are read as a value are those of the grammar.
-/

namespace Fitting.Json

/-- a number may go on with this character -/
def continues (c : Char) : Bool := c.isDigit || c == '.' || c == 'e' || c == 'E'

/-- no number goes on with what is left -/
def Closed (rest : List Char) : Prop := ∀ c ∈ rest.head?, continues c = false

/-- `r` reads the texts of `T` off the front, and nothing else -/
structure Reads {α : Type} (r : Reader α) (T : α → List Char → Prop) : Prop where
  sound : ∀ {cs a rest}, r cs = some (a, rest) → ∃ t, cs = t ++ rest ∧ T a t
  complete : ∀ {a t rest}, T a t → Closed rest → r (t ++ rest) = some (a, rest)

/-! ### blanks -/

theorem closed_cons {c : Char} (h : continues c = false) (cs : List Char) : Closed (c :: cs) := by
  rintro _ ⟨⟩
  exact h

theorem closed_append {b rest : List Char} (h : Blanks b) (closed : Closed rest) :
    Closed (b ++ rest) := by
  cases b with
  | nil => exact closed
  | cons c b =>
    have blank : isBlank c = true := h c List.mem_cons_self
    refine closed_cons ?_ _
    unfold isBlank at blank
    simp only [Bool.or_eq_true, beq_iff_eq] at blank
    rcases blank with ((rfl | rfl) | rfl) | rfl <;> rfl

theorem skipBlanks_append {b : List Char} (h : Blanks b) (cs : List Char) :
    skipBlanks (b ++ cs) = skipBlanks cs :=
  List.dropWhile_append_of_pos h

theorem skipBlanks_cons {c : Char} (h : isBlank c = false) (cs : List Char) :
    skipBlanks (c :: cs) = c :: cs :=
  List.dropWhile_cons_of_neg (Bool.not_eq_true _ ▸ h)

theorem exists_blanks (cs : List Char) : ∃ b, Blanks b ∧ cs = b ++ skipBlanks cs :=
  ⟨cs.takeWhile isBlank, fun _ hc => List.mem_takeWhile_imp hc,
    List.takeWhile_append_dropWhile.symm⟩

/-! ### numbers -/

theorem digits_append {ds rest : List Char} (h : Digits ds)
    (ends : ∀ c ∈ rest.head?, c.isDigit = false) :
    digits (ds ++ rest) = some (ds, rest) := by
  have taken : rest.takeWhile Char.isDigit = [] := by
    cases rest with
    | nil => rfl
    | cons c rest => exact List.takeWhile_cons_of_neg (by simp [ends c rfl])
  have dropped : rest.dropWhile Char.isDigit = rest := by
    cases rest with
    | nil => rfl
    | cons c rest => exact List.dropWhile_cons_of_neg (by simp [ends c rfl])
  unfold digits
  rw [List.takeWhile_append_of_pos h.2, List.dropWhile_append_of_pos h.2, taken, dropped,
    List.append_nil]
  split
  · exact absurd rfl h.1
  · rfl

theorem digits_sound {cs ds rest : List Char} (h : digits cs = some (ds, rest)) :
    cs = ds ++ rest ∧ Digits ds := by
  unfold digits at h
  split at h
  · cases h
  · next some =>
    obtain ⟨rfl, rfl⟩ := Prod.mk.inj (Option.some.inj h)
    exact ⟨List.takeWhile_append_dropWhile.symm, some, fun _ hc => List.mem_takeWhile_imp hc⟩

theorem whole_append {w rest : List Char} (h : WholeText w)
    (ends : ∀ c ∈ rest.head?, c.isDigit = false) :
    whole (w ++ rest) = some (w, rest) := by
  unfold whole
  rw [digits_append h.1 ends]
  split
  · next heq =>
    obtain ⟨rfl, -⟩ := Prod.mk.inj (Option.some.inj heq)
    cases h.2 rfl
  · rfl

theorem whole_sound {cs w rest : List Char} (h : whole cs = some (w, rest)) :
    cs = w ++ rest ∧ WholeText w := by
  unfold whole at h
  split at h
  · cases h
  · next unpadded =>
    obtain ⟨parts, digits⟩ := digits_sound h
    refine ⟨parts, digits, fun zero => ?_⟩
    obtain _ | ⟨c, _ | ⟨d, w⟩⟩ := w
    · cases zero
    · cases zero
      rfl
    · cases zero
      exact absurd h (unpadded d w rest)

theorem fraction_append {f : Option (List Char)} {t rest : List Char} (h : FractionText f t)
    (ends : ∀ c ∈ rest.head?, c.isDigit = false ∧ c ≠ '.') :
    fraction (t ++ rest) = some (f, rest) := by
  cases h with
  | absent =>
    show fraction rest = _
    unfold fraction
    split
    · exact absurd rfl (ends _ rfl).2
    · rfl
  | digits h =>
    show (Json.digits (_ ++ rest)).map _ = _
    rw [digits_append h fun c hc => (ends c hc).1]
    rfl

theorem fraction_sound {cs rest : List Char} {f : Option (List Char)}
    (h : fraction cs = some (f, rest)) :
    ∃ t, cs = t ++ rest ∧ FractionText f t := by
  unfold fraction at h
  split at h
  · obtain ⟨⟨ds, _⟩, read, same⟩ := Option.map_eq_some_iff.mp h
    obtain ⟨rfl, rfl⟩ := Prod.mk.inj same
    obtain ⟨rfl, digits⟩ := digits_sound read
    exact ⟨'.' :: ds, rfl, .digits digits⟩
  · obtain ⟨rfl, rfl⟩ := Prod.mk.inj (Option.some.inj h)
    exact ⟨[], rfl, .absent⟩

theorem sign_append {negative : Bool} {t ds : List Char} (h : SignText negative t) (hd : Digits ds)
    (rest : List Char) : Numeral.sign (t ++ (ds ++ rest)) = (negative, ds ++ rest) := by
  cases h with
  | absent =>
    obtain ⟨nonempty, digits⟩ := hd
    obtain _ | ⟨d, ds⟩ := ds
    · exact absurd rfl nonempty
    · have digit : d.isDigit = true := digits d List.mem_cons_self
      show Numeral.sign (d :: (ds ++ rest)) = _
      unfold Numeral.sign
      split
      · next heq =>
        obtain ⟨rfl, -⟩ := List.cons.inj heq
        cases digit
      · next heq =>
        obtain ⟨rfl, -⟩ := List.cons.inj heq
        cases digit
      · rfl
  | plus => rfl
  | minus => rfl

theorem sign_sound (cs : List Char) :
    ∃ t, cs = t ++ (Numeral.sign cs).2 ∧ SignText (Numeral.sign cs).1 t := by
  unfold Numeral.sign
  split
  · exact ⟨['+'], rfl, .plus⟩
  · exact ⟨['-'], rfl, .minus⟩
  · exact ⟨[], rfl, .absent⟩

theorem Closed.not_digit {rest : List Char} (h : Closed rest) :
    ∀ c ∈ rest.head?, c.isDigit = false := by
  intro c hc
  have := h c hc
  simp only [continues, Bool.or_eq_false_iff] at this
  exact this.1.1.1

theorem exponent_append {e : Option Int} {t rest : List Char} (h : ExponentText e t)
    (closed : Closed rest) :
    exponent (t ++ rest) = some (e, rest) := by
  cases h with
  | absent =>
    show exponent rest = _
    unfold exponent
    split
    · exact absurd (closed 'e' rfl) (by decide)
    · exact absurd (closed 'E' rfl) (by decide)
    · rfl
  | digits letter h hd =>
    rcases letter with rfl | rfl
    all_goals
      rw [List.cons_append, List.append_assoc]
      simp only [exponent, sign_append h hd, digits_append hd closed.not_digit]
      rfl

theorem exponent_sound {cs rest : List Char} {e : Option Int} (h : exponent cs = some (e, rest)) :
    ∃ t, cs = t ++ rest ∧ ExponentText e t := by
  have marked : ∀ (letter : Char) (cs : List Char), letter = 'e' ∨ letter = 'E' →
      (digits (Numeral.sign cs).2).map (fun read =>
        let e : Int := Decimal.ofDigits read.1
        (some (if (Numeral.sign cs).1 then -e else e), read.2)) = some (e, rest) →
      ∃ t, letter :: cs = t ++ rest ∧ ExponentText e t := by
    intro letter cs hl read
    obtain ⟨sign, parts, hs⟩ := sign_sound cs
    obtain ⟨⟨ds, _⟩, number, same⟩ := Option.map_eq_some_iff.mp read
    obtain ⟨rfl, rfl⟩ := Prod.mk.inj same
    obtain ⟨after, hd⟩ := digits_sound number
    refine ⟨letter :: (sign ++ ds), ?_, .digits hl hs hd⟩
    rw [List.cons_append, List.append_assoc, ← after, ← parts]
  unfold exponent at h
  split at h
  · exact marked 'e' _ (.inl rfl) h
  · exact marked 'E' _ (.inr rfl) h
  · obtain ⟨rfl, rfl⟩ := Prod.mk.inj (Option.some.inj h)
    exact ⟨[], rfl, .absent⟩

/-- what comes after the digits before the point is no digit, and after the fraction no point
either -/
theorem ExponentText.ends {e : Option Int} {t rest : List Char} (h : ExponentText e t)
    (closed : Closed rest) :
    ∀ c ∈ (t ++ rest).head?, c.isDigit = false ∧ c ≠ '.' := by
  cases h with
  | absent =>
    intro c hc
    refine ⟨closed.not_digit c hc, ?_⟩
    rintro rfl
    exact absurd (closed _ hc) (by decide)
  | digits letter =>
    rintro _ ⟨⟩
    rcases letter with rfl | rfl <;> decide

theorem FractionText.ends {f : Option (List Char)} {t rest : List Char} (h : FractionText f t)
    (ends : ∀ c ∈ rest.head?, c.isDigit = false) : ∀ c ∈ (t ++ rest).head?, c.isDigit = false := by
  cases h with
  | absent => exact ends
  | digits =>
    rintro _ ⟨⟩
    rfl

theorem reads_unsigned (negative : Bool) : Reads (unsigned negative) (UnsignedText negative) where
  sound := by
    intro cs v rest h
    simp only [unsigned, Option.bind_eq_bind, Option.bind_eq_some_iff] at h
    obtain ⟨⟨w, _⟩, hw, ⟨f, _⟩, hf, ⟨e, _⟩, he, v', value, same⟩ := h
    obtain ⟨rfl, rfl⟩ := Prod.mk.inj (Option.some.inj same)
    obtain ⟨rfl, whole⟩ := whole_sound hw
    obtain ⟨tf, rfl, fraction⟩ := fraction_sound hf
    obtain ⟨te, rfl, exponent⟩ := exponent_sound he
    refine ⟨w ++ (tf ++ te), ?_, .parts whole fraction exponent value⟩
    rw [List.append_assoc, List.append_assoc]
  complete := by
    rintro _ _ rest ⟨whole, fraction, exponent, value⟩ closed
    have ends := exponent.ends closed
    have first := whole_append whole (fraction.ends fun c hc => (ends c hc).1)
    simp only [unsigned, List.append_assoc, first, fraction_append fraction ends,
      exponent_append exponent closed, value, Option.bind_eq_bind, Option.bind_some]
    rfl

/-! ### strings -/

theorem stringBody_append {s t : List Char} (h : StringText s t) (rest : List Char) :
    ∀ done, stringBody done (t ++ '"' :: rest) = some (done.reverse ++ s, rest) := by
  induction h with
  | nil =>
    intro done
    rw [List.append_nil]
    rfl
  | plain quote backslash printable _ ih =>
    intro done
    rw [List.cons_append, stringBody]
    · rw [if_neg (Nat.not_lt.mpr printable), ih, List.reverse_cons, List.append_assoc]
      rfl
    all_goals simp_all
  | @escape e c s t letter _ ih =>
    intro done
    have notCode : e ≠ 'u' := by
      rintro rfl
      cases letter
    rw [List.cons_append, List.cons_append, stringBody]
    · rw [letter]
      show stringBody (c :: done) _ = _
      rw [ih, List.reverse_cons, List.append_assoc]
      rfl
    · intro a b c d cs h
      exact absurd h notCode
  | code hex char _ ih =>
    intro done
    rw [List.cons_append]
    simp only [List.cons_append, stringBody, hex, char, ih]
    simp
  | pair hex half hexLow char _ ih =>
    intro done
    simp only [List.cons_append, stringBody, hex, half, hexLow, Option.bind_some, char, ih]
    simp

/-- the characters left begin with what stands for the rest of `body`, and the closing quote -/
def Finishes (done cs body rest : List Char) : Prop :=
  ∃ s t, cs = t ++ '"' :: rest ∧ body = done.reverse ++ s ∧ StringText s t

theorem Finishes.before {done cs body rest : List Char} {ch : Char}
    (h : Finishes (ch :: done) cs body rest)
    (front : List Char) (written : ∀ {s t}, StringText s t → StringText (ch :: s) (front ++ t)) :
    Finishes done (front ++ cs) body rest := by
  obtain ⟨s, t, rfl, rfl, hs⟩ := h
  refine ⟨ch :: s, front ++ t, ?_, ?_, written hs⟩
  · rw [List.append_assoc]
  · rw [List.reverse_cons, List.append_assoc]
    rfl

theorem stringBody_sound {done cs body rest : List Char}
    (h : stringBody done cs = some (body, rest)) :
    Finishes done cs body rest := by
  fun_induction stringBody done cs with
  | case1 | case3 | case6 | case7 | case9 | case10 => cases h
  | case2 done cs =>
    obtain ⟨rfl, rfl⟩ := Prod.mk.inj (Option.some.inj h)
    exact ⟨[], [], rfl, (List.append_nil _).symm, .nil⟩
  | case4 done a b c d cs u hex ch char ih =>
    exact (ih h).before ['\\', 'u', a, b, c, d] (.code hex char)
  | case5 done a b c d u hex half e f g k cs ch char ih =>
    obtain ⟨low, hexLow, char⟩ := Option.bind_eq_some_iff.mp char
    exact (ih h).before ['\\', 'u', a, b, c, d, '\\', 'u', e, f, g, k] (.pair hex half hexLow char)
  | case8 done e cs _ ch letter ih => exact (ih h).before ['\\', e] (.escape letter)
  | case11 done c cs quote _ alone printable ih =>
    -- a backslash at the very end is no character, but then there is no closing quote
    have backslash : c ≠ '\\' := by
      rintro rfl
      obtain ⟨_, t, rfl, -⟩ := ih h
      cases t <;> exact alone _ _ rfl rfl
    exact (ih h).before [c] (.plain quote backslash (Nat.not_lt.mp printable))

theorem string_append {s : String} {t : List Char} (h : StringText s.toList t) (rest : List Char) :
    string ('"' :: (t ++ '"' :: rest)) = some (s, rest) := by
  show (stringBody [] (t ++ '"' :: rest)).map _ = _
  rw [stringBody_append h]
  exact congrArg (fun s => some (s, rest)) String.ofList_toList

theorem string_sound {cs rest : List Char} {s : String} (h : string cs = some (s, rest)) :
    ∃ t, cs = '"' :: (t ++ '"' :: rest) ∧ StringText s.toList t := by
  unfold string at h
  split at h
  · obtain ⟨⟨body, _⟩, read, same⟩ := Option.map_eq_some_iff.mp h
    obtain ⟨rfl, rfl⟩ := Prod.mk.inj same
    obtain ⟨s, t, rfl, rfl, hs⟩ := stringBody_sound read
    exact ⟨t, rfl, String.toList_ofList.symm ▸ hs⟩
  · cases h

/-! ### arrays and objects -/

section
variable {α : Type} {item : Reader α} {T : α → List Char → Prop} {close : Char}

theorem isBlank_bracket (bracket : close = ']' ∨ close = '}') : isBlank close = false := by
  rcases bracket with rfl | rfl <;> rfl

theorem ItemsText.length_le {as : List α} {t : List Char} (h : ItemsText T as t) :
    as.length ≤ t.length + 1 := by
  induction h with
  | last => exact Nat.le_add_left _ _
  | cons _ _ _ ih =>
    simp only [List.length_cons, List.length_append]
    omega

theorem items_append (reads : Reads item T) (bracket : close = ']' ∨ close = '}') {as : List α}
    {t : List Char}
    (h : ItemsText T as t) (rest : List Char) : ∀ ruler done, as.length ≤ ruler.length →
      items item close ruler done (t ++ close :: rest) = some (done.reverse ++ as, rest) := by
  have blank := isBlank_bracket bracket
  have ends : continues close = false := by rcases bracket with rfl | rfl <;> rfl
  have comma : ',' ≠ close := by rcases bracket with rfl | rfl <;> decide
  induction h with
  | @last a t b h blanks =>
    rintro (_ | ⟨_, ruler⟩) done fits
    · cases fits
    · have first := reads.complete h (closed_append blanks (closed_cons ends rest))
      rw [List.append_assoc, items, first]
      simp only [skipBlanks_append blanks, skipBlanks_cons blank, if_true, List.reverse_cons]
  | @cons a as t b ts h blanks _ ih =>
    rintro (_ | ⟨_, ruler⟩) done fits
    · cases fits
    · have first :=
        reads.complete h (closed_append blanks (closed_cons (c := ',') rfl (ts ++ close :: rest)))
      have more := ih ruler (a :: done) (Nat.le_of_succ_le_succ fits)
      rw [List.append_assoc, List.append_assoc, List.cons_append, items, first]
      simp only [skipBlanks_append blanks, skipBlanks_cons (c := ',') rfl, if_neg comma, if_true,
        more, List.reverse_cons, List.append_assoc, List.singleton_append]

theorem items_sound (reads : Reads item T) : ∀ ruler done {cs all rest},
    items item close ruler done cs = some (all, rest) →
      ∃ as t, all = done.reverse ++ as ∧ cs = t ++ close :: rest ∧ ItemsText T as t := by
  intro ruler
  induction ruler with
  | nil =>
    intro done cs all rest h
    cases h
  | cons _ ruler ih =>
    intro done cs all rest h
    rw [items] at h
    split at h
    · cases h
    · next a after read =>
      obtain ⟨t, rfl, ht⟩ := reads.sound read
      obtain ⟨b, blanks, parts⟩ := exists_blanks after
      split at h
      · cases h
      · next c more left =>
        rw [left] at parts
        subst parts
        split at h
        · next closes =>
          obtain ⟨rfl, rfl⟩ := Prod.mk.inj (Option.some.inj h)
          refine ⟨[a], t ++ b, List.reverse_cons, ?_, .last ht blanks⟩
          rw [closes, List.append_assoc]
        · split at h
          · next comma =>
            obtain ⟨as, ts, rfl, rfl, hs⟩ := ih (a :: done) h
            refine ⟨a :: as, t ++ (b ++ ',' :: ts), ?_, ?_, .cons ht blanks hs⟩
            · rw [List.reverse_cons, List.append_assoc]
              rfl
            · rw [comma, List.append_assoc, List.append_assoc, List.cons_append]
          · cases h

/-- no text of an item begins like an empty list -/
def Opens (T : α → List Char → Prop) (close : Char) : Prop :=
  ∀ a t rest, T a t → ∃ c more, skipBlanks (t ++ rest) = c :: more ∧ c ≠ close

theorem ItemsText.opens (opens : Opens T close) {as : List α} {t : List Char} (h : ItemsText T as t)
    (rest : List Char) : ∃ c more, skipBlanks (t ++ rest) = c :: more ∧ c ≠ close := by
  cases h with
  | last h _ | cons h _ _ =>
    rw [List.append_assoc]
    exact opens _ _ _ h

theorem reads_bracketed (reads : Reads item T) (opens : Opens T close)
    (bracket : close = ']' ∨ close = '}') :
    Reads (bracketed item close) (BracketedText T close) where
  sound := by
    intro cs as rest h
    obtain ⟨b, blanks, parts⟩ := exists_blanks cs
    unfold bracketed at h
    split at h
    · cases h
    · next c more left =>
      split at h
      · next closes =>
        obtain ⟨rfl, rfl⟩ := Prod.mk.inj (Option.some.inj h)
        refine ⟨b ++ [close], ?_, .nothing blanks⟩
        rw [parts, left, closes, List.append_assoc]
        rfl
      · obtain ⟨as, t, rfl, rfl, hs⟩ := items_sound reads cs [] h
        refine ⟨t ++ [close], ?_, .items hs⟩
        rw [List.append_assoc]
        rfl
  complete := by
    intro as t rest h _
    cases h with
    | nothing blanks =>
      unfold bracketed
      rw [List.append_assoc, skipBlanks_append blanks, List.singleton_append,
        skipBlanks_cons (isBlank_bracket bracket)]
      exact if_pos rfl
    | @items _ t h =>
      rw [List.append_assoc, List.singleton_append]
      obtain ⟨c, more, left, other⟩ := h.opens opens (close :: rest)
      have fits : as.length ≤ (t ++ close :: rest).length := by
        have := h.length_le
        simp only [List.length_append, List.length_cons]
        omega
      unfold bracketed
      rw [left]
      exact (if_neg other).trans (items_append reads bracket h rest _ [] fits)

end

theorem reads_member {value : Reader Json} {V : Json → List Char → Prop} (reads : Reads value V) :
    Reads (member value) (MemberText V) where
  sound := by
    intro cs m rest h
    obtain ⟨b, before, parts⟩ := exists_blanks cs
    simp only [member, Option.bind_eq_bind, Option.bind_eq_some_iff] at h
    obtain ⟨⟨name, after⟩, read, h⟩ := h
    obtain ⟨t, opened, hs⟩ := string_sound read
    obtain ⟨b', between, parts'⟩ := exists_blanks after
    dsimp only at h
    split at h
    · next cs' left =>
      obtain ⟨⟨v, _⟩, read, same⟩ := Option.bind_eq_some_iff.mp h
      obtain ⟨rfl, rfl⟩ := Prod.mk.inj (Option.some.inj same)
      obtain ⟨tv, rfl, hv⟩ := reads.sound read
      refine ⟨b ++ '"' :: (t ++ '"' :: (b' ++ ':' :: tv)), ?_, .named before hs between hv⟩
      rw [parts, opened, parts', left]
      simp only [List.append_assoc, List.cons_append]
    · cases h
  complete := by
    rintro _ _ rest ⟨before, h, between, hv⟩ closed
    simp only [List.append_assoc, List.cons_append, member, skipBlanks_append before,
      skipBlanks_cons (c := '"') rfl, string_append h, skipBlanks_append between,
      skipBlanks_cons (c := ':') rfl,
      reads.complete hv closed, Option.bind_eq_bind, Option.bind_some]
    rfl

theorem opens_member (V : Json → List Char → Prop) : Opens (MemberText V) '}' := by
  rintro _ _ rest ⟨before, h, between, hv⟩
  rw [List.append_assoc, skipBlanks_append before, List.cons_append, skipBlanks_cons rfl]
  exact ⟨'"', _, rfl, by decide⟩

/-! ### values -/

theorem UnsignedText.head {negative : Bool} {v : Json} {t : List Char}
    (h : UnsignedText negative v t) :
    ∃ d t', t = d :: t' ∧ d.isDigit = true := by
  obtain ⟨⟨⟨nonempty, digits⟩, -⟩, -, -, -⟩ := h
  obtain ⟨d, w, rfl⟩ := List.exists_cons_of_ne_nil nonempty
  exact ⟨d, _, rfl, digits d List.mem_cons_self⟩

theorem digit_head {d : Char} (digit : d.isDigit = true) : isBlank d = false ∧ d ≠ ']' := by
  constructor
  · cases h : isBlank d with
    | false => rfl
    | true =>
      simp only [isBlank, Bool.or_eq_true, beq_iff_eq] at h
      rcases h with ((rfl | rfl) | rfl) | rfl <;> cases digit
  · rintro rfl
    cases digit

theorem BareText.head {inner : Option (Json → List Char → Prop)} {v : Json} {t : List Char}
    (h : BareText inner v t) : ∃ c t', t = c :: t' ∧ isBlank c = false ∧ c ≠ ']' := by
  cases h with
  | scalar h =>
    cases h with
    | unsigned h =>
      obtain ⟨d, t', rfl, digit⟩ := h.head
      exact ⟨d, t', rfl, digit_head digit⟩
    | _ => exact ⟨_, _, rfl, rfl, by decide⟩
  | _ => exact ⟨_, _, rfl, rfl, by decide⟩

theorem opens_value (inner : Option (Json → List Char → Prop)) :
    Opens (ValueTextWith inner) ']' := by
  rintro v _ rest ⟨blanks, h⟩
  obtain ⟨c, t, rfl, blank, other⟩ := h.head
  refine ⟨c, t ++ rest, ?_, other⟩
  rw [List.append_assoc, skipBlanks_append blanks, List.cons_append, skipBlanks_cons blank]

theorem valueWith_append (inner : Option (Reader Json)) {b : List Char} (blanks : Blanks b)
    (cs : List Char) :
    valueWith inner (b ++ cs) = valueWith inner cs := by
  unfold valueWith
  rw [skipBlanks_append blanks]

theorem valueWith_digit (inner : Option (Reader Json)) {d : Char} (digit : d.isDigit = true)
    (cs : List Char) :
    valueWith inner (d :: cs) = unsigned false (d :: cs) := by
  unfold valueWith
  rw [skipBlanks_cons (digit_head digit).1]
  split
  case h_9 d' cs' same => rw [same]
  case h_1 same => cases same
  all_goals
    next same =>
    obtain ⟨rfl, -⟩ := List.cons.inj same
    cases digit

theorem reads_valueWith {inner : Option (Reader Json)} {T : Option (Json → List Char → Prop)}
    (reads : Option.Rel Reads inner T) (opens : ∀ V ∈ T, Opens V ']') :
    Reads (valueWith inner) (ValueTextWith T) where
  sound := by
    intro cs v rest h
    obtain ⟨b, blanks, parts⟩ := exists_blanks cs
    have found : ∀ {v t rest}, skipBlanks cs = t ++ rest → BareText T v t →
        ∃ t', cs = t' ++ rest ∧ ValueTextWith T v t' := by
      intro v t rest left h
      refine ⟨b ++ t, ?_, .after blanks h⟩
      rw [List.append_assoc, ← left, ← parts]
    unfold valueWith at h
    split at h
    · cases h
    · next left =>
      obtain ⟨rfl, rfl⟩ := Prod.mk.inj (Option.some.inj h)
      exact found left (.scalar .null)
    · next left =>
      obtain ⟨rfl, rfl⟩ := Prod.mk.inj (Option.some.inj h)
      exact found left (.scalar .true)
    · next left =>
      obtain ⟨rfl, rfl⟩ := Prod.mk.inj (Option.some.inj h)
      exact found left (.scalar .false)
    · next left =>
      obtain ⟨⟨s, _⟩, read, same⟩ := Option.map_eq_some_iff.mp h
      obtain ⟨rfl, rfl⟩ := Prod.mk.inj same
      obtain ⟨t, quoted, hs⟩ := string_sound read
      refine found ?_ (.scalar (.text hs))
      rw [left, quoted, List.cons_append, List.append_assoc]
      rfl
    · next left =>
      cases reads with
      | none => cases h
      | @some item V reads =>
        obtain ⟨_, ⟨⟩, h⟩ := Option.bind_eq_some_iff.mp h
        obtain ⟨⟨vs, _⟩, read, same⟩ := Option.bind_eq_some_iff.mp h
        obtain ⟨rfl, rfl⟩ := Prod.mk.inj (Option.some.inj same)
        obtain ⟨t, rfl, hvs⟩ := (reads_bracketed reads (opens V rfl) (.inl rfl)).sound read
        exact found left (.array hvs)
    · next left =>
      cases reads with
      | none => cases h
      | @some item V reads =>
        obtain ⟨_, ⟨⟩, h⟩ := Option.bind_eq_some_iff.mp h
        obtain ⟨⟨ms, _⟩, read, same⟩ := Option.bind_eq_some_iff.mp h
        obtain ⟨rfl, rfl⟩ := Prod.mk.inj (Option.some.inj same)
        obtain ⟨t, rfl, hms⟩ :=
          (reads_bracketed (reads_member reads) (opens_member V) (.inr rfl)).sound read
        exact found left (.object hms)
    · next left =>
      obtain ⟨t, rfl, ht⟩ := (reads_unsigned true).sound h
      exact found left (.scalar (.negative ht))
    · next left =>
      obtain ⟨t, number, ht⟩ := (reads_unsigned false).sound h
      exact found (left.trans number) (.scalar (.unsigned ht))
  complete := by
    rintro v _ rest ⟨blanks, h⟩ closed
    rw [List.append_assoc, valueWith_append inner blanks]
    cases h with
    | scalar h =>
      cases h with
      | null | true | false => rfl
      | @text s t h =>
        show (string ('"' :: (t ++ ['"'] ++ rest))).map _ = _
        rw [List.append_assoc, List.singleton_append, string_append h]
        rfl
      | negative h => exact (reads_unsigned true).complete h closed
      | unsigned h =>
        obtain ⟨d, t, rfl, digit⟩ := h.head
        exact (valueWith_digit inner digit _).trans ((reads_unsigned false).complete h closed)
    | @array V vs t h =>
      cases reads with
      | @some item _ reads =>
        have read := (reads_bracketed reads (opens V rfl) (.inl rfl)).complete h closed
        show (bracketed item ']' (t ++ rest)).bind
          (fun read => some (Json.array read.1, read.2)) = _
        rw [read]
        rfl
    | @object V ms t h =>
      cases reads with
      | @some item _ reads =>
        have read :=
          (reads_bracketed (reads_member reads) (opens_member V) (.inr rfl)).complete h closed
        show (bracketed (member item) '}' (t ++ rest)).bind
          (fun read => some (Json.object read.1, read.2)) = _
        rw [read]
        rfl

theorem opens_valueText (depth : Nat) : Opens (ValueText depth) ']' := by
  cases depth with
  | zero => exact opens_value _
  | succ depth => exact opens_value _

/-- values are read to any depth -/
theorem reads_value (depth : Nat) : Reads (value depth) (ValueText depth) := by
  induction depth with
  | zero => exact reads_valueWith .none fun _ h => nomatch h
  | succ depth ih =>
    refine reads_valueWith (.some ih) ?_
    rintro _ ⟨⟩
    exact opens_valueText depth

/-- the texts that are read are those of the grammar -/
theorem parse?_eq_some_iff {text : String} {v : Json} : parse? text = some v ↔ TextOf v text := by
  unfold parse?
  constructor
  · intro h
    split at h
    · next v' rest read =>
      obtain ⟨t, parts, hv⟩ := (reads_value maxDepth).sound read
      obtain ⟨b, blanks, rest'⟩ := exists_blanks rest
      split at h
      · next done =>
        obtain rfl := Option.some.inj h
        rw [List.isEmpty_iff.mp done, List.append_nil] at rest'
        exact ⟨t, rest, parts, hv, rest' ▸ blanks⟩
      · cases h
    · cases h
  · rintro ⟨t, b, parts, hv, blanks⟩
    have closed : Closed b := List.append_nil b ▸ closed_append blanks fun _ h => nomatch h
    have left : skipBlanks b = [] := List.append_nil b ▸ skipBlanks_append blanks []
    rw [parts, (reads_value maxDepth).complete hv closed]
    simp only [left, List.isEmpty_nil, if_true]

end Fitting.Json
