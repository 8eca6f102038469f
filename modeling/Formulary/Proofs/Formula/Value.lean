import Formulary.Proofs.Formula.Lexeme

/-!
# Values as numerals

The shortest text of a finite value is a numeral, with a minus in front if the value is negative
(`exists_numeral`). It is no integer, because it has a point or an exponent (`IsMagnitude`). That
the numeral denotes the value is known where the text reads back as the value.
-/

namespace Formulary.Formula

open Formulary.Text Formulary.Number Formulary.Token

variable {s : List Char} {c : Char} {n : Nat} {e : Int}

/-- Whether a character may stand in the text of a value behind its sign. -/
def isMagnitudeChar (c : Char) : Bool := c.isDigit || c == '.' || c == 'e' || c == '+' || c == '-'

/-- A text that begins with a digit and has a point or an exponent. -/
structure IsMagnitude (s : List Char) : Prop where
  chars : ∀ c ∈ s, isMagnitudeChar c
  begins : ∃ d t, s = d :: t ∧ d.isDigit
  fractional : '.' ∈ s ∨ 'e' ∈ s

/-- A minus in front of a text that is negative. -/
def withMinus (negative : Bool) (s : List Char) : List Char := if negative then '-' :: s else s

/-- Digits may stand in the text of a value. -/
lemma isMagnitudeChar_of_isDigit (h : c.isDigit) : isMagnitudeChar c := by simp [isMagnitudeChar, h]

/-- Exponents may stand in the text of a value. -/
lemma isMagnitudeChar_exponentText : ∀ c ∈ exponentText e, isMagnitudeChar c := by
  intro c hc
  simp only [exponentText, List.mem_cons] at hc
  obtain rfl | rfl | hc := hc
  · decide
  · split <;> decide
  · exact isMagnitudeChar_of_isDigit (isDigit_of_mem_paddedDigits c hc)

/-- A number in positional form is written like a magnitude. -/
lemma isMagnitude_positional : IsMagnitude (positional n e) := by
  have hdigits : ∀ {ds t : List Char}, ds ≠ [] → (∀ c ∈ ds, c.isDigit) → (∀ c ∈ t, c.isDigit) →
      IsMagnitude (ds ++ '.' :: t) := by
    intro ds t hne hds ht
    refine ⟨fun c hc => ?_, ?_, .inl (by simp)⟩
    · obtain hc | hc := List.mem_append.1 hc
      · exact isMagnitudeChar_of_isDigit (hds c hc)
      · obtain rfl | hc := List.mem_cons.1 hc
        · decide
        · exact isMagnitudeChar_of_isDigit (ht c hc)
    · obtain ⟨d, u, rfl⟩ := List.exists_cons_of_ne_nil hne
      exact ⟨d, u ++ '.' :: t, rfl, hds d (by simp)⟩
  unfold positional
  split
  · refine hdigits (t := ['0']) ?_ (fun c hc => ?_) (by simp)
    · simp [digits, Nat.toDigits_ne_nil]
    · obtain hc | hc := List.mem_append.1 hc
      · exact isDigit_of_mem_digits c hc
      · rw [List.eq_of_mem_replicate hc]
        rfl
  · refine hdigits (fun hnil => ?_) (fun c hc => ?_) (fun c hc => ?_)
    · have hlength := congrArg List.length hnil
      simp only [List.length_take, paddedDigits, List.length_append, List.length_replicate,
        List.length_nil] at hlength
      omega
    · exact isDigit_of_mem_paddedDigits c (List.mem_of_mem_take hc)
    · exact isDigit_of_mem_paddedDigits c (List.mem_of_mem_drop hc)

/-- A number in exponential form is written like a magnitude. -/
lemma isMagnitude_exponential : IsMagnitude (exponential n e) := by
  have hd := isDigit_of_mem_digits (n := n)
  unfold exponential
  split
  · rename_i h
    exact absurd h Nat.toDigits_ne_nil
  · rename_i d h
    have hdigit := hd d (by simp [h])
    refine ⟨fun c hc => ?_, ⟨d, _, rfl, hdigit⟩, .inr (by simp [exponentText])⟩
    obtain rfl | hc := List.mem_cons.1 hc
    · exact isMagnitudeChar_of_isDigit hdigit
    · exact isMagnitudeChar_exponentText c hc
  · rename_i d ds _ h
    have hdigit := hd d (by simp [h])
    refine ⟨fun c hc => ?_, ⟨d, _, rfl, hdigit⟩, .inl (by simp)⟩
    simp only [List.cons_append, List.mem_cons, List.mem_append] at hc
    obtain rfl | rfl | hc | hc := hc
    · exact isMagnitudeChar_of_isDigit hdigit
    · decide
    · exact isMagnitudeChar_of_isDigit (hd c (by simp [h, hc]))
    · exact isMagnitudeChar_exponentText c hc

/-- The text of a decimal number that is not negative. -/
lemma isMagnitude_text {form : ShortestForm} {d : Decimal} (hd : d.negative = false) :
    IsMagnitude (d.text form) := by
  simp only [Decimal.text, hd, Bool.false_eq_true, if_false]
  split
  · exact ⟨List.all_eq_true.1 (by decide), ⟨'0', _, rfl, by decide⟩, .inl (by decide)⟩
  · split
    · exact isMagnitude_positional
    · exact isMagnitude_exponential

/-- A minus stands in front of the text of a negative number. -/
lemma text_eq_withMinus (form : ShortestForm) (d : Decimal) :
    d.text form = withMinus d.negative (({ d with negative := false } : Decimal).text form) := by
  obtain ⟨negative, n, e⟩ := d
  cases negative <;> rfl

/-- No character of a magnitude is blank. -/
lemma isBlank_of_isMagnitudeChar (h : isMagnitudeChar c) : isBlank c = false := by
  refine isBlank_of_isWordChar (isWordChar_of_isNumeralChar ?_)
  simp only [isMagnitudeChar, Bool.or_eq_true, beq_iff_eq] at h
  obtain (((h | rfl) | rfl) | rfl) | rfl := h
  · simp [isNumeralChar, isAlphanum_of_isDigit h]
  all_goals decide

/-- The digits of a magnitude are those of ASCII. -/
lemma plainDigit_of_isMagnitudeChar (h : isMagnitudeChar c) : plainDigit c = c := by
  simp only [isMagnitudeChar, Bool.or_eq_true, beq_iff_eq] at h
  obtain (((h | rfl) | rfl) | rfl) | rfl := h
  · obtain ⟨h1, h2⟩ : 48 ≤ c.toNat ∧ c.toNat ≤ 57 := by
      simp only [Char.isDigit, Bool.and_eq_true, decide_eq_true_eq] at h
      exact ⟨h.1, h.2⟩
    have hvalue : digitValue? c = some (c.toNat - 48) := by
      have : 48 ≤ c.toNat ∧ c.toNat < 48 + 10 := by omega
      simp [digitValue?, digitZeros, this]
    rw [plainDigit, hvalue]
    show Char.ofNat (c.toNat - 48 + 48) = c
    rw [Nat.sub_add_cancel h1, Char.ofNat_toNat]
  all_goals decide

/-- The digits of ASCII. -/
lemma mem_of_isDigit (h : c.isDigit) : c ∈ "0123456789".toList := by
  have hall : ∀ n < 58, 48 ≤ n → Char.ofNat n ∈ "0123456789".toList := by decide
  simp only [Char.isDigit, Bool.and_eq_true, decide_eq_true_eq] at h
  rw [← Char.ofNat_toNat c]
  exact hall _ (Nat.lt_succ_of_le h.2) h.1

/-- A text without blanks is not trimmed. -/
lemma trim_eq_self (h : ∀ c ∈ s, isBlank c = false) : trim s = s := by
  have hdrop : ∀ {s : List Char}, (∀ c ∈ s, isBlank c = false) → s.dropWhile isBlank = s := by
    intro s h
    cases s with
    | nil => rfl
    | cons c s => exact List.dropWhile_cons_of_neg (by simp [h c (by simp)])
  rw [trim, hdrop h, hdrop fun c hc => h c (List.mem_reverse.1 hc), List.reverse_reverse]

/-- The sign of a magnitude is read. -/
lemma takeSign_withMinus (hs : ∃ d t, s = d :: t ∧ d.isDigit) (negative : Bool) :
    takeSign (withMinus negative s) = (negative, s) := by
  cases negative
  · obtain ⟨d, t, rfl, hd⟩ := hs
    have hne : ∀ d ∈ "0123456789".toList, d ≠ '-' ∧ d ≠ '+' := List.all_iff_forall_prop.1 (by decide)
    have hd := hne d (mem_of_isDigit hd)
    simp [withMinus, Number.takeSign, hd]
  · rfl

/-- A text with a digit in front is no word. -/
lemma ne_word (hs : ∃ d t, s = d :: t ∧ d.isDigit) {w : String}
    (hw : w.toList.head?.any Char.isAlpha) : String.ofList (s.map Char.toLower) ≠ w := by
  rintro rfl
  obtain ⟨d, t, rfl, hd⟩ := hs
  have hlower : ∀ d ∈ "0123456789".toList, d.toLower.isAlpha = false :=
    List.all_iff_forall_prop.1 (by decide)
  simp [hlower d (mem_of_isDigit hd)] at hw

/-- A text in the characters of values, with a digit in front, is read as a decimal. -/
lemma readFloat?_withMinus (hchars : ∀ c ∈ s, isMagnitudeChar c) (hs : ∃ d t, s = d :: t ∧ d.isDigit)
    {negative : Bool} {v : Float} : readFloat? (String.ofList (withMinus negative s)) = some v ↔
      ∃ n e, takeDecimal? s = some (n, e, []) ∧ Decimal.toFloat ⟨negative, n, e⟩ = v := by
  have hchars : ∀ c ∈ withMinus negative s, isMagnitudeChar c := by
    intro c hc
    cases negative
    · exact hchars c hc
    · obtain rfl | hc := List.mem_cons.1 hc
      · decide
      · exact hchars c hc
  have hplain : (withMinus negative s).map plainDigit = withMinus negative s := by
    conv_rhs => rw [← List.map_id (withMinus negative s)]
    exact List.map_congr_left fun c hc => plainDigit_of_isMagnitudeChar (hchars c hc)
  have htrim := trim_eq_self fun c hc => isBlank_of_isMagnitudeChar (hchars c hc)
  have hinf : ¬ (String.ofList (s.map Char.toLower) = "inf" ∨
      String.ofList (s.map Char.toLower) = "infinity") := by
    rintro (h | h)
    · exact ne_word hs (by decide) h
    · exact ne_word hs (by decide) h
  have hnan := ne_word hs (w := "nan") (by decide)
  rw [Number.readFloat?, String.toList_ofList, htrim, hplain, takeSign_withMinus hs]
  simp only [if_neg hinf, if_neg hnan]
  constructor
  · intro h
    split at h
    · rename_i n e hdecimal
      exact ⟨n, e, hdecimal, Option.some.inj h⟩
    · cases h
  · rintro ⟨n, e, hdecimal, rfl⟩
    rw [hdecimal]

/-- The text of a value without its sign is one token. -/
lemma IsMagnitude.take? (hs : IsMagnitude s) (h : takeDecimal? s = some (n, e, [])) :
    Token.take? s = some (.decimal n e, []) := by
  have hwhole : (s.all fun c => c.isDigit || c == '_') = false := by
    rw [← Bool.not_eq_true, List.all_eq_true]
    intro hall
    obtain hc | hc := hs.fractional
    · exact absurd (hall _ hc) (by decide)
    · exact absurd (hall _ hc) (by decide)
  have hplain : takeNumeral?.plain s = some (.decimal n e, []) := by
    rw [takeNumeral?.plain, h]
    show takeNumeral?.finish n e ((s.take (s.length - 0)).all _) _ [] = _
    rw [Nat.sub_zero, List.take_length, hwhole]
    rfl
  have hnumeral : takeNumeral? s = some (.decimal n e, []) := by
    have hmark : ∀ c ∈ s, ¬ (c = 'x' ∨ c = 'X') ∧ ¬ (c = 'o' ∨ c = 'O') ∧ ¬ (c = 'b' ∨ c = 'B') := by
      intro c hc
      have hchar := hs.chars c hc
      refine ⟨?_, ?_, ?_⟩ <;> rintro (rfl | rfl) <;> cases hchar
    by_cases hzero : ∃ c rest, s = '0' :: c :: rest
    · obtain ⟨c, rest, rfl⟩ := hzero
      obtain ⟨hx, ho, hb⟩ := hmark c (by simp)
      rw [takeNumeral?_zero, if_neg hx, if_neg ho, if_neg hb]
      exact hplain
    · unfold takeNumeral?
      split
      · exact absurd ⟨_, _, rfl⟩ hzero
      · exact hplain
  obtain ⟨d, t, rfl, hd⟩ := hs.begins
  rw [Token.take?, if_pos (by simp [hd])]
  exact hnumeral

/-- What is known of the text of a finite value that reads back as it. -/
theorem exists_numeral {v : Float} (hv : v.isFinite) (hread : readFloat? (shortestText v) = some v) :
    ∃ (negative : Bool) (m : Numeral) (n : Nat) (e : Int),
      (shortestText v).toList = withMinus negative m.text ∧ m.literal = .decimal n e ∧
        isNumeric false m.text ∧ Decimal.toFloat ⟨negative, n, e⟩ = v := by
  obtain ⟨negative, a, b, hfinite⟩ := ofFloat_of_isFinite hv
  have htext : ∃ d : Decimal, shortestText v = String.ofList (d.text .standard) :=
    ⟨_, by rw [shortestText, hfinite]⟩
  obtain ⟨d, hd⟩ := htext
  let s := ({ d with negative := false } : Decimal).text .standard
  have hs : IsMagnitude s := isMagnitude_text rfl
  have hnumeric : isNumeric false s := isNumeric_text
  rw [hd, text_eq_withMinus] at hread ⊢
  obtain ⟨n, e, hdecimal, hvalue⟩ := (readFloat?_withMinus hs.chars hs.begins).1 hread
  refine ⟨d.negative, ⟨s, .decimal n e, hs.take? hdecimal⟩, n, e, ?_, rfl, hnumeric, hvalue⟩
  rw [String.toList_ofList]

end Formulary.Formula
