import Mathlib
import Formulary.Expression.Token

/-!
# Where tokens end

A text is detached from what follows it if a delimiter follows, or a letter after a sign
(`Detached`). The token at the beginning of a detached text is the same whatever follows
(`take?_append`), and it takes away at least one character (`take?_suffix`).
-/

namespace Formulary.Token

open Formulary.Text Formulary.Number

/-- Whether a character ends every token that stands before it. -/
def isDelimiter (c : Char) : Bool := ['(', ')', ' ', '\t', '\n', '\r', '\x0c'].contains c

/--
A text whose tokens cannot reach into what follows it: a delimiter follows, or a letter follows a
sign.
-/
def Detached (u k : List Char) : Prop :=
  ∀ b ∈ k.head?, isDelimiter b ∨ b.isAlpha ∧ ∃ a ∈ u.getLast?, continuesName a = false ∧ a ≠ '.'

/-- The delimiters are parentheses and blanks. -/
lemma isDelimiter_cases {c : Char} (h : isDelimiter c) :
    c = '(' ∨ c = ')' ∨ c = ' ' ∨ c = '\t' ∨ c = '\n' ∨ c = '\r' ∨ c = '\x0c' := by
  simpa [isDelimiter] using h

/-- Letters and digits continue names. -/
lemma continuesName_of_isAlphanum {c : Char} (h : c.isAlphanum) : continuesName c := by
  simp [continuesName, h]

/-- Delimiters continue no names. -/
lemma continuesName_of_isDelimiter {c : Char} (h : isDelimiter c) : continuesName c = false := by
  obtain rfl | rfl | rfl | rfl | rfl | rfl | rfl := isDelimiter_cases h <;> decide

/-- Letters have the code points of letters of ASCII. -/
lemma toNat_of_isAlpha {c : Char} (h : c.isAlpha) :
    65 ≤ c.toNat ∧ c.toNat ≤ 90 ∨ 97 ≤ c.toNat ∧ c.toNat ≤ 122 := by
  simp only [Char.isAlpha, Char.isUpper, Char.isLower, Bool.or_eq_true, Bool.and_eq_true,
    decide_eq_true_eq] at h
  exact h

variable {u k : List Char} {c : Char}

/-- A text stays detached if its beginning is cut off. -/
lemma Detached.of_append {v : List Char} (h : Detached (v ++ u) k) (hu : u ≠ []) :
    Detached u k := by
  intro b hb
  obtain hb | ⟨hb, a, ha, hsign⟩ := h b hb
  · exact .inl hb
  · refine .inr ⟨hb, a, ?_, hsign⟩
    rwa [List.getLast?_append, List.getLast?_eq_some_getLast hu, Option.some_or,
      ← List.getLast?_eq_some_getLast hu] at ha

/-- A text stays detached when its first character is dropped, if that belongs to a word. -/
lemma Detached.tail (h : Detached (c :: u) k) (hc : continuesName c ∨ c = '.') : Detached u k := by
  cases u with
  | cons d u => exact h.of_append (v := [c]) (List.cons_ne_nil d u)
  | nil =>
    -- `c` was all there is, and it is no sign, so that only a delimiter can follow it.
    intro b hb
    obtain hb | ⟨-, a, ha, hname, hpoint⟩ := h b hb
    · exact .inl hb
    · obtain rfl : c = a := by simpa using ha
      obtain hc | hc := hc
      · rw [hname] at hc
        cases hc
      · exact absurd hc hpoint

/-- Nothing after a detached text is a digit, an underscore, a sign or a point. -/
lemma Detached.head {b : Char} (h : Detached u (b :: k)) :
    b.isDigit = false ∧ b ≠ '_' ∧ b ≠ '.' ∧ b ≠ '+' ∧ b ≠ '-' := by
  obtain hb | ⟨hb, -⟩ := h b rfl
  · obtain rfl | rfl | rfl | rfl | rfl | rfl | rfl := isDelimiter_cases hb <;> decide
  · have hdigit : b.isDigit = false := by
      have hb := toNat_of_isAlpha hb
      by_contra h
      simp only [Char.isDigit, Bool.not_eq_false, Bool.and_eq_true, decide_eq_true_eq] at h
      have h : 48 ≤ b.toNat ∧ b.toNat ≤ 57 := ⟨h.1, h.2⟩
      omega
    refine ⟨hdigit, ?_, ?_, ?_, ?_⟩ <;> rintro rfl <;> revert hb <;> decide

/-- Only a delimiter follows a text that ends with a word. -/
lemma Detached.nil {b : Char} (h : Detached [] (b :: k)) : isDelimiter b := by
  obtain hb | ⟨-, a, ha, -⟩ := h b rfl
  · exact hb
  · cases ha

/-- What stands after the digits at the beginning of a text is a rest of it. -/
lemma takeDigits_spec (afterDigit : Bool) (s : List Char) :
    ∃ v, s = v ++ (takeDigits afterDigit s).2 ∧ ∀ c ∈ v, continuesName c := by
  fun_induction takeDigits afterDigit s with
  | case1 => exact ⟨[], rfl, nofun⟩
  | case2 afterDigit d rest h ds rest' heq ih =>
    obtain ⟨v, hv, hname⟩ := ih
    rw [heq] at hv
    refine ⟨'_' :: d :: v, by simpa using hv, ?_⟩
    simp only [Bool.and_eq_true] at h
    simp only [List.mem_cons, forall_eq_or_imp]
    exact ⟨by decide, continuesName_of_isAlphanum (by simp [Char.isAlphanum, h.2]), hname⟩
  | case3 => exact ⟨[], rfl, nofun⟩
  | case4 afterDigit c rest hc h ds rest' heq ih =>
    obtain ⟨v, hv, hname⟩ := ih
    rw [heq] at hv
    refine ⟨c :: v, by simpa using hv, ?_⟩
    simp only [List.mem_cons, forall_eq_or_imp]
    exact ⟨continuesName_of_isAlphanum (by simp [Char.isAlphanum, h]), hname⟩
  | case5 => exact ⟨[], rfl, nofun⟩

/-- A text stays detached if characters of names are cut off its beginning. -/
lemma Detached.drop {v : List Char} (h : Detached (v ++ u) k) (hv : ∀ c ∈ v, continuesName c) :
    Detached u k := by
  induction v with
  | nil => exact h
  | cons c v ih => exact ih (h.tail (.inl (hv c (by simp)))) fun d hd => hv d (by simp [hd])

/-- A text begins with no digit, and with no underscore. -/
def StartsOff (k : List Char) : Prop := ∀ b ∈ k.head?, b.isDigit = false ∧ b ≠ '_'

/-- What is detached from a text begins with no digit. -/
lemma Detached.startsOff (h : Detached u k) : StartsOff k := by
  cases k with
  | nil => exact fun _ => nofun
  | cons b k =>
    intro c hc
    cases hc
    exact ⟨h.head.1, h.head.2.1⟩

/-- What reading digits does at a character that is no underscore. -/
lemma takeDigits_cons (afterDigit : Bool) {c : Char} (rest : List Char) (hc : c ≠ '_') :
    takeDigits afterDigit (c :: rest) =
      if c.isDigit then (c :: (takeDigits true rest).1, (takeDigits true rest).2)
      else ([], c :: rest) := by
  rw [takeDigits]
  exact fun _ _ h => absurd h hc

/-- No digits are read where none begin. -/
lemma takeDigits_of_startsOff (afterDigit : Bool) (h : StartsOff k) :
    takeDigits afterDigit k = ([], k) := by
  cases k with
  | nil => rfl
  | cons b k =>
    obtain ⟨hdigit, hscore⟩ := h b rfl
    simp [takeDigits_cons _ _ hscore, hdigit]

/-- Digits of a detached text are read without what follows it. -/
lemma takeDigits_append (afterDigit : Bool) (u : List Char) (h : StartsOff k) :
    takeDigits afterDigit (u ++ k) =
      ((takeDigits afterDigit u).1, (takeDigits afterDigit u).2 ++ k) := by
  fun_induction takeDigits afterDigit u with
  | case1 afterDigit => exact takeDigits_of_startsOff afterDigit h
  | case2 afterDigit d rest hd ds rest' heq ih => simp [takeDigits, hd, ih, heq]
  | case3 afterDigit d rest hd => simp [takeDigits, hd]
  | case4 afterDigit c rest hc hd ds rest' heq ih =>
    have hscore : c ≠ '_' := by
      rintro rfl
      cases hd
    simp [takeDigits_cons _ _ hscore, hd, ih, heq]
  | case5 afterDigit c rest hc hd =>
    by_cases hscore : c = '_'
    · -- An underscore at the very end, where the digit after it would have to follow the text.
      subst hscore
      cases rest with
      | cons d rest => exact (hc d rest rfl rfl).elim
      | nil =>
        cases k with
        | nil => simp [takeDigits]
        | cons b k => simp [takeDigits, (h b rfl).1]
    · simp [takeDigits_cons _ _ hscore, hd]

/-- The sign of a detached text is read without what follows it. -/
lemma takeSign_append (u : List Char) (h : Detached u k) :
    takeSign (u ++ k) = ((takeSign u).1, (takeSign u).2 ++ k) := by
  cases u with
  | nil =>
    cases k with
    | nil => rfl
    | cons b k =>
      obtain ⟨-, -, -, hplus, hminus⟩ := h.head
      have hsign : takeSign (b :: k) = (false, b :: k) := by
        unfold takeSign
        split <;> simp_all
      simpa [takeSign] using hsign
  | cons c u =>
    simp only [List.cons_append]
    unfold takeSign
    split <;> simp_all

/-- The exponent of a detached text is read without what follows it. -/
lemma takeExponent_append (h : Detached u k) :
    takeExponent (u ++ k) = ((takeExponent u).1, (takeExponent u).2 ++ k) := by
  cases u with
  | nil =>
    cases k with
    | nil => rfl
    | cons b k =>
      have hb : ¬ (b = 'e' ∨ b = 'E') := by
        rintro (rfl | rfl) <;> exact absurd h.nil (by decide)
      simp [takeExponent, hb]
  | cons c u =>
    by_cases hc : c = 'e' ∨ c = 'E'
    · have hname : continuesName c := by
        obtain rfl | rfl := hc <;> decide
      have hrest : Detached u k := h.tail (.inl hname)
      have hoff : StartsOff k := hrest.startsOff
      simp only [takeExponent, List.cons_append, hc, if_true, takeSign_append u hrest,
        takeDigits_append false _ hoff]
      cases hd : takeDigits false (takeSign u).2 with
      | mk ds rest => cases ds <;> simp
    · simp [takeExponent, hc]

/-- A sign is read off the beginning of a text. -/
lemma takeSign_spec (s : List Char) : ∃ v, s = v ++ (takeSign s).2 := by
  unfold takeSign
  split
  · exact ⟨['-'], rfl⟩
  · exact ⟨['+'], rfl⟩
  · exact ⟨[], rfl⟩

/-- What an exponent leaves of a detached text is detached. -/
lemma Detached.exponent (h : Detached u k) : Detached (takeExponent u).2 k := by
  cases u with
  | nil => exact h
  | cons c u =>
    by_cases hc : c = 'e' ∨ c = 'E'
    · simp only [takeExponent, hc, if_true]
      cases hd : takeDigits false (takeSign u).2 with
      | mk ds rest =>
        cases ds with
        | nil => exact h
        | cons d ds =>
          obtain ⟨v, hv⟩ := takeSign_spec u
          obtain ⟨w, hw, hname⟩ := takeDigits_spec false (takeSign u).2
          have hne : (takeSign u).2 ≠ [] := by
            intro he
            rw [he] at hd
            cases hd
          rw [hv] at h
          have hdigits := h.of_append (v := c :: v) hne
          rw [hw] at hdigits
          simpa [hd] using hdigits.drop hname
    · simpa [takeExponent, hc] using h

/-- The places after a point, and what follows them. -/
def takePlaces : List Char → List Char × List Char
  | '.' :: rest => takeDigits false rest
  | rest => ([], rest)

/-- The places of a detached text are read without what follows it. -/
lemma takePlaces_append (h : Detached u k) :
    takePlaces (u ++ k) = ((takePlaces u).1, (takePlaces u).2 ++ k) := by
  cases u with
  | nil =>
    cases k with
    | nil => rfl
    | cons b k =>
      have hpoint := h.head.2.2.1
      have : takePlaces (b :: k) = ([], b :: k) := by
        unfold takePlaces
        split <;> simp_all
      simpa [takePlaces] using this
  | cons c u =>
    by_cases hc : c = '.'
    · subst hc
      exact takeDigits_append false u (h.tail (.inr rfl)).startsOff
    · simp only [List.cons_append]
      unfold takePlaces
      split <;> simp_all

/-- What is left after the places stays detached. -/
lemma Detached.places (h : Detached u k) : Detached (takePlaces u).2 k := by
  unfold takePlaces
  split
  · rename_i rest
    obtain ⟨v, hv, hname⟩ := takeDigits_spec false rest
    have htail := h.tail (.inr rfl)
    rw [hv] at htail
    exact htail.drop hname
  · exact h

/-- A decimal is read by its whole part, its places and its exponent. -/
lemma takeDecimal?_eq (s : List Char) :
    takeDecimal? s =
      let whole := takeDigits false s
      let places := takePlaces whole.2
      let exponent := takeExponent places.2
      if whole.1.isEmpty && places.1.isEmpty then none
      else some (natOfDigits (natOfDigits 0 whole.1) places.1, exponent.1 - places.1.length,
        exponent.2) := by
  rfl

/-- The decimal of a detached text is read without what follows it. -/
lemma takeDecimal?_append (h : Detached u k) :
    takeDecimal? (u ++ k) = (takeDecimal? u).map fun (n, e, rest) => (n, e, rest ++ k) := by
  obtain ⟨v, hv, hname⟩ := takeDigits_spec false u
  have hwhole : Detached (takeDigits false u).2 k := by
    rw [hv] at h
    exact h.drop hname
  simp only [takeDecimal?_eq, takeDigits_append false u h.startsOff, takePlaces_append hwhole,
    takeExponent_append hwhole.places]
  split <;> simp

/-- What is left after a decimal stays detached. -/
lemma Detached.decimal {n : Nat} {e : Int} {rest : List Char} (h : Detached u k)
    (hu : takeDecimal? u = some (n, e, rest)) : Detached rest k := by
  obtain ⟨v, hv, hname⟩ := takeDigits_spec false u
  rw [hv] at h
  rw [takeDecimal?_eq] at hu
  dsimp only at hu
  split at hu
  · cases hu
  · cases hu
    exact (h.drop hname).places.exponent

/-- The digits of a base are letters and digits. -/
lemma isAlphanum_of_digitBelow {base d : Nat} {c : Char} (h : digitBelow? base c = some d) :
    c.isAlphanum := by
  unfold digitBelow? at h
  simp only [Option.filter_eq_some_iff] at h
  obtain ⟨h, -⟩ := h
  simp only [Char.isAlphanum, Char.isAlpha, Char.isUpper, Char.isLower, Bool.or_eq_true,
    Bool.and_eq_true, decide_eq_true_eq]
  split at h
  · rename_i hc
    exact .inr hc
  · split at h
    · rename_i hc
      exact .inl (.inr ⟨hc.1, Nat.le_trans hc.2 (by decide)⟩)
    · split at h
      · rename_i hc
        exact .inl (.inl ⟨hc.1, Nat.le_trans hc.2 (by decide)⟩)
      · cases h

/-- The digits of a base continue names. -/
lemma continuesName_of_digitBelow {base d : Nat} {c : Char} (h : digitBelow? base c = some d) :
    continuesName c :=
  continuesName_of_isAlphanum (isAlphanum_of_digitBelow h)

/-- A delimiter is no digit of a base. -/
lemma digitBelow?_of_isDelimiter {base : Nat} {c : Char} (h : isDelimiter c) :
    digitBelow? base c = none := by
  cases hd : digitBelow? base c with
  | none => rfl
  | some d =>
    have := continuesName_of_digitBelow hd
    rw [continuesName_of_isDelimiter h] at this
    cases this

/-- No digits of a base are read in front of what is detached from nothing. -/
lemma takeBaseDigits_of_detached (base n : Nat) (any : Bool) (h : Detached [] k) :
    takeBaseDigits base n any k = (n, any, k) := by
  cases k with
  | nil => rfl
  | cons b k =>
    have hb := h.nil
    have hscore : b ≠ '_' := by
      rintro rfl
      cases hb
    cases k <;> simp [takeBaseDigits, digitBelow?_of_isDelimiter hb, hscore]

/-- The digits of a base in a detached text are read without what follows it. -/
lemma takeBaseDigits_append (base n : Nat) (any : Bool) (h : Detached u k) :
    takeBaseDigits base n any (u ++ k) =
      ((takeBaseDigits base n any u).1, (takeBaseDigits base n any u).2.1,
        (takeBaseDigits base n any u).2.2 ++ k) := by
  fun_induction takeBaseDigits base n any u with
  | case1 n any => exact takeBaseDigits_of_detached base n any h
  | case2 n any c d hc =>
    have hnil : Detached [] k := h.tail (.inl (continuesName_of_digitBelow hc))
    cases k with
    | nil => simp [takeBaseDigits, hc]
    | cons b k =>
      have := takeBaseDigits_of_detached base (base * n + d) true hnil
      simp [takeBaseDigits, hc, this]
  | case3 n any c hc =>
    cases k with
    | nil => simp [takeBaseDigits, hc]
    | cons b k =>
      by_cases hscore : c = '_'
      · subst hscore
        have hb : digitBelow? base b = none :=
          digitBelow?_of_isDelimiter (h.tail (.inl (by decide))).nil
        simp [takeBaseDigits, hc, hb]
      · simp [takeBaseDigits, hc, hscore]
  | case4 n any c c' rest d hc ih =>
    simp [takeBaseDigits, hc, ← ih (h.tail (.inl (continuesName_of_digitBelow hc)))]
  | case5 n any c' rest d hd hc ih =>
    have htail : Detached (c' :: rest) k := h.tail (.inl (by decide))
    simp [takeBaseDigits, hc, hd, ← ih (htail.tail (.inl (continuesName_of_digitBelow hd)))]
  | case6 n any c' rest hd hc => simp [takeBaseDigits, hc, hd]
  | case7 n any c c' rest hc hscore => simp [takeBaseDigits, hc, hscore]

/-- What is left after the digits of a base stays detached. -/
lemma Detached.baseDigits (base n : Nat) (any : Bool) (h : Detached u k) :
    Detached (takeBaseDigits base n any u).2.2 k := by
  fun_induction takeBaseDigits base n any u with
  | case1 n any => exact h
  | case2 n any c d hc => exact h.tail (.inl (continuesName_of_digitBelow hc))
  | case3 n any c hc => exact h
  | case4 n any c c' rest d hc ih => exact ih (h.tail (.inl (continuesName_of_digitBelow hc)))
  | case5 n any c' rest d hd hc ih =>
    have htail : Detached (c' :: rest) k := h.tail (.inl (by decide))
    exact ih (htail.tail (.inl (continuesName_of_digitBelow hd)))
  | case6 n any c' rest hd hc => exact h
  | case7 n any c c' rest hc hscore => exact h

/-- A word that begins a detached text and what follows begins the text itself. -/
lemma isPrefixOf_append {w : List Char} (hw : ∀ c ∈ w, c.isAlpha) (h : Detached u k) :
    w.isPrefixOf (u ++ k) = w.isPrefixOf u := by
  induction w generalizing u with
  | nil => simp
  | cons c w ih =>
    have hc : continuesName c :=
      continuesName_of_isAlphanum (by simp [Char.isAlphanum, hw c (by simp)])
    cases u with
    | nil =>
      cases k with
      | nil => rfl
      | cons b k =>
        have hb : c ≠ b := by
          rintro rfl
          rw [continuesName_of_isDelimiter h.nil] at hc
          cases hc
        simp [List.isPrefixOf, hb]
    | cons d u =>
      by_cases hd : c = d
      · subst hd
        simp only [List.cons_append, List.isPrefixOf, beq_self_eq_true, Bool.true_and]
        exact ih (fun x hx => hw x (by simp [hx])) (h.tail (.inl hc))
      · have hbeq : (c == d) = false := by simp [hd]
        simp [List.isPrefixOf, hbeq]

/-- Whether a numeral ends does not depend on what follows a detached text. -/
lemma endsNumeral_append (h : Detached u k) : endsNumeral (u ++ k) = endsNumeral u := by
  cases u with
  | nil =>
    cases k with
    | nil => rfl
    | cons b k => simp [endsNumeral, continuesName_of_isDelimiter h.nil]
  | cons c u =>
    have hfollows : followsNumeral (c :: u ++ k) = followsNumeral (c :: u) := by
      have hwords : ∀ w ∈ ["and", "else", "for", "if", "in", "is", "or", "not"],
          w.toList.all Char.isAlpha := by decide
      simp only [followsNumeral]
      rw [Bool.eq_iff_iff]
      simp only [List.any_eq_true]
      exact exists_congr fun w => and_congr_right fun hw => by
        rw [isPrefixOf_append (List.all_eq_true.1 (hwords w hw)) h]
    simp only [endsNumeral, List.cons_append] at hfollows ⊢
    rw [hfollows]

/-- A token and what follows it, when more text follows. -/
def followedBy (k : List Char) (r : Token × List Char) : Token × List Char := (r.1, r.2 ++ k)

/-- A numeral is finished without what follows a detached text. -/
lemma finish_append {n : Nat} {e : Int} {whole : Bool} {written : List Char} (h : Detached u k) :
    takeNumeral?.finish n e whole written (u ++ k) =
      (takeNumeral?.finish n e whole written u).map (followedBy k) := by
  simp only [takeNumeral?.finish, endsNumeral_append h]
  split
  · rfl
  · split
    · rfl
    · split
      · rfl
      · split <;> rfl

/-- A numeral without a mark is read without what follows a detached text. -/
lemma plain_append (h : Detached u k) :
    takeNumeral?.plain (u ++ k) = (takeNumeral?.plain u).map (followedBy k) := by
  unfold takeNumeral?.plain
  rw [takeDecimal?_append h]
  cases hd : takeDecimal? u with
  | none => rfl
  | some r =>
    obtain ⟨n, e, rest⟩ := r
    have hrest := h.decimal hd
    have hwritten : (u ++ k).take ((u ++ k).length - (rest ++ k).length) =
        u.take (u.length - rest.length) := by
      rw [List.length_append, List.length_append, Nat.add_sub_add_right,
        List.take_append_of_le_length (Nat.sub_le _ _)]
    simp only [Option.map_some, Option.bind_eq_bind, Option.bind_some, hwritten]
    cases rest with
    | nil =>
      cases k with
      | nil => simpa using finish_append hrest
      | cons b k =>
        have hb : ¬ (b = 'j' ∨ b = 'J') := by
          rintro (rfl | rfl) <;> exact absurd hrest.nil (by decide)
        simp only [List.nil_append, hb, if_false]
        exact finish_append hrest
    | cons c rest =>
      simp only [List.cons_append]
      split
      · rename_i hc
        have hname : continuesName c := by
          obtain rfl | rfl := hc <;> decide
        rw [endsNumeral_append (hrest.tail (.inl hname))]
        split <;> rfl
      · exact finish_append hrest

/-- The numeral after the mark of a base. -/
def takeBased (base : Nat) (s : List Char) : Option (Token × List Char) :=
  match takeBaseDigits base 0 false s with
  | (n, true, rest) => if endsNumeral rest then some (.integer n, rest) else none
  | _ => none

/-- A numeral with a mark of a base is read without what follows a detached text. -/
lemma takeBased_append (base : Nat) (h : Detached u k) :
    takeBased base (u ++ k) = (takeBased base u).map (followedBy k) := by
  have hrest := h.baseDigits base 0 false
  unfold takeBased
  rw [takeBaseDigits_append base 0 false h]
  rcases hd : takeBaseDigits base 0 false u with ⟨n, any, rest⟩
  rw [hd] at hrest
  cases any with
  | false => rfl
  | true =>
    simp only [endsNumeral_append hrest]
    split <;> rfl

/-- A numeral that begins with a zero may have the mark of a base. -/
lemma takeNumeral?_zero (c : Char) (rest : List Char) :
    takeNumeral? ('0' :: c :: rest) =
      if c = 'x' ∨ c = 'X' then takeBased 16 rest
      else if c = 'o' ∨ c = 'O' then takeBased 8 rest
      else if c = 'b' ∨ c = 'B' then takeBased 2 rest
      else takeNumeral?.plain ('0' :: c :: rest) := by
  rfl

/-- A numeral that does not begin with a zero has no mark. -/
lemma takeNumeral?_of_ne_zero {c : Char} (hc : c ≠ '0') (rest : List Char) :
    takeNumeral? (c :: rest) = takeNumeral?.plain (c :: rest) := by
  unfold takeNumeral?
  split
  · rename_i h
    cases h
    exact absurd rfl hc
  · rfl

/-- A numeral is one in base ten, or it has the mark of another base. -/
lemma takeNumeral?_cases {s r : List Char} {t : Token} (h : takeNumeral? s = some (t, r)) :
    takeNumeral?.plain s = some (t, r) ∨
      ∃ base c rest, s = '0' :: c :: rest ∧ c.isAlpha ∧ takeBased base rest = some (t, r) := by
  by_cases hzero : ∃ c rest, s = '0' :: c :: rest
  · obtain ⟨c, rest, rfl⟩ := hzero
    rw [takeNumeral?_zero] at h
    split at h
    · rename_i hc
      exact .inr ⟨16, c, rest, rfl, by obtain rfl | rfl := hc <;> rfl, h⟩
    · split at h
      · rename_i hc
        exact .inr ⟨8, c, rest, rfl, by obtain rfl | rfl := hc <;> rfl, h⟩
      · split at h
        · rename_i hc
          exact .inr ⟨2, c, rest, rfl, by obtain rfl | rfl := hc <;> rfl, h⟩
        · exact .inl h
  · unfold takeNumeral? at h
    split at h
    · exact absurd ⟨_, _, rfl⟩ hzero
    · exact .inl h

/-- The numeral of a detached text is read without what follows it. -/
lemma takeNumeral?_append (hu : u ≠ []) (h : Detached u k) :
    takeNumeral? (u ++ k) = (takeNumeral? u).map (followedBy k) := by
  cases u with
  | nil => exact absurd rfl hu
  | cons c u =>
    by_cases hc : c = '0'
    · subst hc
      have htail := h.tail (.inl (by decide))
      have hplain := plain_append h
      cases u with
      | nil =>
        cases k with
        | nil => exact hplain
        | cons b k =>
          -- a zero alone: no delimiter is the mark of a base
          have hb := isDelimiter_cases htail.nil
          have hbase : takeNumeral? ('0' :: b :: k) = takeNumeral?.plain ('0' :: b :: k) := by
            rw [takeNumeral?_zero]
            obtain rfl | rfl | rfl | rfl | rfl | rfl | rfl := hb <;> rfl
          simp only [List.cons_append, List.nil_append] at hplain ⊢
          rw [hbase, hplain]
          rfl
      | cons d u =>
        simp only [List.cons_append] at hplain ⊢
        rw [takeNumeral?_zero, takeNumeral?_zero, hplain]
        have hbase : continuesName d → ∀ base,
            takeBased base (u ++ k) = (takeBased base u).map (followedBy k) :=
          fun hd base => takeBased_append base (htail.tail (.inl hd))
        split
        · rename_i hd
          exact hbase (by obtain rfl | rfl := hd <;> decide) 16
        · split
          · rename_i hd
            exact hbase (by obtain rfl | rfl := hd <;> decide) 8
          · split
            · rename_i hd
              exact hbase (by obtain rfl | rfl := hd <;> decide) 2
            · rfl
    · rw [takeNumeral?_of_ne_zero hc, List.cons_append, takeNumeral?_of_ne_zero hc]
      exact plain_append h

/-- No sign of more than one character goes on with a delimiter or a letter. -/
lemma tail_signs : ∀ p ∈ signs, ∃ c q, p.toList = c :: q ∧
    ∀ d ∈ q, isDelimiter d = false ∧ d.isAlpha = false := by
  have h : ∀ p ∈ signs, p.toList ≠ [] ∧
      p.toList.tail.all fun d => !isDelimiter d && !d.isAlpha := by decide
  intro p hp
  obtain ⟨hne, hq⟩ := h p hp
  cases hl : p.toList with
  | nil => exact absurd hl hne
  | cons c q =>
    rw [hl] at hq
    simp only [List.tail_cons, List.all_eq_true, Bool.and_eq_true, Bool.not_eq_true'] at hq
    exact ⟨c, q, rfl, hq⟩

/-- Whether a text begins with a sign does not depend on a delimiter or a letter after it. -/
lemma isPrefixOf_append_of_sign {q : List Char}
    (hq : ∀ d ∈ q, isDelimiter d = false ∧ d.isAlpha = false)
    (hk : ∀ b ∈ k.head?, isDelimiter b ∨ b.isAlpha) : q.isPrefixOf (u ++ k) = q.isPrefixOf u := by
  induction q generalizing u with
  | nil => simp
  | cons c q ih =>
    cases u with
    | nil =>
      cases k with
      | nil => rfl
      | cons b k =>
        have hb : (c == b) = false := by
          rw [beq_eq_false_iff_ne]
          rintro rfl
          obtain ⟨hdelimiter, halpha⟩ := hq c (by simp)
          obtain h | h := hk c rfl
          · rw [hdelimiter] at h
            cases h
          · rw [halpha] at h
            cases h
        simp [List.isPrefixOf, hb]
    | cons d u =>
      simp only [List.cons_append, List.isPrefixOf]
      rw [ih fun x hx => hq x (by simp [hx])]

/-- What is detached from a text begins with a delimiter or with a letter. -/
lemma Detached.stops (h : Detached u k) : ∀ b ∈ k.head?, isDelimiter b ∨ b.isAlpha := by
  intro b hb
  obtain hb | ⟨hb, -⟩ := h b hb
  · exact .inl hb
  · exact .inr hb

/-- The sign of a detached text is read without what follows it. -/
lemma takePunctuation?_append (hu : u ≠ []) (h : Detached u k) :
    takePunctuation? (u ++ k) =
      (takePunctuation? u).map fun (p, rest) => (p, rest ++ k) := by
  have hsign : ∀ p ∈ signs, (if p.toList.isPrefixOf (u ++ k) then some (p, (u ++ k).drop p.length)
      else none) =
      (if p.toList.isPrefixOf u then some (p, u.drop p.length) else none).map
        fun (p, rest) => (p, rest ++ k) := by
    intro p hp
    have hpre : p.toList.isPrefixOf (u ++ k) = p.toList.isPrefixOf u := by
      obtain ⟨c, q, hpq, hq⟩ := tail_signs p hp
      rw [hpq]
      cases u with
      | nil => exact absurd rfl hu
      | cons d u =>
        simp only [List.cons_append, List.isPrefixOf]
        rw [isPrefixOf_append_of_sign hq h.stops]
    rw [hpre]
    split
    · rename_i hprefix
      have hlength : p.length ≤ u.length := by
        rw [← String.length_toList]
        exact (List.isPrefixOf_iff_prefix.1 hprefix).length_le
      rw [List.drop_append_of_le_length hlength]
      rfl
    · rfl
  -- The signs are tried in turn, and each of them is found in both texts or in neither.
  unfold takePunctuation?
  generalize signs = l at hsign
  induction l with
  | nil => rfl
  | cons p l ih =>
    rw [List.findSome?_cons, List.findSome?_cons, hsign p (by simp)]
    cases hp : (if p.toList.isPrefixOf u then some (p, u.drop p.length) else none) with
    | none =>
      simp only [Option.map_none]
      exact ih fun q hq => hsign q (by simp [hq])
    | some r => rfl

/-- Whether a character begins a quoted text. -/
def isQuote (c : Char) : Bool := c == '\'' || c == '"'

/-- The characters of a name in a detached text are found without what follows it. -/
lemma span_append (h : Detached u k) :
    (u ++ k).takeWhile continuesName = u.takeWhile continuesName ∧
      (u ++ k).dropWhile continuesName = u.dropWhile continuesName ++ k := by
  induction u with
  | nil =>
    cases k with
    | nil => exact ⟨rfl, rfl⟩
    | cons b k => simp [continuesName_of_isDelimiter h.nil]
  | cons c u ih =>
    by_cases hc : continuesName c
    · simpa [hc] using ih (h.tail (.inl hc))
    · simp [hc]

/-- The token at the beginning of a detached text does not depend on what follows the text. -/
theorem take?_append {c : Char} (hc : isQuote c = false) (h : Detached (c :: u) k) :
    take? (c :: (u ++ k)) = (take? (c :: u)).map (followedBy k) := by
  have hnum : (c.isDigit || (c == '.' && (u ++ k).head?.any Char.isDigit)) =
      (c.isDigit || (c == '.' && u.head?.any Char.isDigit)) := by
    cases u with
    | cons d u => rfl
    | nil =>
      cases k with
      | nil => rfl
      | cons b k => simp [h.head.1]
  have hquote : ¬ (c = '\'' ∨ c = '"') := by simpa [isQuote] using hc
  obtain ⟨htake, hdrop⟩ := span_append h
  rw [List.cons_append] at htake hdrop
  simp only [take?, hnum, hquote, if_false, htake, hdrop]
  split
  · exact takeNumeral?_append (List.cons_ne_nil c u) h
  · split
    · split <;> rfl
    · have hsign := takePunctuation?_append (List.cons_ne_nil c u) h
      rw [List.cons_append] at hsign
      rw [hsign]
      cases takePunctuation? (c :: u) <;> rfl

section
variable {s r : List Char} {t : Token}

/-- Digits are read off the beginning of a text. -/
lemma takeDigits_suffix (afterDigit : Bool) (s : List Char) : (takeDigits afterDigit s).2 <:+ s := by
  obtain ⟨v, hv, -⟩ := takeDigits_spec afterDigit s
  exact ⟨v, hv.symm⟩

/-- Some digits that are read shorten a text. -/
lemma takeDigits_shorter (afterDigit : Bool) (s : List Char) (h : (takeDigits afterDigit s).1 ≠ []) :
    (takeDigits afterDigit s).2.length < s.length := by
  fun_cases takeDigits afterDigit s with
  | case1 => exact absurd rfl h
  | case2 d rest hd ds rest' heq =>
    have := (takeDigits_suffix true rest).length_le
    rw [heq] at this
    exact Nat.lt_of_le_of_lt this (Nat.lt_of_succ_lt (Nat.lt_succ_self _))
  | case3 d rest hd => simp [takeDigits, hd] at h
  | case4 c rest hc hd ds rest' heq =>
    have := (takeDigits_suffix true rest).length_le
    rw [heq] at this
    exact Nat.lt_succ_of_le this
  | case5 c rest hc hd =>
    exfalso
    rw [takeDigits] at h
    · simp [hd] at h
    · exact hc

/-- The places are read off the beginning of a text. -/
lemma takePlaces_suffix (s : List Char) : (takePlaces s).2 <:+ s := by
  unfold takePlaces
  split
  · exact (takeDigits_suffix false _).trans (List.suffix_cons _ _)
  · exact List.suffix_refl _

/-- Some places that are read shorten a text. -/
lemma takePlaces_shorter (s : List Char) (h : (takePlaces s).1 ≠ []) :
    (takePlaces s).2.length < s.length := by
  unfold takePlaces at h ⊢
  split at h
  · exact Nat.lt_succ_of_le (takeDigits_suffix false _).length_le
  · exact absurd rfl h

/-- An exponent is read off the beginning of a text. -/
lemma takeExponent_suffix (s : List Char) : (takeExponent s).2 <:+ s := by
  cases s with
  | nil => exact List.suffix_refl _
  | cons c rest =>
    by_cases hc : c = 'e' ∨ c = 'E'
    · obtain ⟨v, hv⟩ := takeSign_spec rest
      have hdigits := (takeDigits_suffix false (takeSign rest).2).trans ⟨v, hv.symm⟩
      simp only [takeExponent, hc, if_true]
      cases hd : takeDigits false (takeSign rest).2 with
      | mk ds rest' =>
        rw [hd] at hdigits
        cases ds with
        | nil => exact List.suffix_refl _
        | cons d ds => exact hdigits.trans (List.suffix_cons _ _)
    · simp only [takeExponent, hc, if_false]
      exact List.suffix_refl _

/-- A decimal is read off the beginning of a text, and shortens it. -/
lemma takeDecimal?_suffix {n : Nat} {e : Int} (h : takeDecimal? s = some (n, e, r)) :
    r <:+ s ∧ r.length < s.length := by
  rw [takeDecimal?_eq] at h
  dsimp only at h
  split at h
  · cases h
  · rename_i hne
    cases h
    have h1 := takeDigits_suffix false s
    have h2 := takePlaces_suffix (takeDigits false s).2
    have h3 := takeExponent_suffix (takePlaces (takeDigits false s).2).2
    refine ⟨(h3.trans h2).trans h1, ?_⟩
    simp only [Bool.and_eq_true, List.isEmpty_iff, not_and_or] at hne
    obtain hne | hne := hne
    · exact Nat.lt_of_le_of_lt (h3.trans h2).length_le (takeDigits_shorter false s hne)
    · exact Nat.lt_of_le_of_lt h3.length_le
        (Nat.lt_of_lt_of_le (takePlaces_shorter _ hne) h1.length_le)

/-- The digits of a base are read off the beginning of a text. -/
lemma takeBaseDigits_suffix (base n : Nat) (any : Bool) (s : List Char) :
    (takeBaseDigits base n any s).2.2 <:+ s := by
  fun_induction takeBaseDigits base n any s with
  | case1 => exact List.suffix_refl _
  | case2 => exact List.nil_suffix
  | case3 => exact List.suffix_refl _
  | case4 n any c c' rest d hc ih => exact ih.trans (List.suffix_cons _ _)
  | case5 n any c' rest d hd hc ih =>
    exact ih.trans ((List.suffix_cons _ _).trans (List.suffix_cons _ _))
  | case6 => exact List.suffix_refl _
  | case7 => exact List.suffix_refl _

/-- A numeral with a base is read off the beginning of a text. -/
lemma takeBased_suffix (base : Nat) (h : takeBased base s = some (t, r)) : r <:+ s := by
  have hs := takeBaseDigits_suffix base 0 false s
  unfold takeBased at h
  split at h
  · rename_i heq
    rw [heq] at hs
    split at h
    · cases h
      exact hs
    · cases h
  · cases h

/-- Finishing a numeral reads nothing more. -/
lemma finish_eq {n : Nat} {e : Int} {whole : Bool} {written rest : List Char}
    (h : takeNumeral?.finish n e whole written rest = some (t, r)) : r = rest := by
  unfold takeNumeral?.finish at h
  split at h
  · cases h
  · split at h
    · cases h
      rfl
    · split at h
      · cases h
      · split at h
        · cases h
        · cases h
          rfl

/-- A numeral without a mark is read off the beginning of a text, and shortens it. -/
lemma plain_suffix (h : takeNumeral?.plain s = some (t, r)) : r <:+ s ∧ r.length < s.length := by
  unfold takeNumeral?.plain at h
  simp only [Option.bind_eq_bind, Option.bind_eq_some_iff] at h
  obtain ⟨⟨n, e, rest⟩, hd, h⟩ := h
  obtain ⟨hsuffix, hlength⟩ := takeDecimal?_suffix hd
  dsimp only at h
  split at h
  · split at h
    · split at h
      · cases h
        exact ⟨(List.suffix_cons _ _).trans hsuffix, Nat.lt_of_succ_lt hlength⟩
      · cases h
    · rw [finish_eq h]
      exact ⟨hsuffix, hlength⟩
  · rw [finish_eq h]
    exact ⟨hsuffix, hlength⟩

/-- A numeral is read off the beginning of a text, and shortens it. -/
lemma takeNumeral?_suffix (h : takeNumeral? s = some (t, r)) : r <:+ s ∧ r.length < s.length := by
  obtain h | ⟨base, c, rest, rfl, -, h⟩ := takeNumeral?_cases h
  · exact plain_suffix h
  · have hsuffix := takeBased_suffix base h
    refine ⟨hsuffix.trans ((List.suffix_cons _ _).trans (List.suffix_cons _ _)), ?_⟩
    have := hsuffix.length_le
    simp only [List.length_cons]
    omega

/-- A token takes away at least one character. -/
theorem take?_suffix {c : Char} (hc : isQuote c = false) (h : take? (c :: s) = some (t, r)) :
    r <:+ s := by
  have hquote : ¬ (c = '\'' ∨ c = '"') := by simpa [isQuote] using hc
  have htail : r <:+ c :: s ∧ r.length < (c :: s).length → r <:+ s := by
    rintro ⟨hsuffix, hlength⟩
    obtain rfl | hsuffix := List.suffix_cons_iff.1 hsuffix
    · exact absurd hlength (Nat.lt_irrefl _)
    · exact hsuffix
  simp only [take?, hquote, if_false] at h
  split at h
  · exact htail (takeNumeral?_suffix h)
  · split at h
    · rename_i hname
      split at h
      · cases h
      · cases h
        simpa [hname] using List.dropWhile_suffix (l := s) continuesName
    · simp only [Option.map_eq_some_iff] at h
      obtain ⟨⟨p, rest⟩, hp, h⟩ := h
      cases h
      unfold takePunctuation? at hp
      obtain ⟨q, hq, hp⟩ := List.exists_of_findSome?_eq_some hp
      split at hp
      · cases hp
        obtain ⟨d, l, hl, -⟩ := tail_signs _ hq
        have hpos : 0 < p.length := by
          rw [← String.length_toList, hl]
          exact Nat.succ_pos _
        refine htail ⟨List.drop_suffix _ _, ?_⟩
        simp only [List.length_drop, List.length_cons]
        omega
      · cases hp

end

end Formulary.Token
