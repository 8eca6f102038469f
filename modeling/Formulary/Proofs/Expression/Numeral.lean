import Formulary.Proofs.Expression.Boundary

/-!
# Numerals

A numeral is a text that is read as one token, the number that it denotes. It consists of letters
and digits of ASCII, underscores, points and signs, where letters and underscores only continue
something (`Numeral.spelled`). It is read in the same way wherever a character follows that could
not continue it (`Numeral.take?_append`).
-/

namespace Formulary

/-- The number that a numeral denotes. -/
inductive Literal where
  | integer (n : Nat)
  | decimal (coefficient : Nat) (exponent : Int)
  | imaginary (coefficient : Nat) (exponent : Int)
  deriving Repr, DecidableEq

/-- The token of a numeral. -/
def Literal.token : Literal → Token
  | .integer n => .integer n
  | .decimal n e => .decimal n e
  | .imaginary n e => .imaginary n e

/-- A text that is read as one numeral. -/
structure Numeral where
  text : List Char
  literal : Literal
  reads : Token.take? text = some (literal.token, [])

namespace Token

open Formulary.Number

/-- Whether a character may stand behind another one in a numeral. -/
def numeralNext (a b : Char) : Bool :=
  b.isDigit || b == '.' || b == '+' || b == '-' || b == '_' && a.isAlphanum ||
    b.isAlpha && (a.isAlphanum || a == '_' || a == '.')

/-- Whether a character may stand in a numeral. -/
def isNumeralChar (c : Char) : Bool :=
  c.isAlphanum || c == '_' || c == '.' || c == '+' || c == '-'

/-- A text in which letters and underscores stand as in a numeral. -/
structure IsSpelled (s : List Char) : Prop where
  chars : ∀ c ∈ s, isNumeralChar c
  chain : s.IsChain fun a b => numeralNext a b

variable {s t u k : List Char} {c : Char}

/-- The empty text is spelled like a numeral. -/
lemma IsSpelled.nil : IsSpelled [] := ⟨nofun, .nil⟩

/-- Texts that are spelled like numerals may follow each other where their characters may. -/
lemma IsSpelled.append (hs : IsSpelled s) (ht : IsSpelled t)
    (h : ∀ a ∈ s.getLast?, ∀ b ∈ t.head?, numeralNext a b) : IsSpelled (s ++ t) where
  chars c hc := (List.mem_append.1 hc).elim (hs.chars c) (ht.chars c)
  chain := List.isChain_append.2 ⟨hs.chain, ht.chain, h⟩

/-- A character may stand in front of a text that is spelled like a numeral. -/
lemma IsSpelled.cons (hc : isNumeralChar c) (ht : IsSpelled t)
    (h : ∀ b ∈ t.head?, numeralNext c b) : IsSpelled (c :: t) :=
  .append (s := [c]) ⟨by simpa using hc, .singleton c⟩ ht (by simpa using h)

/-- Letters and digits may stand in a numeral. -/
lemma isNumeralChar_of_isAlphanum (h : c.isAlphanum) : isNumeralChar c := by
  simp [isNumeralChar, h]

/-- A digit may stand behind any character of a numeral. -/
lemma numeralNext_of_isDigit {a : Char} (h : c.isDigit) : numeralNext a c := by
  simp [numeralNext, h]

/-- Digits are letters or digits. -/
lemma isAlphanum_of_isDigit (h : c.isDigit) : c.isAlphanum := by simp [Char.isAlphanum, h]

/-- Digits and underscores between them are spelled as in a numeral. -/
lemma takeDigits_spelled (afterDigit : Bool) (s : List Char) :
    ∃ v, s = v ++ (takeDigits afterDigit s).2 ∧ IsSpelled v ∧
      (∀ b ∈ v.head?, b.isDigit ∨ b = '_' ∧ afterDigit) ∧ (∀ a ∈ v.getLast?, a.isDigit) ∧
      (v = [] ↔ (takeDigits afterDigit s).1 = []) := by
  -- One more character in front of what was read.
  have step {d : Char} {v : List Char} (hd : d.isDigit) (hv : IsSpelled v)
      (hhead : ∀ b ∈ v.head?, b.isDigit ∨ b = '_' ∧ true = true) : IsSpelled (d :: v) := by
    refine .cons (isNumeralChar_of_isAlphanum (isAlphanum_of_isDigit hd)) hv fun b hb => ?_
    obtain hb | ⟨rfl, -⟩ := hhead b hb
    · exact numeralNext_of_isDigit hb
    · simp [numeralNext, isAlphanum_of_isDigit hd]
  have last {d : Char} {v : List Char} (hd : d.isDigit) (hv : ∀ a ∈ v.getLast?, a.isDigit) :
      ∀ a ∈ (d :: v).getLast?, a.isDigit := by
    intro a ha
    cases v with
    | nil =>
      cases ha
      exact hd
    | cons b v => exact hv a (by simpa using ha)
  fun_induction takeDigits afterDigit s with
  | case1 => exact ⟨[], rfl, .nil, by simp, by simp, by simp⟩
  | case2 afterDigit d rest h ds rest' heq ih =>
    obtain ⟨v, hv, hspelled, hhead, hlast, -⟩ := ih
    rw [heq] at hv
    simp only [Bool.and_eq_true] at h
    refine ⟨'_' :: d :: v, by simpa using hv, ?_, by simp [h.1], ?_, by simp⟩
    · refine .cons (by decide) (step h.2 hspelled hhead) ?_
      simpa using numeralNext_of_isDigit h.2
    · simpa using last h.2 hlast
  | case3 => exact ⟨[], rfl, .nil, by simp, by simp, by simp⟩
  | case4 afterDigit c rest hc h ds rest' heq ih =>
    obtain ⟨v, hv, hspelled, hhead, hlast, -⟩ := ih
    rw [heq] at hv
    exact ⟨c :: v, by simpa using hv, step h hspelled hhead, by simp [h], last h hlast, by simp⟩
  | case5 => exact ⟨[], rfl, .nil, by simp, by simp, by simp⟩

/-- The sign that is read is a minus or a plus, or nothing. -/
lemma takeSign_spelled (s : List Char) :
    ∃ v, s = v ++ (takeSign s).2 ∧ (v = [] ∨ v = ['-'] ∨ v = ['+']) := by
  unfold takeSign
  split
  · exact ⟨['-'], rfl, .inr (.inl rfl)⟩
  · exact ⟨['+'], rfl, .inr (.inr rfl)⟩
  · exact ⟨[], rfl, .inl rfl⟩

/-- An exponent is spelled as in a numeral, and ends with a digit. -/
lemma takeExponent_spelled (s : List Char) :
    ∃ v, s = v ++ (takeExponent s).2 ∧ IsSpelled v ∧ (∀ b ∈ v.head?, b.isAlpha) ∧
      ∀ a ∈ v.getLast?, a.isDigit := by
  cases s with
  | nil => exact ⟨[], rfl, .nil, nofun, nofun⟩
  | cons c rest =>
    by_cases hc : c = 'e' ∨ c = 'E'
    · have halpha : c.isAlpha := by obtain rfl | rfl := hc <;> decide
      obtain ⟨v, hv, hsign⟩ := takeSign_spelled rest
      obtain ⟨w, hw, hspelled, hhead, hlast, hnil⟩ := takeDigits_spelled false (takeSign rest).2
      simp only [takeExponent, hc, if_true]
      cases hd : takeDigits false (takeSign rest).2 with
      | mk ds rest' =>
        rw [hd] at hw hnil
        cases ds with
        | nil => exact ⟨[], rfl, .nil, nofun, nofun⟩
        | cons d ds =>
          have hne : w ≠ [] := fun hw => by cases hnil.1 hw
          refine ⟨c :: (v ++ w), by simpa [← hw] using hv, ?_, by simpa using halpha, fun a ha => ?_⟩
          rotate_left
          · refine hlast a ?_
            rwa [← List.cons_append, List.getLast?_append, List.getLast?_eq_some_getLast hne,
              Option.some_or, ← List.getLast?_eq_some_getLast hne] at ha
          have hdigit : ∀ a, ∀ b ∈ w.head?, numeralNext a b := by
            intro a b hb
            obtain hb | ⟨-, hfalse⟩ := hhead b hb
            · exact numeralNext_of_isDigit hb
            · cases hfalse
          have hchar : isNumeralChar c := by simp [isNumeralChar, Char.isAlphanum, halpha]
          obtain rfl | rfl | rfl := hsign
          · exact .cons hchar hspelled (hdigit c)
          · exact .cons hchar (.cons (by decide) hspelled (hdigit '-')) (by simp [numeralNext])
          · exact .cons hchar (.cons (by decide) hspelled (hdigit '+')) (by simp [numeralNext])
    · exact ⟨[], by simp [takeExponent, hc], .nil, nofun, nofun⟩

/-- A point and the places after it are spelled as in a numeral. -/
lemma takePlaces_spelled (s : List Char) :
    ∃ v, s = v ++ (takePlaces s).2 ∧ IsSpelled v ∧ (∀ b ∈ v.head?, b = '.') ∧
      (∀ a ∈ v.getLast?, a.isDigit ∨ a = '.') ∧
      ((takePlaces s).1 ≠ [] → ∃ d t, v = '.' :: d :: t ∧ d.isDigit) := by
  unfold takePlaces
  split
  · rename_i rest
    obtain ⟨w, hw, hspelled, hhead, hlast, hnil⟩ := takeDigits_spelled false rest
    have hdigit : ∀ b ∈ w.head?, b.isDigit := fun b hb => (hhead b hb).resolve_right (by simp)
    refine ⟨'.' :: w, by simpa using hw, .cons (by decide) hspelled fun b hb =>
      numeralNext_of_isDigit (hdigit b hb), by simp, fun a ha => ?_, fun hne => ?_⟩
    · cases w with
      | nil =>
        cases ha
        exact .inr rfl
      | cons d w => exact .inl (hlast a (by simpa using ha))
    · cases w with
      | nil => exact absurd (hnil.1 rfl) hne
      | cons d w => exact ⟨d, w, rfl, hdigit d rfl⟩
  · exact ⟨[], rfl, .nil, nofun, nofun, fun h => absurd rfl h⟩

/-- How a numeral can begin. -/
def BeginsNumeral (s : List Char) : Prop :=
  ∃ c t, s = c :: t ∧ (c.isDigit ∨ c = '.' ∧ ∃ d ∈ t.head?, d.isDigit)

/-- A numeral may go on after its beginning. -/
lemma BeginsNumeral.append (h : BeginsNumeral s) : BeginsNumeral (s ++ t) := by
  obtain ⟨c, u, rfl, hc⟩ := h
  refine ⟨c, u ++ t, rfl, hc.imp_right fun ⟨hpoint, d, hd, hdigit⟩ => ⟨hpoint, d, ?_, hdigit⟩⟩
  simp [List.head?_append, Option.mem_def.1 hd]

/-- An unsigned decimal is spelled as a numeral. -/
lemma takeDecimal?_spelled {n : Nat} {e : Int} {rest : List Char}
    (h : takeDecimal? s = some (n, e, rest)) :
    ∃ v, s = v ++ rest ∧ IsSpelled v ∧ BeginsNumeral v ∧ ∀ a ∈ v.getLast?, a.isDigit ∨ a = '.' := by
  rw [takeDecimal?_eq] at h
  dsimp only at h
  split at h
  · cases h
  · rename_i hne
    cases h
    obtain ⟨x, hx, hsx, hhx, hlx, hxnil⟩ := takeDigits_spelled false s
    obtain ⟨y, hy, hsy, hhy, hly, hyne⟩ := takePlaces_spelled (takeDigits false s).2
    obtain ⟨z, hz, hsz, hhz, hlz⟩ := takeExponent_spelled (takePlaces (takeDigits false s).2).2
    -- The digits `x`, the places `y` and the exponent `z`. Without digits there are places, so
    -- that a point with a digit behind it comes first.
    have hstart : BeginsNumeral (x ++ y) := by
      cases x with
      | nil =>
        have hplaces : (takePlaces (takeDigits false s).2).1 ≠ [] := by
          rintro heq
          exact hne (by simp [hxnil.1 rfl, heq])
        obtain ⟨d, t, rfl, hd⟩ := hyne hplaces
        exact ⟨'.', d :: t, rfl, .inr ⟨rfl, d, rfl, hd⟩⟩
      | cons c x => exact ⟨c, x ++ y, rfl, .inl ((hhx c rfl).resolve_right (by simp))⟩
    have hmantissa : IsSpelled (x ++ y) := .append hsx hsy fun a ha b hb => by
      rw [hhy b hb]
      simp [numeralNext]
    have hlast : ∀ a ∈ (x ++ y).getLast?, a.isDigit ∨ a = '.' := by
      intro a ha
      rw [List.getLast?_append] at ha
      cases hyl : y.getLast? with
      | none => exact .inl (hlx a (by simpa [hyl] using ha))
      | some b =>
        obtain rfl : b = a := by simpa [hyl] using ha
        exact hly b hyl
    have hspelled : IsSpelled (x ++ y ++ z) := .append hmantissa hsz fun a ha b hb => by
      obtain ha | rfl := hlast a ha
      · simp [numeralNext, hhz b hb, isAlphanum_of_isDigit ha]
      · simp [numeralNext, hhz b hb]
    refine ⟨x ++ y ++ z, ?_, hspelled, hstart.append, ?_⟩
    · rw [List.append_assoc, List.append_assoc, ← hz, ← hy, ← hx]
    · intro a ha
      rw [List.getLast?_append] at ha
      cases hzl : z.getLast? with
      | none => exact hlast a (by simpa [hzl] using ha)
      | some b =>
        obtain rfl : b = a := by simpa [hzl] using ha
        exact .inl (hlz b hzl)

/-- Letters, digits and underscores may follow letters and digits. -/
lemma numeralNext_of_isAlphanum {a b : Char} (ha : a.isAlphanum) (hb : b.isAlphanum ∨ b = '_') :
    numeralNext a b := by
  obtain hb | rfl := hb
  · obtain hb | hb : b.isAlpha ∨ b.isDigit := by simpa [Char.isAlphanum] using hb
    · simp [numeralNext, ha, hb]
    · exact numeralNext_of_isDigit hb
  · simp [numeralNext, ha]

/-- The digits in a base are spelled as in a numeral. -/
lemma takeBaseDigits_spelled (base n : Nat) (any : Bool) (s : List Char) :
    ∃ v, s = v ++ (takeBaseDigits base n any s).2.2 ∧ IsSpelled v ∧
      ∀ b ∈ v.head?, b.isAlphanum ∨ b = '_' := by
  have step {d : Char} {v : List Char} (hd : d.isAlphanum) (hv : IsSpelled v)
      (hhead : ∀ b ∈ v.head?, b.isAlphanum ∨ b = '_') : IsSpelled (d :: v) :=
    .cons (isNumeralChar_of_isAlphanum hd) hv fun b hb => numeralNext_of_isAlphanum hd (hhead b hb)
  fun_induction takeBaseDigits base n any s with
  | case1 | case3 | case6 | case7 => exact ⟨[], rfl, .nil, by simp⟩
  | case2 n any c d hc =>
    have hd := isAlphanum_of_digitBelow hc
    exact ⟨[c], rfl, step hd .nil (by simp), by simp [hd]⟩
  | case4 n any c c' rest d hc ih =>
    obtain ⟨v, hv, hspelled, hhead⟩ := ih
    have hd := isAlphanum_of_digitBelow hc
    exact ⟨c :: v, by simpa using hv, step hd hspelled hhead, by simp [hd]⟩
  | case5 n any c' rest d hd hc ih =>
    obtain ⟨v, hv, hspelled, hhead⟩ := ih
    have hd := isAlphanum_of_digitBelow hd
    refine ⟨'_' :: c' :: v, by simpa using hv, .cons (by decide) (step hd hspelled hhead) ?_, by simp⟩
    obtain hd | hd : c'.isAlpha ∨ c'.isDigit := by simpa [Char.isAlphanum] using hd
    · simp [numeralNext, hd]
    · simpa using numeralNext_of_isDigit hd

/-- After the decimal of a complete numeral there is nothing or an imaginary unit. -/
lemma plain_rest {t : Token} (h : takeNumeral?.plain s = some (t, [])) :
    ∃ n e rest, takeDecimal? s = some (n, e, rest) ∧ (rest = [] ∨ rest = ['j'] ∨ rest = ['J']) := by
  unfold takeNumeral?.plain at h
  simp only [Option.bind_eq_bind, Option.bind_eq_some_iff] at h
  obtain ⟨⟨n, e, rest⟩, hd, h⟩ := h
  refine ⟨n, e, rest, hd, ?_⟩
  dsimp only at h
  split at h
  · rename_i c rest
    split at h
    · rename_i hc
      split at h
      · cases h
        obtain rfl | rfl := hc
        · exact .inr (.inl rfl)
        · exact .inr (.inr rfl)
      · cases h
    · cases finish_eq h
  · exact .inl rfl

/-- A numeral without a mark is spelled and begins like one. -/
lemma plain_spelled {t : Token} (h : takeNumeral?.plain s = some (t, [])) :
    IsSpelled s ∧ BeginsNumeral s := by
  obtain ⟨n, e, rest, hd, hrest⟩ := plain_rest h
  obtain ⟨v, rfl, hspelled, hstart, hlast⟩ := takeDecimal?_spelled hd
  have hunit : IsSpelled rest ∧ ∀ b ∈ rest.head?, b.isAlpha := by
    obtain rfl | rfl | rfl := hrest
    · exact ⟨.nil, nofun⟩
    · exact ⟨.cons (by decide) .nil nofun, by simp⟩
    · exact ⟨.cons (by decide) .nil nofun, by simp⟩
  refine ⟨.append hspelled hunit.1 fun a ha b hb => ?_, hstart.append⟩
  have hb := hunit.2 b hb
  obtain ha | rfl := hlast a ha
  · exact numeralNext_of_isAlphanum (isAlphanum_of_isDigit ha) (by simp [Char.isAlphanum, hb])
  · simp [numeralNext, hb]

/-- A numeral with a mark of a base is spelled like one. -/
lemma takeBased_spelled {base : Nat} {t : Token} (hc : c.isAlpha)
    (h : takeBased base s = some (t, [])) : IsSpelled ('0' :: c :: s) := by
  obtain ⟨v, hv, hspelled, hhead⟩ := takeBaseDigits_spelled base 0 false s
  unfold takeBased at h
  have hs : s = v := by
    split at h
    · rename_i heq
      split at h
      · cases h
        simpa [heq] using hv
      · cases h
    · cases h
  have halphanum : c.isAlphanum := by simp [Char.isAlphanum, hc]
  rw [hs]
  refine .cons (by decide) (.cons (isNumeralChar_of_isAlphanum halphanum) hspelled fun b hb =>
    numeralNext_of_isAlphanum halphanum (hhead b hb)) ?_
  simpa using numeralNext_of_isAlphanum (a := '0') (by decide) (.inl halphanum)

/-- A numeral is spelled and begins like one. -/
lemma takeNumeral?_spelled {t : Token} (h : takeNumeral? s = some (t, [])) :
    IsSpelled s ∧ BeginsNumeral s := by
  obtain h | ⟨base, c, rest, rfl, hc, h⟩ := takeNumeral?_cases h
  · exact plain_spelled h
  · exact ⟨takeBased_spelled hc h, '0', c :: rest, rfl, .inl (by decide)⟩

/-- A text at whose beginning no numeral and no name goes on. -/
def Ends (k : List Char) : Prop := ∀ c ∈ k.head?, continuesName c = false ∧ c ≠ '.'

/-- No digits go on where a numeral ends. -/
lemma Ends.startsOff (h : Ends k) : StartsOff k := by
  intro b hb
  have hb := (h b hb).1
  refine ⟨?_, ?_⟩
  · by_contra hdigit
    rw [Bool.not_eq_false] at hdigit
    rw [continuesName_of_isAlphanum (isAlphanum_of_isDigit hdigit)] at hb
    cases hb
  · rintro rfl
    cases hb

/-- A numeral ends where none goes on. -/
lemma endsNumeral_of_ends (h : Ends k) : endsNumeral k := by
  cases k with
  | nil => rfl
  | cons c k => simp [endsNumeral, (h c rfl).1]

/-- Places are read up to where a numeral ends. -/
lemma takePlaces_append_of_ends (h : Ends k) (u : List Char) :
    takePlaces (u ++ k) = ((takePlaces u).1, (takePlaces u).2 ++ k) := by
  cases u with
  | nil =>
    cases k with
    | nil => rfl
    | cons b k =>
      have hb : b ≠ '.' := (h b rfl).2
      show takePlaces (b :: k) = ([], b :: k)
      unfold takePlaces
      split <;> simp_all
  | cons c u =>
    by_cases hc : c = '.'
    · subst hc
      exact takeDigits_append false u h.startsOff
    · simp only [List.cons_append]
      unfold takePlaces
      split <;> simp_all

/-- An exponent does not depend on what follows, unless its mark is all that there is. -/
lemma takeExponent_append_of_ends (h : Ends k) (hu : u ≠ ['e'] ∧ u ≠ ['E']) :
    takeExponent (u ++ k) = ((takeExponent u).1, (takeExponent u).2 ++ k) := by
  cases u with
  | nil =>
    cases k with
    | nil => rfl
    | cons b k =>
      have hb : ¬ (b = 'e' ∨ b = 'E') := by
        rintro (rfl | rfl) <;> exact absurd (h _ rfl).1 (by decide)
      simp [takeExponent, hb]
  | cons c u =>
    by_cases hc : c = 'e' ∨ c = 'E'
    · have hne : u ≠ [] := by
        rintro rfl
        obtain rfl | rfl := hc
        · exact hu.1 rfl
        · exact hu.2 rfl
      have hsign : takeSign (u ++ k) = ((takeSign u).1, (takeSign u).2 ++ k) := by
        cases u with
        | nil => exact absurd rfl hne
        | cons d u =>
          simp only [List.cons_append]
          unfold takeSign
          split <;> simp_all
      simp only [takeExponent, List.cons_append, hc, if_true, hsign,
        takeDigits_append false _ h.startsOff]
      cases hd : takeDigits false (takeSign u).2 with
      | mk ds rest => cases ds <;> simp
    · simp [takeExponent, hc]

/-- A decimal is read up to where a numeral ends, unless it leaves the mark of an exponent. -/
lemma takeDecimal?_append_of_ends (h : Ends k) {n : Nat} {e : Int} {rest : List Char}
    (hd : takeDecimal? u = some (n, e, rest)) (hrest : rest ≠ ['e'] ∧ rest ≠ ['E']) :
    takeDecimal? (u ++ k) = some (n, e, rest ++ k) := by
  rw [takeDecimal?_eq] at hd
  dsimp only at hd
  split at hd
  · cases hd
  · rename_i hne
    cases hd
    have hmark : ∀ {v}, v = ['e'] ∨ v = ['E'] → (takeExponent v).2 = v := by
      rintro v (rfl | rfl) <;> rfl
    have hexponent := takeExponent_append_of_ends h (u := (takePlaces (takeDigits false u).2).2)
      ⟨fun heq => hrest.1 ((hmark (.inl heq)).trans heq),
        fun heq => hrest.2 ((hmark (.inr heq)).trans heq)⟩
    rw [takeDecimal?_eq]
    simp only [takeDigits_append false u h.startsOff, takePlaces_append_of_ends h, hexponent]
    rw [if_neg hne]

/-- A numeral is finished where it ends. -/
lemma finish_append_of_ends (h : Ends k) {n : Nat} {e : Int} {whole : Bool} {written : List Char}
    {t : Token} (ht : takeNumeral?.finish n e whole written [] = some (t, [])) :
    takeNumeral?.finish n e whole written k = some (t, k) := by
  unfold takeNumeral?.finish at ht ⊢
  simp only [endsNumeral_of_ends h, Bool.not_true, Bool.false_eq_true, if_false]
  simp only [show endsNumeral [] = true from rfl, Bool.not_true, Bool.false_eq_true, if_false] at ht
  repeat' split at ht
  all_goals simp_all

/-- A numeral without a mark is read up to where it ends. -/
lemma plain_append_of_ends (h : Ends k) {t : Token}
    (ht : takeNumeral?.plain u = some (t, [])) : takeNumeral?.plain (u ++ k) = some (t, k) := by
  obtain ⟨n, e, rest, hd, hrest⟩ := plain_rest ht
  have hmark : rest ≠ ['e'] ∧ rest ≠ ['E'] := by
    obtain rfl | rfl | rfl := hrest <;> decide
  have happend := takeDecimal?_append_of_ends h hd hmark
  have hwritten : (u ++ k).take ((u ++ k).length - (rest ++ k).length) =
      u.take (u.length - rest.length) := by
    rw [List.length_append, List.length_append, Nat.add_sub_add_right,
      List.take_append_of_le_length (Nat.sub_le _ _)]
  unfold takeNumeral?.plain at ht ⊢
  rw [happend]
  rw [hd] at ht
  simp only [Option.bind_eq_bind, Option.bind_some, hwritten] at ht ⊢
  have hunit : ∀ {t' : Token}, (if endsNumeral [] then some (t', ([] : List Char)) else none) =
      some (t, []) → (if endsNumeral k then some (t', k) else none) = some (t, k) := by
    intro t' ht'
    rw [if_pos (endsNumeral_of_ends h)]
    rw [if_pos (show endsNumeral [] = true from rfl)] at ht'
    cases ht'
    rfl
  obtain rfl | rfl | rfl := hrest
  · cases k with
    | nil => exact ht
    | cons b k =>
      have hb : ¬ (b = 'j' ∨ b = 'J') := by
        rintro (rfl | rfl) <;> exact absurd (h _ rfl).1 (by decide)
      simp only [List.nil_append, hb, if_false]
      exact finish_append_of_ends h ht
  · exact hunit ht
  · exact hunit ht

/-- No digit of a base stands where a numeral ends. -/
lemma digitBelow?_of_ends {base : Nat} (hc : continuesName c = false) :
    digitBelow? base c = none := by
  cases hd : digitBelow? base c with
  | none => rfl
  | some d =>
    rw [continuesName_of_digitBelow hd] at hc
    cases hc

/-- The digits of a base are read up to where a numeral ends. -/
lemma takeBaseDigits_append_of_ends (base n : Nat) (any : Bool) (h : Ends k) :
    takeBaseDigits base n any (u ++ k) =
      ((takeBaseDigits base n any u).1, (takeBaseDigits base n any u).2.1,
        (takeBaseDigits base n any u).2.2 ++ k) := by
  have hstop : ∀ n any, takeBaseDigits base n any k = (n, any, k) := by
    intro n any
    cases k with
    | nil => rfl
    | cons b k =>
      have hb := (h b rfl).1
      have hscore : b ≠ '_' := by
        rintro rfl
        cases hb
      cases k <;> simp [takeBaseDigits, digitBelow?_of_ends hb, hscore]
  fun_induction takeBaseDigits base n any u with
  | case1 n any => exact hstop n any
  | case2 n any c d hc =>
    cases k with
    | nil => simp [takeBaseDigits, hc]
    | cons b k => simp [takeBaseDigits, hc, hstop]
  | case3 n any c hc =>
    cases k with
    | nil => simp [takeBaseDigits, hc]
    | cons b k =>
      by_cases hscore : c = '_'
      · subst hscore
        simp [takeBaseDigits, hc, digitBelow?_of_ends (h b rfl).1]
      · simp [takeBaseDigits, hc, hscore]
  | case4 n any c c' rest d hc ih => simp [takeBaseDigits, hc, ← ih]
  | case5 n any c' rest d hd hc ih => simp [takeBaseDigits, hc, hd, ← ih]
  | case6 n any c' rest hd hc => simp [takeBaseDigits, hc, hd]
  | case7 n any c c' rest hc hscore => simp [takeBaseDigits, hc, hscore]

/-- A numeral with a mark of a base is read up to where it ends. -/
lemma takeBased_append_of_ends (base : Nat) (h : Ends k) {t : Token}
    (ht : takeBased base u = some (t, [])) : takeBased base (u ++ k) = some (t, k) := by
  unfold takeBased at ht ⊢
  rw [takeBaseDigits_append_of_ends base 0 false h]
  rcases hd : takeBaseDigits base 0 false u with ⟨n, any, rest⟩
  rw [hd] at ht
  cases any with
  | false => cases ht
  | true =>
    simp only at ht ⊢
    split at ht
    · cases ht
      rw [List.nil_append, if_pos (endsNumeral_of_ends h)]
    · cases ht

/-- A numeral is read up to where it ends. -/
lemma takeNumeral?_append_of_ends (h : Ends k) {t : Token} (ht : takeNumeral? u = some (t, [])) :
    takeNumeral? (u ++ k) = some (t, k) := by
  have hmark : ∀ {b k'}, k = b :: k' → ¬ (b = 'x' ∨ b = 'X') ∧ ¬ (b = 'o' ∨ b = 'O') ∧
      ¬ (b = 'b' ∨ b = 'B') := by
    rintro b k' rfl
    have hb := (h b rfl).1
    refine ⟨?_, ?_, ?_⟩ <;> rintro (rfl | rfl) <;> exact absurd hb (by decide)
  by_cases hzero : ∃ c rest, u = '0' :: c :: rest
  · obtain ⟨c, rest, rfl⟩ := hzero
    simp only [List.cons_append]
    rw [takeNumeral?_zero] at ht ⊢
    split at ht
    · rename_i hc
      rw [if_pos hc]
      exact takeBased_append_of_ends 16 h ht
    · rename_i hx
      rw [if_neg hx]
      split at ht
      · rename_i hc
        rw [if_pos hc]
        exact takeBased_append_of_ends 8 h ht
      · rename_i ho
        rw [if_neg ho]
        split at ht
        · rename_i hc
          rw [if_pos hc]
          exact takeBased_append_of_ends 2 h ht
        · rename_i hb
          rw [if_neg hb]
          exact plain_append_of_ends h ht
  · have hplain : takeNumeral?.plain u = some (t, []) := by
      unfold takeNumeral? at ht
      split at ht
      · exact absurd ⟨_, _, rfl⟩ hzero
      · exact ht
    have happend := plain_append_of_ends h hplain
    unfold takeNumeral?
    split
    · rename_i c rest heq
      cases u with
      | nil => cases hplain
      | cons d u =>
        obtain ⟨rfl, hrest⟩ : d = '0' ∧ u ++ k = c :: rest := by simpa using heq
        cases u with
        | cons d u => exact absurd ⟨_, _, rfl⟩ hzero
        | nil =>
          obtain ⟨hx, ho, hb⟩ := hmark hrest
          simp only [hx, ho, hb, if_false]
          exact happend
    · exact happend

end Token

namespace Numeral

open Token

/-- Only the reader of numerals reads the token of one. -/
lemma takeNumeral?_eq (n : Numeral) : takeNumeral? n.text = some (n.literal.token, []) := by
  have h := n.reads
  cases hs : n.text with
  | nil =>
    rw [hs] at h
    cases h
  | cons c rest =>
    rw [hs] at h
    simp only [take?] at h
    split at h
    · exact h
    · split at h
      · obtain ⟨_, -, h⟩ := Option.map_eq_some_iff.1 h
        cases hl : n.literal <;> simp [hl, Literal.token] at h
      · split at h
        · split at h
          · cases h
          · simp only [Option.some.injEq, Prod.mk.injEq] at h
            obtain ⟨h, -⟩ := h
            split at h <;> cases hl : n.literal <;> simp [hl, Literal.token] at h
        · obtain ⟨_, -, h⟩ := Option.map_eq_some_iff.1 h
          cases hl : n.literal <;> simp [hl, Literal.token] at h

/-- A numeral is spelled as one. -/
theorem spelled (n : Numeral) : IsSpelled n.text ∧ BeginsNumeral n.text :=
  takeNumeral?_spelled n.takeNumeral?_eq

/-- A numeral is read in the same way wherever neither a numeral nor a name goes on. -/
theorem take?_append (n : Numeral) {k : List Char} (h : Ends k) :
    take? (n.text ++ k) = some (n.literal.token, k) := by
  obtain ⟨c, t, htext, hc⟩ := n.spelled.2
  have hnumeral := takeNumeral?_append_of_ends h n.takeNumeral?_eq
  rw [htext, List.cons_append] at hnumeral ⊢
  have hstart : (c.isDigit || (c == '.' && (t ++ k).head?.any Char.isDigit)) = true := by
    obtain hc | ⟨rfl, d, hd, hdigit⟩ := hc
    · simp [hc]
    · simp [List.head?_append, Option.mem_def.1 hd, hdigit]
  rw [take?, if_pos hstart]
  exact hnumeral

end Numeral
end Formulary
