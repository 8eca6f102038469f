import Formulary.Proofs.Expression.Enclosure
import Formulary.Proofs.Formula.Spelling

/-!
# Texts before a closing parenthesis

A side of a formula is read twice over: alone, and with its aliases numbered on before a closing
parenthesis and more text (`Within`). No numeral goes on with an alias or a parenthesis, and a name
with another alias in it is still a name, so that the token at the beginning is the same to the
reader (`take?_within`). Where the lexer looks ahead, it sees the same characters in both texts up to
the first alias, and the first two characters of every alias are the same.
-/

namespace Formulary.Token

open Formulary.Text Formulary.Number

/-- A text before a closing parenthesis, and the text alone, in which aliases may be others. -/
inductive Within (k : List Char) : List Char → List Char → Prop where
  | done : Within k (')' :: k) []
  | char {u v} (c : Char) : Within k u v → Within k (c :: u) (c :: v)
  | named {ds ds' u v} : (∀ c ∈ ds, c.isDigit) → (∀ c ∈ ds', c.isDigit) → Within k u v →
      Within k ('_' :: 's' :: (ds ++ u)) ('_' :: 's' :: (ds' ++ v))

/-- Taking the same characters away from two such texts leaves two such texts. -/
def Past (k u v r r' : List Char) : Prop := ∃ w, u = w ++ r ∧ v = w ++ r' ∧ Within k r r'

variable {k u v w r r' s : List Char} {c : Char} {t : Token} {b any : Bool} {base n : Nat} {e : Int}

/-- Nothing is taken away from two such texts. -/
lemma Past.refl (h : Within k u v) : Past k u v u v := ⟨[], rfl, rfl, h⟩

/-- One more character is taken away from both texts. -/
lemma Past.cons (h : Past k u v r r') (c : Char) : Past k (c :: u) (c :: v) r r' := by
  obtain ⟨w, rfl, rfl, h⟩ := h
  exact ⟨c :: w, rfl, rfl, h⟩

/-- Characters are taken away one time after the other. -/
lemma Past.trans {q q' : List Char} (h : Past k u v r r') (h' : Past k r r' q q') :
    Past k u v q q' := by
  obtain ⟨w, rfl, rfl, -⟩ := h
  obtain ⟨w', rfl, rfl, h'⟩ := h'
  exact ⟨w ++ w', (List.append_assoc ..).symm, (List.append_assoc ..).symm, h'⟩

/-- What is left of two such texts are two such texts. -/
lemma Past.within (h : Past k u v r r') : Within k r r' := h.choose_spec.2.2

/-- What is taken away is the same text. -/
lemma Past.take_eq (h : Past k u v r r') :
    v.take (v.length - r'.length) = u.take (u.length - r.length) := by
  obtain ⟨w, rfl, rfl, -⟩ := h
  simp

/-- What is neither an underscore nor a closing parenthesis stands in both texts. -/
lemma Within.cons (h : Within k (c :: u) w) (hclose : c ≠ ')') (hscore : c ≠ '_') :
    ∃ v, w = c :: v ∧ Within k u v := by
  cases h with
  | done => exact absurd rfl hclose
  | char c h => exact ⟨_, rfl, h⟩
  | named => exact absurd rfl hscore

/-- What stands alone stands before the parenthesis. -/
lemma Within.exists_cons (h : Within k u (c :: v)) : ∃ u', u = c :: u' := by
  cases h with
  | char => exact ⟨_, rfl⟩
  | named => exact ⟨_, rfl⟩

/-- The two texts begin alike. -/
lemma Within.head_any (h : Within k u v) {p : Char → Bool} (hp : p ')' = false) :
    v.head?.any p = u.head?.any p := by
  cases h with
  | done => simp [hp]
  | char c h => rfl
  | named => rfl

/-! ### Numerals -/

/-- An underscore is taken along with the digit behind it. -/
lemma takeDigits_score (b : Bool) (s : List Char) :
    takeDigits b ('_' :: s) =
      if b && s.head?.any Char.isDigit then takeDigits b s else ([], '_' :: s) := by
  cases s with
  | nil => simp [takeDigits]
  | cons d s =>
    have hscore : d.isDigit → d ≠ '_' := by
      rintro hd rfl
      cases hd
    by_cases hd : d.isDigit
    · simp [takeDigits, takeDigits_cons b s (hscore hd), hd]
    · simp [takeDigits, hd]

/-- The same digits are read of both texts. -/
lemma takeDigits_within (h : Within k u v) (b : Bool) :
    (takeDigits b v).1 = (takeDigits b u).1 ∧ Past k u v (takeDigits b u).2 (takeDigits b v).2 := by
  induction h generalizing b with
  | done => exact ⟨rfl, .refl .done⟩
  | @char u v c h ih =>
    by_cases hc : c = '_'
    · subst hc
      rw [takeDigits_score, takeDigits_score, h.head_any (by decide)]
      split
      · exact ⟨(ih b).1, (ih b).2.cons '_'⟩
      · exact ⟨rfl, .refl (.char _ h)⟩
    · rw [takeDigits_cons _ _ hc, takeDigits_cons _ _ hc]
      split
      · exact ⟨congrArg (c :: ·) (ih true).1, (ih true).2.cons c⟩
      · exact ⟨rfl, .refl (.char _ h)⟩
  | named hds hds' h =>
    rw [takeDigits_score, takeDigits_score]
    simp only [List.head?_cons, Option.any_some, show Char.isDigit 's' = false by decide,
      Bool.and_false, Bool.false_eq_true, if_false]
    exact ⟨trivial, .refl (.named hds hds' h)⟩

/-- The same sign is read of both texts. -/
lemma takeSign_within (h : Within k u v) :
    (takeSign v).1 = (takeSign u).1 ∧ Past k u v (takeSign u).2 (takeSign v).2 := by
  cases h with
  | done => exact ⟨rfl, .refl .done⟩
  | @char u v c h =>
    by_cases hminus : c = '-'
    · subst hminus
      exact ⟨rfl, (Past.refl h).cons '-'⟩
    by_cases hplus : c = '+'
    · subst hplus
      exact ⟨rfl, (Past.refl h).cons '+'⟩
    have hsign : ∀ s, takeSign (c :: s) = (false, c :: s) := by
      intro s
      unfold takeSign
      split <;> simp_all
    rw [hsign, hsign]
    exact ⟨rfl, .refl (.char c h)⟩
  | named hds hds' h => exact ⟨rfl, .refl (.named hds hds' h)⟩

/-- The same exponent is read of both texts. -/
lemma takeExponent_within (h : Within k u v) :
    (takeExponent v).1 = (takeExponent u).1 ∧ Past k u v (takeExponent u).2 (takeExponent v).2 := by
  cases h with
  | done => exact ⟨rfl, .refl .done⟩
  | named hds hds' h => exact ⟨rfl, .refl (.named hds hds' h)⟩
  | @char u v c h =>
    by_cases hc : c = 'e' ∨ c = 'E'
    · obtain ⟨hsign, hrest⟩ := takeSign_within h
      obtain ⟨hdigits, hrest'⟩ := takeDigits_within hrest.within false
      simp only [takeExponent, hc, if_true, hsign]
      have hpast := (hrest.trans hrest').cons c
      rcases hu : takeDigits false (takeSign u).2 with ⟨ds, x⟩
      rcases hv : takeDigits false (takeSign v).2 with ⟨ds', x'⟩
      rw [hu, hv] at hdigits hpast
      obtain rfl : ds' = ds := hdigits
      cases ds' with
      | nil => exact ⟨rfl, .refl (.char c h)⟩
      | cons d ds => exact ⟨rfl, hpast⟩
    · simp only [takeExponent, hc, if_false]
      exact ⟨trivial, .refl (.char c h)⟩

/-- The same places are read of both texts. -/
lemma takePlaces_within (h : Within k u v) :
    (takePlaces v).1 = (takePlaces u).1 ∧ Past k u v (takePlaces u).2 (takePlaces v).2 := by
  cases h with
  | done => exact ⟨rfl, .refl .done⟩
  | named hds hds' h => exact ⟨rfl, .refl (.named hds hds' h)⟩
  | @char u v c h =>
    by_cases hc : c = '.'
    · subst hc
      obtain ⟨hdigits, hrest⟩ := takeDigits_within h false
      exact ⟨hdigits, hrest.cons '.'⟩
    · have hplaces : ∀ s, takePlaces (c :: s) = ([], c :: s) := by
        intro s
        unfold takePlaces
        split <;> simp_all
      rw [hplaces, hplaces]
      exact ⟨rfl, .refl (.char c h)⟩

/-- The same decimal is read of both texts. -/
lemma takeDecimal?_within (h : Within k u v) (hu : takeDecimal? u = some (n, e, r)) :
    ∃ r', takeDecimal? v = some (n, e, r') ∧ Past k u v r r' := by
  obtain ⟨hwhole, h₁⟩ := takeDigits_within h false
  obtain ⟨hplaces, h₂⟩ := takePlaces_within h₁.within
  obtain ⟨hexponent, h₃⟩ := takeExponent_within h₂.within
  rw [takeDecimal?_eq] at hu ⊢
  dsimp only at hu ⊢
  rw [hwhole, hplaces, hexponent]
  split at hu
  · cases hu
  · cases hu
    exact ⟨_, if_neg ‹_›, (h₁.trans h₂).trans h₃⟩

/-- The digits of a base go on with a character that is one of them. -/
lemma takeBaseDigits_cons (base n : Nat) (any : Bool) (hc : c ≠ '_') :
    takeBaseDigits base n any (c :: s) =
      match digitBelow? base c with
      | some d => takeBaseDigits base (base * n + d) true s
      | none => (n, any, c :: s) := by
  cases s with
  | nil => cases hd : digitBelow? base c <;> simp [takeBaseDigits, hd]
  | cons d s => cases hd : digitBelow? base c <;> simp [takeBaseDigits, hc, hd]

/-- An underscore is taken along with the digit of a base behind it. -/
lemma takeBaseDigits_score (base n : Nat) (any : Bool) (s : List Char) :
    takeBaseDigits base n any ('_' :: s) =
      if s.head?.any fun d => (digitBelow? base d).isSome then takeBaseDigits base n any s
      else (n, any, '_' :: s) := by
  have hscore : digitBelow? base '_' = none := by simp [digitBelow?]
  cases s with
  | nil => simp [takeBaseDigits, hscore]
  | cons d s =>
    cases hd : digitBelow? base d with
    | none => simp [takeBaseDigits, hscore, hd]
    | some m =>
      have hne : d ≠ '_' := by
        rintro rfl
        rw [hscore] at hd
        cases hd
      rw [takeBaseDigits_cons base n any hne]
      simp [takeBaseDigits, hscore, hd]

/-- The same digits of a base are read of both texts. -/
lemma takeBaseDigits_within (h : Within k u v) (base n : Nat) (any : Bool) :
    (takeBaseDigits base n any v).1 = (takeBaseDigits base n any u).1 ∧
      (takeBaseDigits base n any v).2.1 = (takeBaseDigits base n any u).2.1 ∧
      Within k (takeBaseDigits base n any u).2.2 (takeBaseDigits base n any v).2.2 := by
  induction h generalizing n any with
  | done =>
    rw [takeBaseDigits_cons _ _ _ (by decide), digitBelow?_of_isDelimiter (by decide)]
    exact ⟨rfl, rfl, .done⟩
  | @char u v c h ih =>
    by_cases hc : c = '_'
    · subst hc
      rw [takeBaseDigits_score, takeBaseDigits_score,
        h.head_any (by rw [digitBelow?_of_isDelimiter (by decide)]; rfl)]
      split
      · exact ih n any
      · exact ⟨rfl, rfl, .char _ h⟩
    · rw [takeBaseDigits_cons _ _ _ hc, takeBaseDigits_cons _ _ _ hc]
      split
      · exact ih _ true
      · exact ⟨rfl, rfl, .char _ h⟩
  | named hds hds' h =>
    have hs : digitBelow? base 's' = none := by simp [digitBelow?]
    rw [takeBaseDigits_score, takeBaseDigits_score]
    simp only [List.head?_cons, Option.any_some, hs, Option.isSome_none, Bool.false_eq_true, if_false]
    exact ⟨trivial, trivial, .named hds hds' h⟩

/-- A text without underscores and closing parentheses begins both or neither. -/
lemma isPrefixOf_within (h : Within k u v) (hclose : ')' ∉ w) (hscore : '_' ∉ w) :
    w.isPrefixOf v = w.isPrefixOf u := by
  induction w generalizing u v with
  | nil => simp
  | cons c w ih =>
    simp only [List.mem_cons, not_or] at hclose hscore
    cases h with
    | done => simp [List.isPrefixOf, Ne.symm hclose.1]
    | char d h => simp only [List.isPrefixOf, ih h hclose.2 hscore.2]
    | named =>
      have hc : (c == '_') = false := by simpa using Ne.symm hscore.1
      simp only [List.isPrefixOf, hc, Bool.false_and]

/-- A common beginning without underscores may be dropped from both texts. -/
lemma drop_within (h : Within k u v) (hclose : ')' ∉ w) (hscore : '_' ∉ w)
    (hw : w.isPrefixOf u) : Within k (u.drop w.length) (v.drop w.length) := by
  induction w generalizing u v with
  | nil => exact h
  | cons c w ih =>
    simp only [List.mem_cons, not_or] at hclose hscore
    cases h with
    | done => simp [List.isPrefixOf, Ne.symm hclose.1] at hw
    | char d h =>
      simp only [List.isPrefixOf, Bool.and_eq_true] at hw
      exact ih h hclose.2 hscore.2 hw.2
    | named => simp [List.isPrefixOf, Ne.symm hscore.1] at hw

/-- A numeral ends in both texts or in none. -/
lemma endsNumeral_within (h : Within k u v) : endsNumeral v = endsNumeral u := by
  have hfollows : followsNumeral v = followsNumeral u := by
    have hwords : ∀ w ∈ ["and", "else", "for", "if", "in", "is", "or", "not"],
        ')' ∉ w.toList ∧ '_' ∉ w.toList := by decide
    simp only [followsNumeral]
    rw [Bool.eq_iff_iff]
    simp only [List.any_eq_true]
    exact exists_congr fun w => and_congr_right fun hw => by
      rw [isPrefixOf_within h (hwords w hw).1 (hwords w hw).2]
  cases h with
  | done => rfl
  | char c h => simp only [endsNumeral, hfollows]
  | named => simp only [endsNumeral, hfollows]

/-- A numeral is finished alike in both texts. -/
lemma finish_within {whole : Bool} {written : List Char} (h : Within k r r')
    (hu : takeNumeral?.finish n e whole written r = some (t, s)) :
    ∃ s', takeNumeral?.finish n e whole written r' = some (t, s') ∧ Within k s s' := by
  unfold takeNumeral?.finish at hu ⊢
  rw [endsNumeral_within h]
  split at hu
  · cases hu
  · rename_i hends
    rw [if_neg hends]
    split at hu
    · rename_i hwhole
      cases hu
      exact ⟨r', if_pos hwhole, h⟩
    · rename_i hwhole
      rw [if_neg hwhole]
      split at hu
      · cases hu
      · rename_i hzero
        rw [if_neg hzero]
        split at hu
        · cases hu
        · rename_i hlength
          cases hu
          exact ⟨r', if_neg hlength, h⟩

/-- The same numeral without a mark is read of both texts. -/
lemma plain_within (h : Within k u v) (hu : takeNumeral?.plain u = some (t, r)) :
    ∃ r', takeNumeral?.plain v = some (t, r') ∧ Within k r r' := by
  unfold takeNumeral?.plain at hu ⊢
  simp only [Option.bind_eq_bind, Option.bind_eq_some_iff] at hu
  obtain ⟨⟨n, e, x⟩, hdecimal, hu⟩ := hu
  obtain ⟨x', hdecimal', hpast⟩ := takeDecimal?_within h hdecimal
  simp only [hdecimal', Option.bind_eq_bind, Option.bind_some, hpast.take_eq]
  obtain ⟨-, -, -, hx⟩ := hpast
  dsimp only at hu
  cases hx with
  | done =>
    dsimp only at hu ⊢
    rw [if_neg (by decide)] at hu
    exact finish_within .done hu
  | char c hx =>
    dsimp only at hu ⊢
    split at hu
    · rename_i hj
      rw [if_pos hj, endsNumeral_within hx]
      split at hu
      · rename_i hends
        cases hu
        exact ⟨_, if_pos hends, hx⟩
      · cases hu
    · rename_i hj
      rw [if_neg hj]
      exact finish_within (.char c hx) hu
  | named hds hds' hx =>
    dsimp only at hu ⊢
    rw [if_neg (by decide)] at hu ⊢
    exact finish_within (.named hds hds' hx) hu

/-- The same numeral with a mark of a base is read of both texts. -/
lemma takeBased_within (h : Within k u v) (hu : takeBased base u = some (t, r)) :
    ∃ r', takeBased base v = some (t, r') ∧ Within k r r' := by
  obtain ⟨hn, hany, hrest⟩ := takeBaseDigits_within h base 0 false
  unfold takeBased at hu ⊢
  rcases hu' : takeBaseDigits base 0 false u with ⟨n, any, x⟩
  rcases hv' : takeBaseDigits base 0 false v with ⟨n', any', x'⟩
  rw [hu', hv'] at hn hany hrest
  obtain rfl : n' = n := hn
  obtain rfl : any' = any := hany
  rw [hu'] at hu
  cases any' with
  | false => cases hu
  | true =>
    simp only [endsNumeral_within hrest]
    simp only at hu
    split at hu
    · rename_i hends
      cases hu
      exact ⟨x', if_pos hends, hrest⟩
    · cases hu

/-- The same numeral is read of both texts. -/
lemma takeNumeral?_within (h : Within k (c :: u) w) (hc : c.isDigit ∨ c = '.')
    (hu : takeNumeral? (c :: u) = some (t, r)) :
    ∃ r', takeNumeral? w = some (t, r') ∧ Within k r r' := by
  obtain ⟨v, rfl, h'⟩ := h.cons (by rintro rfl; revert hc; decide) (by rintro rfl; revert hc; decide)
  by_cases hzero : c = '0'
  · subst hzero
    cases h' with
    | done =>
      have hplain : takeNumeral?.plain ('0' :: ')' :: k) = some (t, r) := hu
      exact plain_within h hplain
    | named =>
      have hplain : takeNumeral?.plain ('0' :: '_' :: _) = some (t, r) := hu
      exact plain_within h hplain
    | char d h'' =>
      rw [takeNumeral?_zero] at hu ⊢
      split at hu
      · rename_i hd
        rw [if_pos hd]
        exact takeBased_within h'' hu
      · rename_i hd
        rw [if_neg hd]
        split at hu
        · rename_i hd
          rw [if_pos hd]
          exact takeBased_within h'' hu
        · rename_i hd
          rw [if_neg hd]
          split at hu
          · rename_i hd
            rw [if_pos hd]
            exact takeBased_within h'' hu
          · rename_i hd
            rw [if_neg hd]
            exact plain_within h hu
  · rw [takeNumeral?_of_ne_zero hzero] at hu ⊢
    exact plain_within h hu

/-! ### Names -/

/-- Aliases continue names. -/
lemma continuesName_of_mem_alias {ds : List Char} (hds : ∀ c ∈ ds, c.isDigit) :
    ∀ c ∈ '_' :: 's' :: ds, continuesName c :=
  List.forall_mem_cons.2 ⟨by decide, List.forall_mem_cons.2 ⟨by decide, fun c hc =>
    continuesName_of_isAlphanum (isAlphanum_of_isDigit (hds c hc))⟩⟩

/-- An identifier may go on with an alias. -/
lemma isIdentifierContinue_alias {ds : List Char} (hds : ∀ c ∈ ds, c.isDigit) :
    (('_' :: 's' :: ds).all isIdentifierContinue) = true := by
  have h : isIdentifier ('_' :: '_' :: 's' :: ds) := Formula.isIdentifier_of_ascii (.inr rfl) fun d hd => by
    obtain rfl | rfl | hd : d = '_' ∨ d = 's' ∨ d ∈ ds := by simpa using hd
    · exact .inr rfl
    · exact .inl rfl
    · exact .inl (isAlphanum_of_isDigit (hds d hd))
  simp only [isIdentifier, Bool.and_eq_true] at h
  exact h.2

/-- The names at the beginning of both texts are identical, or both have an underscore. -/
lemma names_within (h : Within k u v) :
    ((v.takeWhile continuesName).all isIdentifierContinue =
      (u.takeWhile continuesName).all isIdentifierContinue) ∧
    (v.takeWhile continuesName = u.takeWhile continuesName ∨
      '_' ∈ u.takeWhile continuesName ∧ '_' ∈ v.takeWhile continuesName) ∧
    Within k (u.dropWhile continuesName) (v.dropWhile continuesName) := by
  induction h with
  | done =>
    simp only [List.takeWhile_cons, List.dropWhile_cons, show continuesName ')' = false by decide]
    exact ⟨rfl, .inl rfl, .done⟩
  | @char u v c h ih =>
    obtain ⟨hall, hsame, hrest⟩ := ih
    by_cases hc : continuesName c
    · simp only [List.takeWhile_cons, List.dropWhile_cons, hc, if_true, List.all_cons, hall]
      refine ⟨trivial, ?_, hrest⟩
      obtain hsame | ⟨hu, hv⟩ := hsame
      · exact .inl (congrArg (c :: ·) hsame)
      · exact .inr ⟨List.mem_cons_of_mem c hu, List.mem_cons_of_mem c hv⟩
    · simp only [List.takeWhile_cons, List.dropWhile_cons, hc]
      exact ⟨rfl, .inl rfl, .char c h⟩
  | @named ds ds' u v hds hds' h ih =>
    obtain ⟨hall, -, hrest⟩ := ih
    have hspan : ∀ {ds w : List Char}, (∀ c ∈ ds, c.isDigit) →
        ('_' :: 's' :: (ds ++ w)).takeWhile continuesName =
            '_' :: 's' :: ds ++ w.takeWhile continuesName ∧
          ('_' :: 's' :: (ds ++ w)).dropWhile continuesName = w.dropWhile continuesName := by
      intro ds w hds
      have hname := continuesName_of_mem_alias hds
      rw [← List.cons_append, ← List.cons_append]
      exact ⟨List.takeWhile_append_of_pos hname, List.dropWhile_append_of_pos hname⟩
    rw [(hspan hds).1, (hspan hds').1, (hspan hds).2, (hspan hds').2, List.all_append, List.all_append,
      isIdentifierContinue_alias hds, isIdentifierContinue_alias hds', hall]
    exact ⟨rfl, .inr ⟨List.mem_cons_self, List.mem_cons_self⟩, hrest⟩

/-- A name is the same to the reader with other aliases in it. -/
lemma take?_name_within (h : Within k (c :: u) w) (hc : continuesName c)
    (hu : isIdentifier ((c :: u).takeWhile continuesName)) :
    isIdentifier (w.takeWhile continuesName) ∧
      (languageWords.contains (String.ofList (w.takeWhile continuesName)) =
        languageWords.contains (String.ofList ((c :: u).takeWhile continuesName))) ∧
      (languageWords.contains (String.ofList ((c :: u).takeWhile continuesName)) →
        w.takeWhile continuesName = (c :: u).takeWhile continuesName) := by
  obtain ⟨hall, hsame, -⟩ := names_within h
  have hscore : ∀ {s : List Char}, '_' ∈ s → languageWords.contains (String.ofList s) = false := by
    intro s hs
    have hwords : ∀ w ∈ languageWords, '_' ∉ w.toList := by decide
    simp only [List.contains_eq_mem, decide_eq_false_iff_not]
    exact fun hmem => hwords _ hmem (by simpa using hs)
  refine ⟨?_, ?_, ?_⟩
  · cases h with
    | done => cases hc
    | char c h =>
      obtain ⟨hall, -, -⟩ := names_within h
      simp only [List.takeWhile_cons, hc, if_true, isIdentifier, Bool.and_eq_true] at hu ⊢
      exact ⟨hu.1, hall.trans hu.2⟩
    | named hds hds' h =>
      have hscore : isIdentifierContinue '_' = true := by decide +kernel
      simp only [List.takeWhile_cons, hc, if_true, isIdentifier, Bool.and_eq_true] at hu ⊢
      simp only [List.takeWhile_cons, hc, if_true, List.all_cons, hscore, Bool.true_and] at hall
      exact ⟨hu.1, hall.trans hu.2⟩
  · obtain hsame | ⟨hu, hv⟩ := hsame
    · rw [hsame]
    · rw [hscore hu, hscore hv]
  · intro hword
    obtain hsame | ⟨hu, -⟩ := hsame
    · exact hsame
    · rw [hscore hu] at hword
      cases hword

/-! ### Signs -/

/-- The same sign is read of both texts, unless it is the closing parenthesis. -/
lemma takePunctuation?_within {p : String} (h : Within k (c :: u) w) (hc : c ≠ ')')
    (hu : takePunctuation? (c :: u) = some (p, r)) :
    ∃ r', takePunctuation? w = some (p, r') ∧ Within k r r' := by
  obtain ⟨v, rfl⟩ : ∃ v, w = c :: v := by
    cases h with
    | done => exact absurd rfl hc
    | char c _ => exact ⟨_, rfl⟩
    | named => exact ⟨_, rfl⟩
  have hsigns : ∀ p ∈ signs, p.toList = [')'] ∨ ')' ∉ p.toList ∧ '_' ∉ p.toList := by decide
  have hstart : ∀ p ∈ signs, p.toList.isPrefixOf (c :: v) = p.toList.isPrefixOf (c :: u) := by
    intro p hp
    obtain hp | ⟨hclose, hscore⟩ := hsigns p hp
    · simp [hp, List.isPrefixOf]
    · exact isPrefixOf_within h hclose hscore
  unfold takePunctuation? at hu ⊢
  generalize signs = l at hu hsigns hstart
  induction l with
  | nil => cases hu
  | cons q l ih =>
    rw [List.findSome?_cons] at hu ⊢
    rw [hstart q (by simp)]
    by_cases hq : q.toList.isPrefixOf (c :: u)
    · simp only [hq, if_true, Option.some.injEq, Prod.mk.injEq] at hu ⊢
      obtain ⟨rfl, rfl⟩ := hu
      refine ⟨_, ⟨rfl, rfl⟩, ?_⟩
      obtain hclose | ⟨hclose, hscore⟩ := hsigns q (by simp)
      · simp [hclose, List.isPrefixOf, Ne.symm hc] at hq
      · have hdrop := drop_within h hclose hscore hq
        rwa [String.length_toList] at hdrop
    · simp only [hq, Bool.false_eq_true, if_false] at hu ⊢
      exact ih hu (fun p hp => hsigns p (by simp [hp])) fun p hp => hstart p (by simp [hp])

/-- The token at the beginning of a text is the like of the token alone. -/
theorem take?_within (h : Within k (c :: u) w) (hc : c ≠ ')') (hquote : isQuote c = false)
    (hu : take? (c :: u) = some (t, r)) :
    ∃ t' r', take? w = some (t', r') ∧ Like t t' ∧ Within k r r' := by
  have hquote : ¬ (c = '\'' ∨ c = '"') := by simpa [isQuote] using hquote
  obtain ⟨v, rfl⟩ : ∃ v, w = c :: v := by
    cases h with
    | done => exact absurd rfl hc
    | char c _ => exact ⟨_, rfl⟩
    | named => exact ⟨_, rfl⟩
  have hpoint : (c == '.' && v.head?.any Char.isDigit) = (c == '.' && u.head?.any Char.isDigit) := by
    by_cases hc : c = '.'
    · subst hc
      cases h with
      | char c h => rw [h.head_any (by decide)]
    · simp only [beq_eq_false_iff_ne.2 hc, Bool.false_and]
  simp only [take?, hpoint, hquote, if_false] at hu ⊢
  split at hu
  · rename_i hnumeral
    rw [if_pos hnumeral]
    have hc : c.isDigit ∨ c = '.' := by
      simp only [Bool.or_eq_true, Bool.and_eq_true, beq_iff_eq] at hnumeral
      exact hnumeral.imp_right And.left
    obtain ⟨r', hr', hrest⟩ := takeNumeral?_within h hc hu
    exact ⟨t, r', hr', .refl t, hrest⟩
  · rename_i hnumeral
    rw [if_neg hnumeral]
    split at hu
    · rename_i hname
      rw [if_pos hname]
      split at hu
      · cases hu
      · rename_i hidentifier
        obtain ⟨hidentifier', hword, hsame⟩ := take?_name_within h hname (by simpa using hidentifier)
        obtain ⟨-, -, hrest⟩ := names_within h
        cases hu
        rw [if_neg (by simp [hidentifier']), hword]
        refine ⟨_, _, rfl, ?_, hrest⟩
        split
        · rename_i hcontains
          rw [hsame hcontains]
          exact .refl _
        · exact .name _ _
    · rename_i hname
      rw [if_neg hname]
      obtain ⟨⟨p, x⟩, hp, hx⟩ := Option.map_eq_some_iff.1 hu
      cases hx
      obtain ⟨r', hr', hrest⟩ := takePunctuation?_within h hc hp
      exact ⟨.sign p, r', by rw [hr']; rfl, .refl _, hrest⟩

end Formulary.Token
