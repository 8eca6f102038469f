import Formulary.Proofs.Expression.Lexing

/-!
# Reading within brackets

Line ends separate tokens only outside of brackets, and brackets can be nested too deeply. Within
brackets, a segment without any is read as it lexes (`tokensFrom?_segment`, `lexes_of_segment`).
-/

namespace Formulary.Token

/-- Whether a character can stand in a segment: it opens and closes nothing and hides nothing. -/
def isInline (c : Char) : Bool :=
  !(['(', ')', '[', ']', '\x7b', '\x7d', '\'', '"', '#', '\\'].contains c)

variable {c : Char} {s k : List Char} {d n : Nat} {ls : Bool} {t : Token}

/-- The characters that open, close or hide something. -/
lemma isInline_iff : isInline c ↔ c ≠ '(' ∧ c ≠ ')' ∧ c ≠ '[' ∧ c ≠ ']' ∧ c ≠ '\x7b' ∧ c ≠ '\x7d' ∧
    c ≠ '\'' ∧ c ≠ '"' ∧ c ≠ '#' ∧ c ≠ '\\' := by
  simp [isInline]

/-- No quote can stand in a segment. -/
lemma isQuote_of_isInline (h : isInline c) : isQuote c = false := by
  simp only [isInline_iff] at h
  simp [isQuote, h]

/-- Within parentheses, gaps are passed over. -/
lemma tokensFrom?_gap (hc : isGap c) (hd : 1 ≤ d) :
    tokensFrom? false false d (n + 1) (c :: s) = tokensFrom? false false d n s := by
  have hd : (d != 0) = true := by simpa using Nat.one_le_iff_ne_zero.1 hd
  simp only [isGap, List.contains_eq_mem, List.mem_cons, List.not_mem_nil, or_false,
    decide_eq_true_eq] at hc
  obtain rfl | rfl | rfl | rfl | rfl := hc <;> simp [tokensFrom?, hd]

/-- A token is read where there is no gap, comment or joined line. -/
lemma tokensFrom?_token (hc : isGap c = false) (hcomment : c ≠ '#') (hjoin : c ≠ '\\') :
    tokensFrom? ls false d (n + 1) (c :: s) =
      (take? (c :: s)).bind fun p => (nestingAfter? d p.1).bind fun e =>
        (tokensFrom? false false e n p.2).map (p.1 :: ·) := by
  simp only [isGap, List.contains_eq_mem, List.mem_cons, List.not_mem_nil, or_false,
    decide_eq_false_iff_not, not_or] at hc
  obtain ⟨h1, h2, h3, h4, h5⟩ := hc
  conv_lhs => unfold tokensFrom?
  simp only [h1, h2, h3, h4, h5, hcomment, hjoin, or_self, if_false, Bool.and_false,
    Bool.false_eq_true]
  cases take? (c :: s) with
  | none => rfl
  | some p =>
    simp only [Option.bind_some]
    cases nestingAfter? d p.1 with
    | none => rfl
    | some e => rfl

/-- Whether a token is a numeral, a name, a word or a sign that is no bracket. -/
def isInlineToken : Token → Bool
  | .text _ | .lineEnd => false
  | .sign p => !(["(", ")", "[", "]", "\x7b", "\x7d"].contains p)
  | _ => true

/-- Whether a token is a numeral. -/
def isNumeral : Token → Bool
  | .integer _ | .decimal _ _ | .imaginary _ _ => true
  | _ => false

/-- What is read as a numeral is a token of a number. -/
lemma isNumeral_of_takeNumeral? {s r : List Char} (h : takeNumeral? s = some (t, r)) :
    isNumeral t := by
  have hfinish : ∀ {n e whole written v}, takeNumeral?.finish n e whole written v = some (t, r) →
      isNumeral t := by
    intro n e whole written v hv
    unfold takeNumeral?.finish at hv
    repeat' split at hv
    all_goals cases hv <;> rfl
  obtain h | ⟨base, c, rest, -, -, h⟩ := takeNumeral?_cases h
  · unfold takeNumeral?.plain at h
    simp only [Option.bind_eq_bind, Option.bind_eq_some_iff] at h
    obtain ⟨⟨n, e, rest⟩, -, h⟩ := h
    dsimp only at h
    split at h
    · split at h
      · split at h <;> cases h
        rfl
      · exact hfinish h
    · exact hfinish h
  · unfold takeBased at h
    split at h
    · split at h <;> cases h
      rfl
    · cases h

/-- What the token at the beginning of a text can be. -/
lemma take?_kinds {r : List Char} (hquote : isQuote c = false) (h : take? (c :: s) = some (t, r)) :
    isNumeral t ∨ (∃ n, t = .name n) ∨ (∃ n, t = .word n) ∨
      ∃ p ∈ signs, t = .sign p ∧ p.toList.head? = some c := by
  have hquote : ¬ (c = '\'' ∨ c = '"') := by simpa [isQuote] using hquote
  simp only [take?, hquote, if_false] at h
  split at h
  · exact .inl (isNumeral_of_takeNumeral? h)
  · split at h
    · split at h
      · cases h
      · cases h
        split
        · exact .inr (.inr (.inl ⟨_, rfl⟩))
        · exact .inr (.inl ⟨_, rfl⟩)
    · simp only [Option.map_eq_some_iff] at h
      obtain ⟨⟨p, r⟩, hp, h⟩ := h
      cases h
      unfold takePunctuation? at hp
      obtain ⟨q, hq, hp⟩ := List.exists_of_findSome?_eq_some hp
      split at hp
      · rename_i hprefix
        cases hp
        refine .inr (.inr (.inr ⟨p, hq, rfl, ?_⟩))
        obtain ⟨l, hl⟩ := List.isPrefixOf_iff_prefix.1 hprefix
        have hne : ∀ p ∈ signs, p.toList ≠ [] := by decide
        cases hp : p.toList with
        | nil => exact absurd hp (hne p hq)
        | cons e q =>
          rw [hp] at hl
          cases hl
          rfl
      · cases hp

/-- No bracket begins with another character. -/
lemma isInlineToken_of_sign {p : String} (hp : p ∈ signs) (h : ∀ c ∈ p.toList.head?, isInline c) :
    isInlineToken (.sign p) := by
  have hall : ∀ p ∈ signs, p.toList.head?.all isInline → isInlineToken (.sign p) := by decide
  refine hall p hp ?_
  cases hhead : p.toList.head? with
  | none => rfl
  | some c => exact h c (by rw [hhead]; rfl)

/-- A token that begins with an inline character is an inline token. -/
theorem isInlineToken_of_take? {r : List Char} (hc : isInline c) (h : take? (c :: s) = some (t, r)) :
    isInlineToken t := by
  obtain ht | ⟨n, rfl⟩ | ⟨n, rfl⟩ | ⟨p, hp, rfl, hhead⟩ := take?_kinds (isQuote_of_isInline hc) h
  · cases t <;> first | rfl | cases ht
  · rfl
  · rfl
  · refine isInlineToken_of_sign hp fun d hd => ?_
    rw [hhead] at hd
    cases hd
    exact hc

/-- Only a comma is read as one. -/
lemma eq_comma_of_take? {r : List Char} (hc : isInline c)
    (h : take? (c :: s) = some (.sign ",", r)) : c = ',' := by
  obtain ht | ⟨n, ht⟩ | ⟨n, ht⟩ | ⟨p, hp, ht, hhead⟩ := take?_kinds (isQuote_of_isInline hc) h
  · cases ht
  · cases ht
  · cases ht
  · cases ht
    cases hhead
    rfl

/-- Tokens of segments do not change how deep brackets are nested. -/
lemma nestingAfter?_of_isInlineToken (h : isInlineToken t) : nestingAfter? d t = some d := by
  cases t with
  | sign p =>
    simp only [isInlineToken, List.contains_eq_mem, List.mem_cons, List.not_mem_nil, or_false,
      Bool.not_eq_true', decide_eq_false_iff_not, not_or] at h
    obtain ⟨h1, h2, h3, h4, h5, h6⟩ := h
    simp [nestingAfter?, h1, h2, h3, h4, h5, h6]
  | _ => rfl

/-- Only characters that hide nothing begin a token. -/
lemma visible_of_take? {r : List Char} (h : take? (c :: s) = some (t, r)) : c ≠ '#' ∧ c ≠ '\\' := by
  refine ⟨?_, ?_⟩ <;> rintro rfl <;> cases h

/-- Within brackets a segment is read as it lexes. -/
lemma tokensFrom?_segment {w : List Char} {a b : List Token} (hd : 1 ≤ d)
    (hw : ∀ c ∈ w, isInline c) (ha : Lexes w a) (hcut : Cut w k)
    (hk : ∀ n, k.length < n → tokensFrom? false false d n k = some b) :
    ∀ n, (w ++ k).length < n → tokensFrom? false false d n (w ++ k) = some (a ++ b) := by
  induction ha with
  | nil => exact hk
  | @gap c s ts hc _ ih =>
    intro n hn
    cases n with
    | zero => cases hn
    | succ n =>
      rw [List.cons_append, tokensFrom?_gap hc hd]
      exact ih (fun x hx => hw x (by simp [hx])) (hcut.of_suffix (List.suffix_cons _ _)) n
        (Nat.lt_of_succ_lt_succ hn)
  | @token c s t r ts hc hquote htake _ ih =>
    intro n hn
    cases n with
    | zero => cases hn
    | succ n =>
      have hsuffix := take?_suffix hquote htake
      obtain ⟨hcomment, hjoin⟩ := visible_of_take? htake
      have hinline := isInlineToken_of_take? (hw c (by simp)) htake
      have hlength : (r ++ k).length < n := by
        have := hsuffix.length_le
        simp only [List.length_append, List.length_cons] at hn ⊢
        omega
      have happend := take?_append hquote (hcut (List.cons_ne_nil _ _))
      rw [htake] at happend
      rw [List.cons_append, tokensFrom?_token hc hcomment hjoin, happend]
      simp only [Option.map_some, Option.bind_some, followedBy,
        nestingAfter?_of_isInlineToken hinline]
      rw [ih (fun x hx => hw x (List.mem_cons_of_mem c (hsuffix.subset hx)))
        (hcut.of_suffix (hsuffix.trans (List.suffix_cons _ _))) n hlength]
      rfl

/-- What is read of a segment within brackets are the tokens into which it falls. -/
lemma lexes_of_segment {w : List Char} {ts : List Token} (hd : 1 ≤ d) (hw : ∀ c ∈ w, isInline c)
    (hcut : Cut w k) (h : tokensFrom? false false d n (w ++ k) = some ts) :
    ∃ n' a b, Lexes w a ∧ tokensFrom? false false d n' k = some b ∧ ts = a ++ b := by
  induction n generalizing w ts with
  | zero => cases h
  | succ n ih =>
    cases w with
    | nil => exact ⟨n + 1, [], ts, .nil, h, rfl⟩
    | cons c s =>
      rw [List.cons_append] at h
      cases hc : isGap c with
      | true =>
        rw [tokensFrom?_gap hc hd] at h
        obtain ⟨n', a, b, ha, hb, rfl⟩ := ih (fun x hx => hw x (by simp [hx]))
          (hcut.of_suffix (List.suffix_cons _ _)) h
        exact ⟨n', a, b, .gap hc ha, hb, rfl⟩
      | false =>
        have hinline := hw c (by simp)
        have hquote := isQuote_of_isInline hinline
        obtain ⟨-, -, -, -, -, -, -, -, hcomment, hjoin⟩ := isInline_iff.1 hinline
        rw [tokensFrom?_token hc hcomment hjoin,
          take?_append hquote (hcut (List.cons_ne_nil _ _))] at h
        cases htake : take? (c :: s) with
        | none =>
          rw [htake] at h
          cases h
        | some p =>
          obtain ⟨t, r⟩ := p
          have hsuffix := take?_suffix hquote htake
          rw [htake] at h
          simp only [Option.map_some, Option.bind_some, followedBy,
            nestingAfter?_of_isInlineToken (isInlineToken_of_take? hinline htake),
            Option.map_eq_some_iff] at h
          obtain ⟨ts, h, rfl⟩ := h
          obtain ⟨n', a, b, ha, hb, rfl⟩ :=
            ih (fun x hx => hw x (List.mem_cons_of_mem c (hsuffix.subset hx)))
              (hcut.of_suffix (hsuffix.trans (List.suffix_cons _ _))) h
          exact ⟨n', t :: a, b, .token hc hquote htake ha, hb, rfl⟩

/-- An opening parenthesis is read unless brackets are nested too deeply. -/
lemma tokensFrom?_open (hd : d < maxNesting) :
    tokensFrom? ls false d (n + 1) ('(' :: s) =
      (tokensFrom? false false (d + 1) n s).map (.sign "(" :: ·) := by
  rw [tokensFrom?_token (by decide) (by decide) (by decide), take?_open]
  simp [nestingAfter?, hd]

/-- A closing parenthesis is read where a bracket is open. -/
lemma tokensFrom?_close :
    tokensFrom? false false (d + 1) (n + 1) (')' :: s) =
      (tokensFrom? false false d n s).map (.sign ")" :: ·) := by
  rw [tokensFrom?_token (by decide) (by decide) (by decide), take?_close]
  simp [nestingAfter?]

/-- A parenthesis is read only if there are not too many open ones. -/
lemma lt_of_tokensFrom?_open {ts : List Token}
    (h : tokensFrom? ls false d (n + 1) ('(' :: s) = some ts) : d < maxNesting := by
  rw [tokensFrom?_token (by decide) (by decide) (by decide), take?_open] at h
  by_contra hd
  simp [nestingAfter?, hd] at h

end Formulary.Token
