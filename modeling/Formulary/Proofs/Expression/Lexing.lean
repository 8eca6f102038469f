import Formulary.Proofs.Expression.Boundary

/-!
# Lexing

`Lexes s ts` says that a text falls into the given tokens, whatever the brackets around it. A text
that is cut into detached parts lexes part by part (`lexes_append`).
-/

namespace Formulary.Token

/-- Whether a character may stand between the tokens inside of brackets. -/
def isGap (c : Char) : Bool := [' ', '\t', '\n', '\r', '\x0c'].contains c

/-- Falling into tokens, with gaps between them. -/
inductive Lexes : List Char → List Token → Prop where
  | nil : Lexes [] []
  | gap {c s ts} : isGap c → Lexes s ts → Lexes (c :: s) ts
  | token {c s t r ts} :
    isGap c = false → isQuote c = false →
    take? (c :: s) = some (t, r) →
    Lexes r ts →
    Lexes (c :: s) (t :: ts)

/-- A text that can be read apart from what follows: it is detached, or empty. -/
def Cut (u k : List Char) : Prop := u ≠ [] → Detached u k

variable {u k s : List Char} {ts ts' : List Token} {c : Char}

/-- Gaps are delimiters. -/
lemma isDelimiter_of_isGap (h : isGap c) : isDelimiter c := by
  simp only [isGap, List.contains_eq_mem, List.mem_cons, List.not_mem_nil, or_false,
    decide_eq_true_eq] at h
  obtain rfl | rfl | rfl | rfl | rfl := h <;> rfl

/-- A text is cut off where a delimiter follows. -/
lemma Cut.of_delimiter (h : isDelimiter c) : Cut u (c :: k) := by
  intro _ b hb
  cases hb
  exact .inl h

/-- A text is cut off where nothing follows. -/
lemma Cut.of_nil : Cut u [] := fun _ _ => nofun

/-- The end of a text is cut off where the text is. -/
lemma Cut.of_suffix {r : List Char} (h : Cut u k) (hr : r <:+ u) : Cut r k := by
  obtain ⟨v, rfl⟩ := hr
  intro hne
  exact (h (by simp [hne])).of_append hne

/-- A text lexes in one way only. -/
theorem Lexes.unique (h : Lexes s ts) (h' : Lexes s ts') : ts = ts' := by
  induction h generalizing ts' with
  | nil =>
    cases h'
    rfl
  | gap hc _ ih =>
    cases h' with
    | gap _ h' => exact ih h'
    | token hc' =>
      rw [hc] at hc'
      cases hc'
  | token hc _ htake _ ih =>
    cases h' with
    | gap hc' =>
      rw [hc] at hc'
      cases hc'
    | token _ _ htake' h' =>
      rw [htake] at htake'
      cases htake'
      rw [ih h']

/-- A gap is no part of a token. -/
@[simp]
lemma lexes_gap (hc : isGap c) : Lexes (c :: s) ts ↔ Lexes s ts := by
  refine ⟨fun h => ?_, .gap hc⟩
  cases h with
  | gap _ h => exact h
  | token hc' =>
    rw [hc] at hc'
    cases hc'

/-- Texts that are cut apart have the tokens of one and of the other. -/
lemma Lexes.append (h : Lexes u ts) (hk : Lexes k ts') (hcut : Cut u k) :
    Lexes (u ++ k) (ts ++ ts') := by
  induction h with
  | nil => exact hk
  | gap hc _ ih => exact .gap hc (ih (hcut.of_suffix (List.suffix_cons _ _)))
  | token hc hquote htake _ ih =>
    refine .token hc hquote ?_
      (ih (hcut.of_suffix ((take?_suffix hquote htake).trans (List.suffix_cons _ _))))
    have happend := take?_append hquote (hcut (List.cons_ne_nil _ _))
    rw [htake] at happend
    exact happend

/-- The tokens of texts that are cut apart are those of one and those of the other. -/
lemma Lexes.split (h : Lexes s ts) (hs : s = u ++ k) (hcut : Cut u k) :
    ∃ ts₁ ts₂, Lexes u ts₁ ∧ Lexes k ts₂ ∧ ts = ts₁ ++ ts₂ := by
  induction h generalizing u with
  | nil =>
    obtain ⟨rfl, rfl⟩ := List.append_eq_nil_iff.1 hs.symm
    exact ⟨[], [], .nil, .nil, rfl⟩
  | @gap c s ts hc h ih =>
    cases u with
    | nil =>
      rw [List.nil_append] at hs
      exact ⟨[], ts, .nil, hs ▸ .gap hc h, rfl⟩
    | cons d u =>
      rw [List.cons_append, List.cons.injEq] at hs
      obtain ⟨rfl, rfl⟩ := hs
      obtain ⟨ts₁, ts₂, hu, hk, rfl⟩ := ih rfl (hcut.of_suffix (List.suffix_cons _ _))
      exact ⟨ts₁, ts₂, .gap hc hu, hk, rfl⟩
  | @token c s t r ts hc hquote htake h ih =>
    cases u with
    | nil =>
      rw [List.nil_append] at hs
      exact ⟨[], t :: ts, .nil, hs ▸ .token hc hquote htake h, rfl⟩
    | cons d u =>
      rw [List.cons_append, List.cons.injEq] at hs
      obtain ⟨rfl, rfl⟩ := hs
      rw [take?_append hquote (hcut (List.cons_ne_nil _ _)), Option.map_eq_some_iff] at htake
      obtain ⟨⟨t', r'⟩, htake, heq⟩ := htake
      cases heq
      have hr := take?_suffix hquote htake
      obtain ⟨ts₁, ts₂, hu, hk, rfl⟩ := ih rfl (hcut.of_suffix (hr.trans (List.suffix_cons _ _)))
      exact ⟨t' :: ts₁, ts₂, .token hc hquote htake hu, hk, rfl⟩

/-- A detached text and what follows it lex separately. -/
theorem lexes_append (hcut : Cut u k) :
    Lexes (u ++ k) ts ↔ ∃ ts₁ ts₂, Lexes u ts₁ ∧ Lexes k ts₂ ∧ ts = ts₁ ++ ts₂ := by
  constructor
  · exact fun h => h.split rfl hcut
  · rintro ⟨ts₁, ts₂, hu, hk, rfl⟩
    exact hu.append hk hcut

/-- Two texts lex alike. -/
def Alike (s s' : List Char) : Prop := ∀ ts, Lexes s ts ↔ Lexes s' ts

/-- Texts that are cut apart are alike if one and the other are. -/
lemma Alike.append {u' k' : List Char} (hu : Alike u u') (hk : Alike k k') (hcut : Cut u k)
    (hcut' : Cut u' k') : Alike (u ++ k) (u' ++ k') := by
  intro ts
  rw [lexes_append hcut, lexes_append hcut']
  simp only [hu _, hk _]

/-- The text of a token of its own. -/
lemma lexes_token {t : Token} (hc : isGap c = false) (hquote : isQuote c = false)
    (htake : ∀ s, take? (c :: s) = some (t, s)) :
    Lexes (c :: s) ts ↔ ∃ ts', Lexes s ts' ∧ ts = t :: ts' := by
  constructor
  · intro h
    cases h with
    | gap hc' =>
      rw [hc] at hc'
      cases hc'
    | token _ _ htake' h =>
      rw [htake] at htake'
      cases htake'
      exact ⟨_, h, rfl⟩
  · rintro ⟨ts', h, rfl⟩
    exact .token hc hquote (htake s) h

/-- An opening parenthesis is a token. -/
lemma take?_open : take? ('(' :: s) = some (.sign "(", s) := rfl

/-- A closing parenthesis is a token. -/
lemma take?_close : take? (')' :: s) = some (.sign ")", s) := rfl

/-- An opening parenthesis is a token. -/
lemma lexes_open : Lexes ('(' :: s) ts ↔ ∃ ts', Lexes s ts' ∧ ts = .sign "(" :: ts' :=
  lexes_token (by decide) (by decide) fun _ => take?_open

/-- A closing parenthesis is a token. -/
lemma lexes_close : Lexes (')' :: s) ts ↔ ∃ ts', Lexes s ts' ∧ ts = .sign ")" :: ts' :=
  lexes_token (by decide) (by decide) fun _ => take?_close

end Formulary.Token
