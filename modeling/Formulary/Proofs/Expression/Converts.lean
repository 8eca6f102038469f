import Formulary.Formula.Degrees
import Formulary.Proofs.Expression.Nesting
import Formulary.Expression.Parser

/-!
# Tokens of conversions

`Converts σ c m ts us` says that the tokens `us` are the tokens `ts` with the arguments of `c`
trigonometric calls multiplied and those of `m` left out. The stack `σ` has an entry for every
parenthesis that is open: whether its contents are multiplied at its end.
-/

namespace Formulary.Parser

open Formulary.Formula Formulary.Token

/-- Whether a token is a part of the contents of the innermost open parenthesis. -/
def Ordinary (σ : List Bool) (t : Token) : Prop :=
  isInlineToken t ∧ t ≠ .sign "." ∧ (t = .sign "," → σ.head? = some false)

/-- The tokens that end a multiplied argument. -/
def closing : Bool → List Token
  | false => [.sign ")"]
  | true => [.sign ")", .sign "*", .name "pi", .sign "/", .integer 180, .sign ")"]

/-- The tokens that begin an argument. -/
def opening : Bool → List Token
  | false => [.sign "("]
  | true => [.sign "(", .sign "("]

/-- Tokens, and the same tokens with some arguments multiplied. -/
inductive Converts : List Bool → Nat → Nat → List Token → List Token → Prop where
  | nil : Converts [] 0 0 [] []
  | token {σ c m t ts us} :
    Ordinary σ t →
    Converts σ c m ts us →
    Converts σ c m (t :: ts) (t :: us)
  | group {σ c m ts us} :
    Converts (false :: σ) c m ts us →
    Converts σ c m (.sign "(" :: ts) (.sign "(" :: us)
  | close {σ c m b ts us} :
    Converts σ c m ts us →
    Converts (b :: σ) c m (.sign ")" :: ts) (closing b ++ us)
  | call {σ c m b f ts us} :
    f ∈ Function.trigonometric →
    ts.head? ≠ some (.sign ")") →
    Converts (b :: σ) c m ts us →
    Converts σ (c + b.toNat) (m + (!b).toNat) (.name f.name :: .sign "(" :: ts)
      (.name f.name :: (opening b ++ us))

variable {σ : List Bool} {b : Bool} {c m n : Nat} {t : Token} {ts us : List Token} {s : String}

/-- What can be converted begins with one of its tokens. -/
lemma Converts.head? (h : Converts σ c m ts us) : us.head? = ts.head? := by
  cases h with
  | nil => rfl
  | token => rfl
  | group => rfl
  | @close _ _ _ b => cases b <;> rfl
  | call => rfl

/-- No tokens convert to no tokens, with nothing left open. -/
lemma Converts.eq_nil (h : Converts σ c m [] us) : σ = [] ∧ c = 0 ∧ m = 0 ∧ us = [] := by
  cases h
  exact ⟨rfl, rfl, rfl, rfl⟩

/-- What the first token can be. -/
lemma Converts.cons_inv (h : Converts σ c m (t :: ts) us) :
    (∃ us', us = t :: us' ∧ Ordinary σ t ∧ Converts σ c m ts us') ∨
    (t = .sign "(" ∧ ∃ us', us = .sign "(" :: us' ∧ Converts (false :: σ) c m ts us') ∨
    (t = .sign ")" ∧ ∃ b σ' us', σ = b :: σ' ∧ us = closing b ++ us' ∧ Converts σ' c m ts us') ∨
    (∃ b f c' m' ts' us', f ∈ Function.trigonometric ∧ t = .name f.name ∧ ts = .sign "(" :: ts' ∧
      ts'.head? ≠ some (.sign ")") ∧ us = .name f.name :: (opening b ++ us') ∧
      c = c' + b.toNat ∧ m = m' + (!b).toNat ∧ Converts (b :: σ) c' m' ts' us') := by
  cases h with
  | token ht h => exact .inl ⟨_, rfl, ht, h⟩
  | group h => exact .inr (.inl ⟨rfl, _, rfl, h⟩)
  | close h => exact .inr (.inr (.inl ⟨rfl, _, _, _, rfl, rfl, h⟩))
  | call hf hne h =>
    exact .inr (.inr (.inr ⟨_, _, _, _, _, _, hf, rfl, rfl, hne, rfl, rfl, rfl, h⟩))

/-- A token that is no parenthesis and no name is taken over. -/
lemma Converts.tail (h : Converts σ c m (t :: ts) us) (hopen : t ≠ .sign "(")
    (hclose : t ≠ .sign ")") (hname : ∀ s, t ≠ .name s) :
    ∃ us', us = t :: us' ∧ Ordinary σ t ∧ Converts σ c m ts us' := by
  obtain h | ⟨rfl, -⟩ | ⟨rfl, -⟩ | ⟨_, f, _, _, _, _, -, rfl, -⟩ := h.cons_inv
  · exact h
  · exact absurd rfl hopen
  · exact absurd rfl hclose
  · exact absurd rfl (hname f.name)

/-- A word converts to itself. -/
lemma Converts.word (h : Converts σ c m (.word s :: ts) us) :
    ∃ us', us = .word s :: us' ∧ Converts σ c m ts us' := by
  obtain ⟨us', rfl, -, h⟩ := h.tail (by simp) (by simp) (by simp)
  exact ⟨us', rfl, h⟩

/-- An opening parenthesis that is no argument's opens a group. -/
lemma Converts.open (h : Converts σ c m (.sign "(" :: ts) us) :
    ∃ us', us = .sign "(" :: us' ∧ Converts (false :: σ) c m ts us' := by
  obtain ⟨_, -, ht, -⟩ | ⟨-, h⟩ | ⟨ht, -⟩ | ⟨_, f, _, _, _, _, -, ht, -⟩ := h.cons_inv
  · exact absurd ht.1 (by decide)
  · exact h
  · exact absurd ht (by decide)
  · cases ht

/-- A closing parenthesis converts to what closes the innermost one that is open. -/
lemma Converts.closed (h : Converts σ c m (.sign ")" :: ts) us) :
    ∃ b σ' us', σ = b :: σ' ∧ us = closing b ++ us' ∧ Converts σ' c m ts us' := by
  obtain ⟨_, -, ht, -⟩ | ⟨ht, -⟩ | ⟨-, h⟩ | ⟨_, f, _, _, _, _, -, ht, -⟩ := h.cons_inv
  · exact absurd ht.1 (by decide)
  · exact absurd ht (by decide)
  · exact h
  · cases ht

/-- A comma converts to itself, in parentheses that are not those of a conversion. -/
lemma Converts.comma (h : Converts σ c m (.sign "," :: ts) us) :
    ∃ us', us = .sign "," :: us' ∧ σ.head? = some false ∧ Converts σ c m ts us' := by
  obtain ⟨us', rfl, ht, h⟩ := h.tail (by decide) (by decide) (by simp)
  exact ⟨us', rfl, ht.2.2 rfl, h⟩

/-- Nothing but inline tokens, parentheses and names is converted. -/
lemma Converts.head (h : Converts σ c m ts us) :
    ∀ t ∈ ts.head?, t ≠ .sign "." ∧ t ≠ .sign "[" ∧ (∀ s, t ≠ .text s) ∧ t ≠ .lineEnd := by
  intro t ht
  cases h with
  | nil => cases ht
  | token hord h =>
    cases ht
    refine ⟨hord.2.1, ?_, ?_, ?_⟩
    · rintro rfl
      exact absurd hord.1 (by decide)
    · rintro s rfl
      exact absurd hord.1 (by simp [isInlineToken])
    · rintro rfl
      exact absurd hord.1 (by decide)
  | group h =>
    cases ht
    refine ⟨by decide, by decide, by simp, by decide⟩
  | close h =>
    cases ht
    refine ⟨by decide, by decide, by simp, by decide⟩
  | call hf hne h =>
    cases ht
    refine ⟨by simp, by simp, by simp, by simp⟩

/-- Every multiplication adds six tokens. -/
lemma Converts.length (h : Converts σ c m ts us) :
    us.length = ts.length + 6 * c + 5 * σ.count true := by
  induction h with
  | nil => rfl
  | token _ _ ih =>
    simp only [List.length_cons, ih]
    omega
  | group _ ih =>
    simp only [List.length_cons, ih]
    simp
    omega
  | @close _ _ _ b _ _ _ ih =>
    cases b <;> simp [closing, ih] <;> omega
  | @call _ _ _ b _ _ _ _ _ _ ih =>
    cases b <;> simp [opening, ih] <;> omega

/-- An operator that is not written with two words is read off one token. -/
lemma takeOperator?_cons (his : t = .word "is" → ts.head? ≠ some (.word "not"))
    (hnot : t = .word "not" → ts.head? ≠ some (.word "in")) :
    takeOperator? (t :: ts) = (binaryOp? t).map (·, ts) := by
  unfold takeOperator?
  split
  · rename_i heq
    cases heq
    exact absurd rfl (his rfl)
  · rename_i heq
    cases heq
    exact absurd rfl (hnot rfl)
  · rename_i heq
    cases heq
    rfl
  · rename_i heq
    cases heq

/-- An operator stays the operator that it is. -/
lemma Converts.takeOperator? {op : BinaryOp} {ts' : List Token} (h : Converts σ c m ts us)
    (hop : takeOperator? ts = some (op, ts')) :
    ∃ us', Parser.takeOperator? us = some (op, us') ∧ Converts σ c m ts' us' := by
  unfold Parser.takeOperator? at hop
  split at hop
  · cases hop
    obtain ⟨_, rfl, h₁⟩ := h.word
    obtain ⟨us, rfl, h₂⟩ := h₁.word
    exact ⟨us, rfl, h₂⟩
  · cases hop
    obtain ⟨_, rfl, h₁⟩ := h.word
    obtain ⟨us, rfl, h₂⟩ := h₁.word
    exact ⟨us, rfl, h₂⟩
  · rename_i t ts his hnot
    obtain ⟨op, hbinary, heq⟩ := Option.map_eq_some_iff.1 hop
    cases heq
    have hsign : ∀ s, binaryOp? (.sign s) = some op → s ≠ "(" ∧ s ≠ ")" := by
      rintro s hs
      constructor <;> rintro rfl <;> cases hs
    obtain ⟨us, rfl, -, h'⟩ := h.tail
      (by rintro rfl; exact (hsign _ hbinary).1 rfl)
      (by rintro rfl; exact (hsign _ hbinary).2 rfl)
      (by rintro s rfl; cases hbinary)
    refine ⟨us, ?_, h'⟩
    rw [takeOperator?_cons, hbinary]
    · rfl
    · rintro rfl hhead
      rw [h'.head?, List.head?_eq_some_iff] at hhead
      obtain ⟨_, rfl⟩ := hhead
      exact his _ rfl rfl
    · rintro rfl hhead
      rw [h'.head?, List.head?_eq_some_iff] at hhead
      obtain ⟨_, rfl⟩ := hhead
      exact hnot _ rfl rfl
  · cases hop

/-- Where no operator is read, none is read of what the tokens convert to. -/
lemma Converts.takeOperator?_none (h : Converts σ c m ts us) (hop : Parser.takeOperator? ts = none) :
    Parser.takeOperator? us = none := by
  cases ts with
  | nil => rw [h.eq_nil.2.2.2]; rfl
  | cons t ts =>
    obtain ⟨us', rfl⟩ := List.head?_eq_some_iff.1 h.head?
    by_cases hnot : t = .word "not"
    · subst hnot
      obtain ⟨_, heq, h'⟩ := h.word
      cases heq
      rw [takeOperator?_cons (by simp) fun _ hhead => ?_]
      · rfl
      · rw [h'.head?, List.head?_eq_some_iff] at hhead
        obtain ⟨_, rfl⟩ := hhead
        cases hop
    · have hbinary : binaryOp? t = none := by
        by_cases his : t = .word "is" ∧ ts.head? = some (.word "not")
        · obtain ⟨rfl, hhead⟩ := his
          obtain ⟨_, rfl⟩ := List.head?_eq_some_iff.1 hhead
          cases hop
        · rw [takeOperator?_cons (fun ht hhead => his ⟨ht, hhead⟩) fun ht => absurd ht hnot] at hop
          exact Option.map_eq_none_iff.1 hop
      rw [takeOperator?_cons ?_ fun ht => absurd ht hnot, hbinary]
      · rfl
      · rintro rfl
        cases hbinary

end Formulary.Parser
