import Formulary.Proofs.Expression.Converts
import Formulary.Proofs.Expression.Degrees

/-!
# Reading converted tokens

Where tokens are read as an expression, the tokens with some arguments multiplied are read as the
expression with these arguments multiplied. Every function of the reader keeps this relation if
those that it calls keep it for less fuel (`Follows`), and multiplications take a bounded amount of
fuel each.
-/

namespace Formulary.Parser

open Formulary.Formula Formulary.Token Formulary.Expression

/--
A result that is read of converted tokens, in place of `a` with `rest` after it. The counts are those
of the result and of the tokens after it together.
-/
def Reads {α : Type} (R : Nat → Nat → α → α → Prop) (σ : List Bool) (c m : Nat) (a : α)
    (rest : List Token) (result : Option (α × List Token)) : Prop :=
  ∃ c₁ c₂ m₁ m₂ a' us, c₁ + c₂ = c ∧ m₁ + m₂ = m ∧ result = some (a', us) ∧ R c₁ m₁ a a' ∧
    Converts σ c₂ m₂ rest us

/-- What was read so far and what is left make up what is converted. -/
lemma Reads.read {α : Type} {R : Nat → Nat → α → α → Prop} {σ : List Bool} {c c₀ m m₀ : Nat}
    {a a' : α} {rest us : List Token} (ha : R c₀ m₀ a a') (h : Converts σ c m rest us) :
    Reads R σ (c₀ + c) (m₀ + m) a rest (some (a', us)) :=
  ⟨c₀, c, m₀, m, a', us, rfl, rfl, rfl, ha, h⟩

/-- What is read of converted tokens is read on. -/
lemma Reads.bind {α β : Type} {R : Nat → Nat → α → α → Prop} {S : Nat → Nat → β → β → Prop}
    {σ : List Bool} {c C m M : Nat} {a : α} {b : β} {ts rest : List Token}
    {x : Option (α × List Token)} {f : α × List Token → Option (β × List Token)}
    (h : Reads R σ c m a ts x)
    (hf : ∀ {c₁ c₂ m₁ m₂ a' us}, c₁ + c₂ = c → m₁ + m₂ = m → R c₁ m₁ a a' → Converts σ c₂ m₂ ts us →
      Reads S σ C M b rest (f (a', us))) :
    Reads S σ C M b rest (x.bind f) := by
  obtain ⟨c₁, c₂, m₁, m₂, a', us, hc, hm, rfl, ha, h⟩ := h
  exact hf hc hm ha h

/-- What the functions of the reader do to converted tokens, given the fuel for the others. -/
structure Follows (n : Nat) : Prop where
  expression : ∀ {level σ c m ts us e rest k}, Converts σ c m ts us →
    expression level n ts = some (e, rest) → n + 8 * c ≤ k →
    Reads Scaled σ c m e rest (expression level k us)
  climb : ∀ {level σ c₀ m₀ c m C M left left' ts us e rest k}, Scaled c₀ m₀ left left' →
    Converts σ c m ts us → climb level left n ts = some (e, rest) → n + 8 * c ≤ k →
    c₀ + c = C → m₀ + m = M → Reads Scaled σ C M e rest (climb level left' k us)
  comparisons : ∀ {σ c m ts us chain rest k}, Converts σ c m ts us →
    comparisons n ts = some (chain, rest) → n + 8 * c ≤ k →
    Reads ChainScaled σ c m chain rest (comparisons k us)
  operand : ∀ {level σ c m ts us e rest k}, Converts σ c m ts us →
    operand level n ts = some (e, rest) → n + 8 * c ≤ k →
    Reads Scaled σ c m e rest (operand level k us)
  applied : ∀ {σ c₀ m₀ c m C M left left' ts us e rest k}, Scaled c₀ m₀ left left' →
    Converts σ c m ts us → applied left n ts = some (e, rest) → n + 8 * c ≤ k →
    c₀ + c = C → m₀ + m = M → Reads Scaled σ C M e rest (applied left' k us)
  elements : ∀ {σ c m ts us es comma rest k}, Converts (false :: σ) c m ts us →
    elements ")" n ts = some (es, comma, rest) → n + 8 * c ≤ k →
    ∃ c₁ c₂ m₁ m₂ es' us', c₁ + c₂ = c ∧ m₁ + m₂ = m ∧
      elements ")" k us = some (es', comma, us') ∧ AllScaled c₁ m₁ es es' ∧
      Converts σ c₂ m₂ rest us'

variable {level n k c m c₀ m₀ : Nat} {σ : List Bool} {ts us rest : List Token}
  {e left left' : Expression} {es : List Expression} {comma : Bool}

/-- One step of fuel. -/
lemma exists_fuel (h : n + 1 + 8 * c ≤ k) : ∃ k', k = k' + 1 ∧ n + 8 * c ≤ k' :=
  ⟨k - 1, by omega, by omega⟩

/-- Where a conditional follows, its condition and its alternative are read. -/
lemma climb_if :
    climb level left (n + 1) (.word "if" :: ts) =
      if level = 0 then
        (expression 1 n ts).bind fun (condition, ts) =>
          match ts with
          | .word "else" :: ts =>
            (expression 0 n ts).bind fun (alternative, ts) =>
              some (.conditional condition left alternative, ts)
          | _ => none
      else some (left, .word "if" :: ts) := by
  rw [climb]
  rfl

/-- Where an operator follows, its right operand is read unless the operator binds too weakly. -/
lemma climb_operator (op : BinaryOp) {ts' : List Token} (hop : takeOperator? ts = some (op, ts')) :
    climb level left (n + 1) ts =
      if op.level < level then some (left, ts)
      else if op.isComparison then
        (comparisons n ts).bind fun (chain, ts) => climb level (left.comparisonChain chain) n ts
      else
        (expression op.rightLevel n ts').bind fun (right, ts) =>
          climb level (.binary op left right) n ts := by
  conv_lhs => unfold climb
  rw [hop]
  split
  · cases hop
  · rename_i heq
    cases heq
    rfl
  · rename_i heq
    cases heq

/-- Where neither a conditional nor an operator follows, climbing stops. -/
lemma climb_none (hif : ∀ ts', ts ≠ .word "if" :: ts') (hop : takeOperator? ts = none) :
    climb level left (n + 1) ts = some (left, ts) := by
  conv_lhs => unfold climb
  rw [hop]
  split
  · exact absurd rfl (hif _)
  · rename_i heq
    cases heq
  · rfl

/-- After `not`, an operand is read that binds at least as strongly. -/
lemma operand_not : operand level (n + 1) (.word "not" :: ts) =
    if level ≤ 3 then (expression 3 n ts).bind fun (e, ts) => some (.unary .not e, ts)
    else none := by
  rw [operand]
  rfl

/-- Where an operand does not begin with `not`, it begins with a sign or is an atom. -/
lemma operand_cons {t : Token} (hnot : t ≠ .word "not") : operand level (n + 1) (t :: ts) =
    match sign? t with
    | some op =>
      if level ≤ 10 then (expression 10 n ts).bind fun (e, ts) => some (.unary op e, ts) else none
    | none => (atom n (t :: ts)).bind fun (e, ts) => applied e n ts := by
  rw [operand]
  · rfl
  · exact hnot

/-- Nothing is applied where no bracket and no point follows. -/
lemma applied_stop (h : ∀ t ∈ ts.head?, t ≠ .sign "(" ∧ t ≠ .sign "." ∧ t ≠ .sign "[") :
    applied e (n + 1) ts = some (e, ts) := by
  unfold applied
  split
  · exact absurd rfl (h _ rfl).1
  · exact absurd rfl (h _ rfl).2.1
  · exact absurd rfl (h _ rfl).2.2
  · rfl

/-- There are elements where the parenthesis is not closed at once. -/
lemma elements_ne_nil (hne : ts.head? ≠ some (.sign ")"))
    (h : elements ")" n ts = some (es, comma, rest)) : es ≠ [] := by
  rintro rfl
  cases n with
  | zero => cases h
  | succ n =>
    rw [elements, if_neg hne] at h
    obtain ⟨⟨e, ts₁⟩, -, h⟩ := Option.bind_eq_some_iff.1 h
    simp only at h
    split at h
    · split at h
      · cases h
      · split at h
        · obtain ⟨⟨es, comma, ts₂⟩, -, h⟩ := Option.bind_eq_some_iff.1 h
          cases h
        · cases h
    · cases h

/-- What the elements in a pair of parentheses are together. -/
def grouped : List Expression → Bool → Expression
  | [e], false => e
  | es, _ => .tuple es

/-- What stands in parentheses is a tuple unless it is a single expression. -/
lemma grouped_eq_tuple (h : ¬ (es.length = 1 ∧ comma = false)) : grouped es comma = .tuple es := by
  unfold grouped
  split
  · exact absurd ⟨rfl, rfl⟩ h
  · rfl

/-- In parentheses, elements are read and grouped. -/
lemma atom_group : atom (n + 1) (.sign "(" :: ts) =
    (elements ")" n ts).bind fun (es, comma, ts) => some (grouped es comma, ts) := by
  rw [atom]
  refine congrArg (Option.bind _) (funext fun (es, comma, ts) => ?_)
  match es, comma with
  | [], _ | [_], true | [_], false | _ :: _ :: _, _ => rfl

/-- What is grouped is scaled as its elements are. -/
lemma scaled_grouped {es' : List Expression} (h : AllScaled c m es es') :
    Scaled c m (grouped es comma) (grouped es' comma) := by
  by_cases hone : es.length = 1 ∧ comma = false
  · obtain ⟨hlength, rfl⟩ := hone
    obtain ⟨e, rfl⟩ := List.length_eq_one_iff.1 hlength
    obtain ⟨e', rfl⟩ := List.length_eq_one_iff.1 (h.length.trans hlength)
    have hbound := h.bound
    have hsome := h.some
    simp only [allAngles, allInDegrees, List.cons.sizeOf_spec] at hbound hsome
    refine ⟨hbound, fun hc => ?_, ?_⟩
    · exact (List.cons.inj (h.all hc)).1
    · show sizeOf e' + m ≤ sizeOf e.inDegrees
      omega
  · rw [grouped_eq_tuple hone, grouped_eq_tuple (by rwa [h.length])]
    exact .tuple h

/-- A token that is neither a parenthesis nor a sign is an atom of its own. -/
lemma atom_ordinary {t : Token} (ht : Ordinary σ t) (h : atom n (t :: ts) = some (e, rest)) :
    rest = ts ∧ Scaled 0 0 e e ∧ ∀ k us, atom (k + 1) (t :: us) = some (e, us) := by
  cases n with
  | zero => cases h
  | succ n =>
    unfold atom at h
    split at h
    case h_12 => cases h
    all_goals
      rename_i heq
      cases heq
    case h_5 | h_10 | h_11 => exact absurd ht.1 (by simp [isInlineToken])
    all_goals
      cases h
      exact ⟨rfl, .leaf rfl, fun _ _ => rfl⟩

/-- A numeral or a name with a looser operator or a parenthesis after it. -/
lemma expression_atom {t : Token} {u : Token} (ht : ∀ ts, atom (n + 1) (t :: ts) = some (e, ts))
    (hsign : sign? t = none) (hnot : t ≠ .word "not")
    (hu : u ≠ .sign "(" ∧ u ≠ .sign "." ∧ u ≠ .sign "[")
    (hclimb : ∀ e ts, climb level e (n + 2) (u :: ts) = some (e, u :: ts)) :
    expression level (n + 3) (t :: u :: ts) = some (e, u :: ts) := by
  have happlied : applied e (n + 1) (u :: ts) = some (e, u :: ts) := by
    refine applied_stop fun t ht => ?_
    cases ht
    exact hu
  have hoperand : operand level (n + 2) (t :: u :: ts) = some (e, u :: ts) := by
    rw [operand]
    · simp [hsign, ht, happlied]
    · simpa using hnot
  rw [expression, hoperand]
  exact hclimb e ts

/-- The tokens of a multiplied argument are read as it. -/
lemma elements_multiplied (hne : us.head? ≠ some (.sign ")"))
    (h : expression 0 (n + 3) us = some (e, closing true ++ rest)) :
    elements ")" (n + 8) (.sign "(" :: us) = some ([e.ofDegrees], false, rest) := by
  -- From inside out: the argument in its parentheses, that times `pi`, and that over `180`.
  have hlow : ∀ {n level e ts}, 9 < level → climb level e (n + 1) (.sign "/" :: ts) =
      some (e, .sign "/" :: ts) := by
    intro n level e ts hlevel
    rw [climb_operator .div rfl]
    exact if_pos hlevel
  have hend : ∀ n level e ts, climb level e (n + 1) (.sign ")" :: ts) =
      some (e, .sign ")" :: ts) := fun _ _ _ _ => climb_none (by simp) rfl
  have hpi : ∀ n ts, expression 10 (n + 3) (.name "pi" :: .sign "/" :: ts) =
      some (.name "pi", .sign "/" :: ts) := fun n ts =>
    expression_atom (fun _ => rfl) rfl (by simp) (by decide) fun e ts => hlow (by decide)
  have hnumber : ∀ n ts, expression 10 (n + 3) (.integer 180 :: .sign ")" :: ts) =
      some (.integer 180, .sign ")" :: ts) := fun n ts =>
    expression_atom (fun _ => rfl) rfl (by simp) (by decide) (hend (n + 1) 10)
  have hinner : elements ")" (n + 4) us = some ([e], false, (closing true ++ rest).tail) := by
    rw [elements, if_neg hne, h]
    rfl
  have hatom : atom (n + 5) (.sign "(" :: us) = some (e, (closing true ++ rest).tail) := by
    rw [atom, hinner]
    rfl
  have happlied : applied e (n + 5) (closing true ++ rest).tail =
      some (e, (closing true ++ rest).tail) := by
    refine applied_stop fun t ht => ?_
    cases ht
    decide
  have hoperand : operand 0 (n + 6) (.sign "(" :: us) = some (e, (closing true ++ rest).tail) := by
    rw [operand]
    · simp [sign?, hatom, happlied]
    · simp
  have hclimb : climb 0 e (n + 6) (closing true ++ rest).tail =
      some (e.ofDegrees, .sign ")" :: rest) := by
    have hfactor : climb 0 e (n + 6) (closing true ++ rest).tail =
        climb 0 (.binary .mul e (.name "pi")) (n + 5)
          (.sign "/" :: .integer 180 :: .sign ")" :: rest) := by
      rw [climb_operator .mul rfl, if_neg (by decide), if_neg (by decide)]
      show (expression 10 (n + 2 + 3) (.name "pi" :: .sign "/" :: _)).bind _ = _
      rw [hpi]
      rfl
    rw [hfactor, climb_operator .div rfl, if_neg (by decide), if_neg (by decide)]
    show (expression 10 (n + 1 + 3) (.integer 180 :: .sign ")" :: rest)).bind _ = _
    rw [hnumber]
    exact hend (n + 3) 0 _ rest
  have hexpression : expression 0 (n + 7) (.sign "(" :: us) =
      some (e.ofDegrees, .sign ")" :: rest) := by
    rw [expression, hoperand]
    exact hclimb
  rw [elements, if_neg (by simp), hexpression]
  rfl

namespace Follows

/-- One more step of an expression is read again. -/
lemma expression_succ (ih : Follows n) (h : Converts σ c m ts us)
    (hread : Parser.expression level (n + 1) ts = some (e, rest)) (hk : n + 1 + 8 * c ≤ k) :
    Reads Scaled σ c m e rest (Parser.expression level k us) := by
  obtain ⟨k, rfl, hk'⟩ := exists_fuel hk
  rw [Parser.expression] at hread ⊢
  obtain ⟨⟨left, ts₁⟩, hleft, hread⟩ := Option.bind_eq_some_iff.1 hread
  refine (ih.operand h hleft hk').bind fun hc hm hscaled h₁ => ?_
  exact ih.climb hscaled h₁ hread (by omega) hc hm

/-- One more comparison is read again. -/
lemma comparisons_succ (ih : Follows n) {chain : List (BinaryOp × Expression)}
    (h : Converts σ c m ts us) (hread : Parser.comparisons (n + 1) ts = some (chain, rest))
    (hk : n + 1 + 8 * c ≤ k) : Reads ChainScaled σ c m chain rest (Parser.comparisons k us) := by
  obtain ⟨k, rfl, hk'⟩ := exists_fuel hk
  have hstop : Reads ChainScaled σ c m [] ts (some ([], us)) := by
    simpa using Reads.read ChainScaled.nil h
  rw [Parser.comparisons] at hread ⊢
  cases hop : takeOperator? ts with
  | none =>
    rw [hop] at hread
    rw [h.takeOperator?_none hop]
    cases hread
    exact hstop
  | some x =>
    obtain ⟨op, ts₁⟩ := x
    obtain ⟨us₁, hop', h₁⟩ := h.takeOperator? hop
    rw [hop] at hread
    rw [hop']
    by_cases hcomparison : op.isComparison
    · simp only [hcomparison, if_true] at hread ⊢
      obtain ⟨⟨e, ts₂⟩, he, hread⟩ := Option.bind_eq_some_iff.1 hread
      obtain ⟨⟨chain', ts₃⟩, hchain, hread⟩ := Option.bind_eq_some_iff.1 hread
      cases hread
      refine (ih.expression h₁ he hk').bind fun hc hm hscaled h₂ => ?_
      refine (ih.comparisons h₂ hchain (by omega)).bind fun hc' hm' hscaled' h₃ => ?_
      subst hc hm hc' hm'
      rw [← Nat.add_assoc, ← Nat.add_assoc]
      exact .read (.cons hscaled hscaled') h₃
    · simp only [hcomparison, Bool.false_eq_true, if_false] at hread ⊢
      cases hread
      exact hstop

/-- A conditional whose value for the case that its condition holds has been read. -/
lemma climb_conditional (ih : Follows n) (hleft : Scaled c₀ m₀ left left') (h : Converts σ c m ts us)
    (hread : Parser.climb 0 left (n + 1) (.word "if" :: ts) = some (e, rest)) (hk : n + 8 * c ≤ k) :
    Reads Scaled σ (c₀ + c) (m₀ + m) e rest (Parser.climb 0 left' (k + 1) (.word "if" :: us)) := by
  rw [climb_if, if_pos rfl] at hread ⊢
  obtain ⟨⟨condition, ts₁⟩, hcondition, hread⟩ := Option.bind_eq_some_iff.1 hread
  refine (ih.expression h hcondition hk).bind fun hc hm hscaled h₁ => ?_
  simp only at hread
  split at hread
  · rename_i ts₂
    obtain ⟨us₂, rfl, h₂⟩ := h₁.word
    obtain ⟨⟨alternative, ts₃⟩, halternative, hread⟩ := Option.bind_eq_some_iff.1 hread
    cases hread
    refine (ih.expression h₂ halternative (by omega)).bind fun hc' hm' hscaled' h₃ => ?_
    have hall := Reads.read (hscaled.conditional hleft hscaled') h₃
    subst hc hm hc' hm'
    convert hall using 1 <;> omega
  · cases hread

/-- One more step of climbing is read again. -/
lemma climb_succ {C M : Nat} (ih : Follows n) (hleft : Scaled c₀ m₀ left left')
    (h : Converts σ c m ts us) (hread : Parser.climb level left (n + 1) ts = some (e, rest))
    (hk : n + 1 + 8 * c ≤ k) (hC : c₀ + c = C) (hM : m₀ + m = M) :
    Reads Scaled σ C M e rest (Parser.climb level left' k us) := by
  subst hC hM
  obtain ⟨k, rfl, hk'⟩ := exists_fuel hk
  -- A conditional, an operator, or the end of the operand: converted tokens go on in the same way.
  by_cases hif : ∃ ts', ts = .word "if" :: ts'
  · obtain ⟨ts, rfl⟩ := hif
    obtain ⟨us, rfl, h₀⟩ := h.word
    by_cases hlevel : level = 0
    · subst hlevel
      exact ih.climb_conditional hleft h₀ hread hk'
    · rw [climb_if, if_neg hlevel] at hread ⊢
      cases hread
      exact .read hleft h
  · cases hop : takeOperator? ts with
    | none =>
      have hif' : ∀ us', us ≠ .word "if" :: us' := by
        rintro us' rfl
        have := h.head?
        exact hif (List.head?_eq_some_iff.1 this.symm)
      rw [climb_none (fun ts' heq => hif ⟨ts', heq⟩) hop] at hread
      cases hread
      rw [climb_none hif' (h.takeOperator?_none hop)]
      exact .read hleft h
    | some x =>
      obtain ⟨op, ts₁⟩ := x
      obtain ⟨us₁, hop', h₁⟩ := h.takeOperator? hop
      rw [climb_operator op hop] at hread
      rw [climb_operator op hop']
      by_cases hlevel : op.level < level
      · rw [if_pos hlevel] at hread ⊢
        cases hread
        exact .read hleft h
      · rw [if_neg hlevel] at hread ⊢
        by_cases hcomparison : op.isComparison
        · rw [if_pos hcomparison] at hread ⊢
          obtain ⟨⟨chain, ts₂⟩, hchain, hread⟩ := Option.bind_eq_some_iff.1 hread
          refine (ih.comparisons h hchain hk').bind fun hc hm hscaled h₂ => ?_
          exact ih.climb (hleft.comparisonChain hscaled) h₂ hread (by omega) (by omega) (by omega)
        · rw [if_neg hcomparison] at hread ⊢
          obtain ⟨⟨right, ts₂⟩, hright, hread⟩ := Option.bind_eq_some_iff.1 hread
          refine (ih.expression h₁ hright hk').bind fun hc hm hscaled h₂ => ?_
          exact ih.climb (hleft.binary hscaled) h₂ hread (by omega) (by omega) (by omega)

/-- More elements are read again. -/
lemma elements_succ (ih : Follows n) (h : Converts (false :: σ) c m ts us)
    (hread : Parser.elements ")" (n + 1) ts = some (es, comma, rest)) (hk : n + 1 + 8 * c ≤ k) :
    ∃ c₁ c₂ m₁ m₂ es' us', c₁ + c₂ = c ∧ m₁ + m₂ = m ∧
      Parser.elements ")" k us = some (es', comma, us') ∧ AllScaled c₁ m₁ es es' ∧
      Converts σ c₂ m₂ rest us' := by
  obtain ⟨k, rfl, hk'⟩ := exists_fuel hk
  rw [Parser.elements] at hread
  by_cases hclose : ts.head? = some (.sign ")")
  · rw [if_pos hclose] at hread
    obtain ⟨ts, rfl⟩ := List.head?_eq_some_iff.1 hclose
    cases hread
    obtain ⟨b, _, us, hσ, rfl, h'⟩ := h.closed
    cases hσ
    exact ⟨0, c, 0, m, [], us, by omega, by omega, rfl, .nil, h'⟩
  · rw [if_neg hclose] at hread
    obtain ⟨⟨e, ts₁⟩, he, hread⟩ := Option.bind_eq_some_iff.1 hread
    obtain ⟨c₁, c₂, m₁, m₂, e', us₁, rfl, rfl, he', hscaled, h₁⟩ := ih.expression h he hk'
    rw [Parser.elements, if_neg (by rwa [h.head?]), he']
    simp only at hread
    split at hread
    · rename_i s ts₂
      split at hread
      · rename_i hs
        subst hs
        cases hread
        obtain ⟨b, _, us₂, hσ, rfl, h₂⟩ := h₁.closed
        cases hσ
        exact ⟨c₁, c₂, m₁, m₂, [e'], us₂, rfl, rfl, rfl, .cons hscaled .nil, h₂⟩
      · split at hread
        · rename_i hs
          subst hs
          obtain ⟨us₂, rfl, -, h₂⟩ := h₁.comma
          obtain ⟨⟨es', comma', ts₃⟩, hes, hread⟩ := Option.bind_eq_some_iff.1 hread
          cases hread
          obtain ⟨c₃, c₄, m₃, m₄, es'', us₃, rfl, rfl, hes', hscaled', h₃⟩ :=
            ih.elements (k := k) h₂ hes (by omega)
          refine ⟨c₁ + c₃, c₄, m₁ + m₃, m₄, e' :: es'', us₃, by omega, by omega, ?_,
            .cons hscaled hscaled', h₃⟩
          simp [hes']
        · cases hread
    · cases hread

/-- One more application is read again. -/
lemma applied_succ {C M : Nat} (ih : Follows n) (hleft : Scaled c₀ m₀ left left')
    (h : Converts σ c m ts us) (hread : Parser.applied left (n + 1) ts = some (e, rest))
    (hk : n + 1 + 8 * c ≤ k) (hC : c₀ + c = C) (hM : m₀ + m = M) :
    Reads Scaled σ C M e rest (Parser.applied left' k us) := by
  subst hC hM
  obtain ⟨k, rfl, hk'⟩ := exists_fuel hk
  by_cases hopen : ts.head? = some (.sign "(")
  · obtain ⟨ts, rfl⟩ := List.head?_eq_some_iff.1 hopen
    obtain ⟨us, rfl, h₀⟩ := h.open
    rw [Parser.applied] at hread ⊢
    obtain ⟨⟨es, comma, ts₁⟩, hes, hread⟩ := Option.bind_eq_some_iff.1 hread
    obtain ⟨c₁, c₂, m₁, m₂, es', us₁, rfl, rfl, hes', hscaled, h₁⟩ := ih.elements h₀ hes hk'
    rw [hes']
    exact ih.applied (hleft.call hscaled) h₁ hread (by omega) (by omega) (by omega)
  · have hstop : ∀ t ∈ ts.head?, t ≠ .sign "(" ∧ t ≠ .sign "." ∧ t ≠ .sign "[" := by
      intro t ht
      refine ⟨?_, (h.head t ht).1, (h.head t ht).2.1⟩
      rintro rfl
      exact hopen ht
    rw [applied_stop hstop] at hread
    cases hread
    rw [applied_stop (by rwa [h.head?])]
    exact .read hleft h

/-- A call as an operand. -/
lemma operand_name (f : Function) : Parser.operand level (n + 2) (.name f.name :: .sign "(" :: ts) =
    (Parser.elements ")" n ts).bind fun (es, _, ts) => Parser.applied (.call (.name f.name) es) n ts := by
  rw [Parser.operand]
  · rfl
  · simp

/-- The names of the trigonometric functions are trigonometric. -/
lemma isTrigonometric_name {f : Function} (hf : f ∈ Function.trigonometric) :
    (Expression.name f.name).isTrigonometric := by
  simp only [isTrigonometric, List.any_eq_true]
  exact ⟨f, hf, by simp⟩

/-- A call of a trigonometric function whose argument is left out. -/
lemma operand_call_left {f : Function} (ih : Follows (n + 1)) (hf : f ∈ Function.trigonometric)
    (hne : ts.head? ≠ some (.sign ")")) (h : Converts (false :: σ) c m ts us)
    (hread : Parser.operand level (n + 3) (.name f.name :: .sign "(" :: ts) = some (e, rest))
    (hk : n + 3 + 8 * c ≤ k) :
    Reads Scaled σ c (m + 1) e rest (Parser.operand level k (.name f.name :: .sign "(" :: us)) := by
  obtain ⟨k, rfl⟩ : ∃ k', k = k' + 2 := ⟨k - 2, by omega⟩
  rw [operand_name] at hread ⊢
  obtain ⟨⟨es, comma, ts₁⟩, hes, hread⟩ := Option.bind_eq_some_iff.1 hread
  obtain ⟨c₁, c₂, m₁, m₂, es', us₁, rfl, rfl, hes', hscaled, h₁⟩ :=
    ih.elements (k := k) h hes (by omega)
  rw [hes']
  have hcall := Scaled.call_left (isTrigonometric_name hf) (elements_ne_nil hne hes) hscaled
  exact ih.applied hcall h₁ hread (by omega) rfl (by omega)

/-- The closing parenthesis of a multiplied argument: a comma would not be multiplied. -/
lemma elements_closing {x : Expression} (hx : Parser.expression 0 n ts = some (x, ts₁))
    (hne : ts.head? ≠ some (.sign ")")) (hes : Parser.elements ")" (n + 1) ts = some (es, comma, rest))
    (h : Converts (true :: σ) c m ts₁ us) :
    ∃ us', us = closing true ++ us' ∧ es = [x] ∧ Converts σ c m rest us' := by
  rw [Parser.elements, if_neg hne, hx] at hes
  simp only [Option.bind_eq_bind, Option.bind_some] at hes
  split at hes
  · rename_i s ts₂
    split at hes
    · rename_i hs
      subst hs
      cases hes
      obtain ⟨b, _, us', hσ, rfl, h'⟩ := h.closed
      cases hσ
      exact ⟨us', rfl, rfl, h'⟩
    · split at hes
      · rename_i hs
        subst hs
        obtain ⟨-, -, hσ, -⟩ := h.comma
        cases hσ
      · cases hes
  · cases hes

/-- A call of a trigonometric function whose argument is multiplied. -/
lemma operand_call_multiplied {f : Function} (ih : Follows n) (ih' : Follows (n + 1))
    (hf : f ∈ Function.trigonometric) (hne : ts.head? ≠ some (.sign ")"))
    (h : Converts (true :: σ) c m ts us)
    (hread : Parser.operand level (n + 3) (.name f.name :: .sign "(" :: ts) = some (e, rest))
    (hk : n + 3 + 8 * (c + 1) ≤ k) :
    Reads Scaled σ (c + 1) m e rest
      (Parser.operand level k (.name f.name :: .sign "(" :: .sign "(" :: us)) := by
  obtain ⟨k, rfl⟩ : ∃ k', k = k' + 10 := ⟨k - 10, by omega⟩
  rw [operand_name] at hread ⊢
  obtain ⟨⟨es, comma, ts₁⟩, hes, hread⟩ := Option.bind_eq_some_iff.1 hread
  obtain ⟨⟨x, ts₂⟩, hx, -⟩ := Option.bind_eq_some_iff.1 ((if_neg hne).symm.trans hes)
  obtain ⟨c₁, c₂, m₁, m₂, x', us₁, rfl, rfl, hx', hscaled, h₁⟩ :=
    ih.expression (k := k + 3) h hx (by omega)
  obtain ⟨us₂, rfl, rfl, h₂⟩ := elements_closing hx hne hes h₁
  rw [elements_multiplied (by rwa [h.head?]) hx']
  have hcall := hscaled.call_ofDegrees (isTrigonometric_name hf)
  exact ih'.applied hcall h₂ hread (by omega) (by omega) rfl

/-- A call of a trigonometric function, with its argument multiplied or left out. -/
lemma operand_call {b : Bool} {f : Function} (ih : ∀ n' < n, Follows n')
    (hf : f ∈ Function.trigonometric) (hne : ts.head? ≠ some (.sign ")"))
    (h : Converts (b :: σ) c m ts us)
    (hread : Parser.operand level (n + 1) (.name f.name :: .sign "(" :: ts) = some (e, rest))
    (hk : n + 1 + 8 * (c + b.toNat) ≤ k) :
    Reads Scaled σ (c + b.toNat) (m + (!b).toNat) e rest
      (Parser.operand level k (.name f.name :: (opening b ++ us))) := by
  match n with
  | 0 => cases hread
  | 1 =>
    rw [operand_name] at hread
    cases hread
  | n + 2 =>
    have hn := ih (n + 1) (Nat.lt_succ_self _)
    cases b with
    | false => exact operand_call_left hn hf hne h hread hk
    | true => exact operand_call_multiplied (ih n (by omega)) hn hf hne h hread hk

/-- An operand that begins with an ordinary token. -/
lemma operand_ordinary {t : Token} (ih : Follows n) (ht : Ordinary σ t) (h : Converts σ c m ts us)
    (hread : Parser.operand level (n + 1) (t :: ts) = some (e, rest)) (hk : n + 1 + 8 * c ≤ k) :
    Reads Scaled σ c m e rest (Parser.operand level k (t :: us)) := by
  obtain ⟨k, rfl, hk'⟩ := exists_fuel hk
  have hunary : ∀ {level op}, ((Parser.expression level n ts).bind fun (e, ts) =>
      some (Expression.unary op e, ts)) = some (e, rest) → Reads Scaled σ c m e rest
        ((Parser.expression level k us).bind fun (e, ts) => some (Expression.unary op e, ts)) := by
    intro level op hread
    obtain ⟨⟨a, ts₁⟩, ha, hread⟩ := Option.bind_eq_some_iff.1 hread
    cases hread
    refine (ih.expression h ha hk').bind fun hc hm hscaled h₁ => ?_
    subst hc hm
    exact .read hscaled.unary h₁
  by_cases hnot : t = .word "not"
  · subst hnot
    rw [operand_not] at hread ⊢
    split at hread
    · rename_i hlevel
      rw [if_pos hlevel]
      exact hunary hread
    · cases hread
  · rw [operand_cons hnot] at hread ⊢
    cases hsign : sign? t with
    | some op =>
      simp only [hsign] at hread ⊢
      split at hread
      · rename_i hlevel
        rw [if_pos hlevel]
        exact hunary hread
      · cases hread
    | none =>
      simp only [hsign] at hread ⊢
      obtain ⟨⟨a, ts₁⟩, hatom, happlied⟩ := Option.bind_eq_some_iff.1 hread
      obtain ⟨rfl, hscaled, hatom'⟩ := atom_ordinary ht hatom
      obtain ⟨k, rfl⟩ : ∃ k', k = k' + 1 := by
        cases n with
        | zero => cases hatom
        | succ n => exact ⟨k - 1, by omega⟩
      rw [hatom']
      exact ih.applied hscaled h happlied hk' (Nat.zero_add c) (Nat.zero_add m)

/-- An operand that begins with a group. -/
lemma operand_group (ih : ∀ n' ≤ n, Follows n') (h : Converts (false :: σ) c m ts us)
    (hread : Parser.operand level (n + 1) (.sign "(" :: ts) = some (e, rest))
    (hk : n + 1 + 8 * c ≤ k) :
    Reads Scaled σ c m e rest (Parser.operand level k (.sign "(" :: us)) := by
  obtain ⟨k, rfl, hk'⟩ := exists_fuel hk
  rw [operand_cons (by simp)] at hread ⊢
  simp only [sign?] at hread ⊢
  obtain ⟨⟨a, ts₁⟩, hatom, hread⟩ := Option.bind_eq_some_iff.1 hread
  cases n with
  | zero => cases hatom
  | succ n =>
    obtain ⟨k, rfl, hk''⟩ := exists_fuel hk'
    rw [atom_group] at hatom ⊢
    obtain ⟨⟨es, comma, ts₂⟩, hes, hatom⟩ := Option.bind_eq_some_iff.1 hatom
    obtain ⟨c₁, c₂, m₁, m₂, es', us₁, rfl, rfl, hes', hscaled, h₁⟩ :=
      (ih n (Nat.le_succ n)).elements h hes hk''
    cases hatom
    rw [hes']
    exact (ih (n + 1) (Nat.le_refl _)).applied (scaled_grouped hscaled) h₁ hread (by omega) rfl rfl

/-- One more step of an operand is read again. -/
lemma operand_succ (ih : ∀ n' ≤ n, Follows n') (h : Converts σ c m ts us)
    (hread : Parser.operand level (n + 1) ts = some (e, rest)) (hk : n + 1 + 8 * c ≤ k) :
    Reads Scaled σ c m e rest (Parser.operand level k us) := by
  cases ts with
  | nil =>
    rw [Parser.operand] at hread
    cases hread
  | cons t ts =>
    have hn := ih n (Nat.le_refl n)
    obtain ⟨us, rfl, ht, h'⟩ | ⟨rfl, us, rfl, h'⟩ | ⟨rfl, -⟩ |
      ⟨b, f, c, m, ts, us, hf, rfl, rfl, hne, rfl, rfl, rfl, h'⟩ := h.cons_inv
    · exact operand_ordinary hn ht h' hread hk
    · exact operand_group ih h' hread hk
    · rw [operand_cons (by simp)] at hread
      obtain ⟨⟨e, ts₁⟩, hatom, -⟩ := Option.bind_eq_some_iff.1 hread
      cases n with
      | zero => cases hatom
      | succ n => cases hatom
    · exact operand_call (fun n' hn' => ih n' (Nat.le_of_lt hn')) hf hne h' hread hk

end Follows

/-- The functions of the reader follow conversions. -/
theorem follows (n : Nat) : Follows n := by
  induction n using Nat.strongRecOn with
  | _ n ih =>
    cases n with
    | zero =>
      exact {
        expression := fun _ h => by cases h
        climb := fun _ _ h => by cases h
        comparisons := fun _ h => by cases h
        operand := fun _ h => by cases h
        applied := fun _ _ h => by cases h
        elements := fun _ h => by cases h }
    | succ n =>
      have hn := ih n (Nat.lt_succ_self n)
      exact {
        expression := hn.expression_succ
        climb := hn.climb_succ
        comparisons := hn.comparisons_succ
        operand := Follows.operand_succ fun n' h => ih n' (Nat.lt_succ_of_le h)
        applied := hn.applied_succ
        elements := hn.elements_succ }

/-- No line ends among tokens that are converted. -/
lemma Converts.notMem_lineEnd (h : Converts σ c m ts us) :
    Token.lineEnd ∉ ts ∧ Token.lineEnd ∉ us := by
  induction h with
  | nil => simp
  | token ht _ ih =>
    have hne : ∀ {t}, isInlineToken t → Token.lineEnd ≠ t := by
      rintro _ ht rfl
      cases ht
    exact ⟨by simpa [ih.1] using hne ht.1, by simpa [ih.2] using hne ht.1⟩
  | group _ ih => simpa using ih
  | @close _ _ _ b _ _ _ ih => cases b <;> simpa [closing] using ih
  | @call _ _ _ b _ _ _ _ _ _ ih => cases b <;> simpa [opening] using ih

/-- Tokens without line ends are read as a sequence. -/
lemma ofTokens?_eq (h : Token.lineEnd ∉ ts) :
    ofTokens? ts = (sequence (ts.length + 1) ts).bind fun (es, comma) => some (grouped es comma) := by
  have hstrip : (ts.reverse.dropWhile (· == .lineEnd)).reverse = ts := by
    cases hts : ts.reverse with
    | nil => rw [List.reverse_eq_nil_iff.1 hts]; rfl
    | cons t us =>
      have ht : t ≠ .lineEnd := by
        rintro rfl
        exact h (List.mem_reverse.1 (by simp [hts]))
      rw [List.dropWhile_cons_of_neg (by simpa using ht), ← hts, List.reverse_reverse]
  rw [ofTokens?]
  simp only [hstrip]
  refine congrArg (Option.bind _) (funext fun (es, comma) => ?_)
  simp only
  split
  · rename_i heq
    cases heq
    rfl
  · rename_i hone heq
    cases heq
    rw [grouped_eq_tuple]
    rintro ⟨hlength, rfl⟩
    obtain ⟨e, rfl⟩ := List.length_eq_one_iff.1 hlength
    exact hone e rfl rfl

/-- The expression that converted tokens spell, in place of the one that the tokens spell. -/
theorem Converts.ofTokens? (h : Converts [] c m ts us) (hread : ofTokens? ts = some e) :
    ∃ e', Parser.ofTokens? us = some e' ∧ Scaled c m e e' := by
  rw [ofTokens?_eq h.notMem_lineEnd.1] at hread
  rw [ofTokens?_eq h.notMem_lineEnd.2]
  obtain ⟨⟨es, comma⟩, hes, hread⟩ := Option.bind_eq_some_iff.1 hread
  rw [sequence] at hes
  obtain ⟨⟨x, rest⟩, hx, hes⟩ := Option.bind_eq_some_iff.1 hes
  have hlength := h.length
  rw [List.count_nil] at hlength
  obtain ⟨c₁, c₂, m₁, m₂, x', us', rfl, rfl, hx', hscaled, hrest⟩ :=
    (follows _).expression (k := 4 * us.length + 4) h hx (by omega)
  have hrest_nil : rest = [] := by
    simp only at hes
    split at hes
    · rfl
    · obtain ⟨-, -, hσ, -⟩ := hrest.comma
      cases hσ
    · obtain ⟨-, -, hσ, -⟩ := hrest.comma
      cases hσ
    · cases hes
  subst hrest_nil
  obtain ⟨-, rfl, rfl, rfl⟩ := hrest.eq_nil
  cases hes
  cases hread
  refine ⟨x', ?_, hscaled⟩
  rw [sequence, hx']
  rfl

end Formulary.Parser
