import Formulary.Proofs.Expression.Interruption
import Formulary.Proofs.Expression.Nesting
import Formulary.Proofs.Expression.Rereading

/-!
# Expressions that select nothing

A part `x.e` or an element `x[0]` of a value is all that could interrupt the evaluation of an
expression whose names have values. A text without the bracket `[` in which points stand only before
digits (`selectsNothing`) has no token for either, and of such tokens no expression is read that
takes a part or an element (`compile_selectsNothing`).
-/

namespace Formulary

namespace Text

/-- Whether a text begins with a digit. -/
def startsWithDigit (s : List Char) : Bool := s.head?.any Char.isDigit

/-- Whether a text has no opening bracket of an index, and points only before digits. -/
def selectsNothing : List Char → Bool
  | [] => true
  | c :: rest => c != '[' && (c != '.' || startsWithDigit rest) && selectsNothing rest

variable {s u v : List Char} {c : Char}

/-- What one more character asks of a text that selects nothing. -/
lemma selectsNothing_cons :
    selectsNothing (c :: s) ↔ c ≠ '[' ∧ (c = '.' → startsWithDigit s) ∧ selectsNothing s := by
  simp [selectsNothing, imp_iff_not_or, and_assoc]

/--
A character that is neither a bracket nor a point may stand in front of a text that selects nothing.
-/
lemma selectsNothing_cons_of_ne (hbracket : c ≠ '[') (hpoint : c ≠ '.') (h : selectsNothing s) :
    selectsNothing (c :: s) :=
  selectsNothing_cons.2 ⟨hbracket, fun hc => absurd hc hpoint, h⟩

/-- The end of a text that selects nothing does not either. -/
lemma selectsNothing_of_suffix (h : selectsNothing s) (hu : u <:+ s) : selectsNothing u := by
  induction s with
  | nil =>
    rw [List.suffix_nil.1 hu]
    rfl
  | cons c s ih =>
    obtain rfl | hu := List.suffix_cons_iff.1 hu
    · exact h
    · exact ih (selectsNothing_cons.1 h).2.2 hu

end Text

open Text

/-! ### Tokens -/

namespace Token

/-- Whether a token is not the one that a part or an index is written with. -/
def selectsNothing (t : Token) : Prop := t ≠ .sign "." ∧ t ≠ .sign "["

variable {s r : List Char} {c : Char} {t : Token} {ts : List Token}

/-- Tokens that are no signs select nothing. -/
lemma selectsNothing_of_ne_sign (h : ∀ p, t ≠ .sign p) : t.selectsNothing := ⟨h ".", h "["⟩

/-- A quoted text is read off the beginning of a text. -/
lemma takeQuoted?_suffix {quote : Char} {q : List Char} (h : takeQuoted? quote s = some (q, r)) :
    r <:+ s := by
  fun_induction takeQuoted? quote s generalizing q r with
  | case1 => cases h
  | case2 c rest ih =>
    obtain ⟨⟨q, r⟩, hq, h⟩ := Option.map_eq_some_iff.1 h
    cases h
    exact ((ih hq).trans (List.suffix_cons _ _)).trans (List.suffix_cons _ _)
  | case3 rest =>
    cases h
    exact List.suffix_cons _ _
  | case4 => cases h
  | case5 c rest _ _ _ ih =>
    obtain ⟨⟨q, r⟩, hq, h⟩ := Option.map_eq_some_iff.1 h
    cases h
    exact (ih hq).trans (List.suffix_cons _ _)

/-- A token of a text that selects nothing, and what follows it. -/
lemma selectsNothing_take? (hs : Text.selectsNothing (c :: s)) (h : take? (c :: s) = some (t, r)) :
    t.selectsNothing ∧ r <:+ s := by
  cases hquote : isQuote c with
  | true =>
    have hc : c = '\'' ∨ c = '"' := by simpa [isQuote] using hquote
    have hdigit : (c.isDigit || (c == '.' && s.head?.any Char.isDigit)) = false := by
      obtain rfl | rfl := hc <;> rfl
    simp only [take?, hdigit, Bool.false_eq_true, if_false, if_pos hc] at h
    obtain ⟨⟨q, rest⟩, hq, h⟩ := Option.map_eq_some_iff.1 h
    cases h
    exact ⟨selectsNothing_of_ne_sign (by simp), takeQuoted?_suffix hq⟩
  | false =>
    refine ⟨?_, take?_suffix hquote h⟩
    obtain ht | ⟨n, rfl⟩ | ⟨n, rfl⟩ | ⟨p, -, rfl, hp⟩ := take?_kinds hquote h
    · constructor <;> rintro rfl <;> cases ht
    · exact selectsNothing_of_ne_sign (by simp)
    · exact selectsNothing_of_ne_sign (by simp)
    · obtain ⟨hbracket, hpoint, -⟩ := selectsNothing_cons.1 hs
      constructor <;> intro heq <;> cases heq
      · -- a point stands before a digit, and then begins a numeral
        obtain rfl : '.' = c := Option.some.inj hp
        have hdigit : s.head?.any Char.isDigit = true := hpoint rfl
        simp only [take?, hdigit, beq_self_eq_true, Bool.and_self, Bool.or_true, if_true] at h
        cases isNumeral_of_takeNumeral? h
      · exact hbracket (Option.some.inj hp).symm

/-- No token of a text that selects nothing selects anything. -/
lemma selectsNothing_tokensFrom? {lineStart indented : Bool} {depth fuel : Nat}
    (hs : Text.selectsNothing s)
    (h : tokensFrom? lineStart indented depth fuel s = some ts) : ∀ t ∈ ts, t.selectsNothing := by
  -- What is left of the text is always an end of it. Nothing is read in the cases left out at first;
  -- the others are the end, blanks (4, 5), a comment, line ends (7, 8), a joined line and a token.
  fun_induction tokensFrom? lineStart indented depth fuel s generalizing ts with
  | case1 | case3 | case10 | case11 | case12 | case13 => cases h
  | case2 =>
    cases h
    simp
  | case4 _ _ _ _ _ _ _ ih | case5 _ _ _ _ _ _ ih | case7 _ _ _ _ _ _ _ _ _ _ _ ih =>
    exact ih (selectsNothing_of_suffix hs (List.suffix_cons _ _)) h
  | case6 _ _ _ _ rest _ _ ih =>
    exact ih (selectsNothing_of_suffix hs
      ((List.dropWhile_suffix _).trans (List.suffix_cons _ _))) h
  | case8 _ _ _ _ _ _ _ _ _ _ _ ih =>
    obtain ⟨ts, hts, rfl⟩ := Option.map_eq_some_iff.1 h
    exact List.forall_mem_cons.2
      ⟨selectsNothing_of_ne_sign (by simp), ih (selectsNothing_of_suffix hs (List.suffix_cons _ _)) hts⟩
  | case9 _ _ _ _ _ _ _ _ _ ih =>
    exact ih (selectsNothing_of_suffix hs
      ((List.suffix_cons _ _).trans (List.suffix_cons _ _))) h
  | case14 _ _ _ _ _ _ _ _ _ _ _ _ t rest htake _ _ ih =>
    obtain ⟨ts, hts, rfl⟩ := Option.map_eq_some_iff.1 h
    obtain ⟨ht, hrest⟩ := selectsNothing_take? hs htake
    exact List.forall_mem_cons.2
      ⟨ht, ih (selectsNothing_of_suffix hs (hrest.trans (List.suffix_cons _ _))) hts⟩

end Token

/-! ### Expressions -/

namespace Expression

/-- Whether nothing in an expression takes a part or an element of a value. -/
def SelectsNothing (e : Expression) : Prop := ∀ s ∈ e.subexpressions, ¬ s.isSelection

/-- The same for the expressions of a list. -/
def AllSelectNothing (es : List Expression) : Prop :=
  ∀ s ∈ subexpressionsOfAll es, ¬ s.isSelection

variable {e a b c f : Expression} {es args : List Expression}

/-- A unary operation selects nothing if its operand does not. -/
@[simp] lemma selectsNothing_unary {op : UnaryOp} :
    (unary op e).SelectsNothing ↔ e.SelectsNothing := by
  simp [SelectsNothing, subexpressions, isSelection]

/-- A binary operation selects nothing if its operands do not. -/
@[simp] lemma selectsNothing_binary {op : BinaryOp} :
    (binary op a b).SelectsNothing ↔ a.SelectsNothing ∧ b.SelectsNothing := by
  simp [SelectsNothing, subexpressions, isSelection, or_imp, forall_and]

/-- A conditional selects nothing if its parts do not. -/
@[simp] lemma selectsNothing_conditional : (conditional c a b).SelectsNothing ↔
    c.SelectsNothing ∧ a.SelectsNothing ∧ b.SelectsNothing := by
  simp [SelectsNothing, subexpressions, isSelection, or_imp, forall_and]

/-- A call selects nothing if the function and the arguments do not. -/
@[simp] lemma selectsNothing_call :
    (call f args).SelectsNothing ↔ f.SelectsNothing ∧ AllSelectNothing args := by
  simp [SelectsNothing, AllSelectNothing, subexpressions, isSelection, or_imp, forall_and]

/-- A tuple selects nothing if its elements do not. -/
@[simp] lemma selectsNothing_tuple : (tuple es).SelectsNothing ↔ AllSelectNothing es := by
  simp [SelectsNothing, AllSelectNothing, subexpressions, isSelection]

/-- A list selects nothing if its elements do not. -/
@[simp] lemma selectsNothing_list : (list es).SelectsNothing ↔ AllSelectNothing es := by
  simp [SelectsNothing, AllSelectNothing, subexpressions, isSelection]

/-- No expressions select nothing. -/
@[simp] lemma allSelectNothing_nil : AllSelectNothing [] := by
  simp [AllSelectNothing, subexpressionsOfAll]

/-- Expressions select nothing if each of them does not. -/
@[simp] lemma allSelectNothing_cons :
    AllSelectNothing (e :: es) ↔ e.SelectsNothing ∧ AllSelectNothing es := by
  simp [SelectsNothing, AllSelectNothing, subexpressionsOfAll, or_imp, forall_and]

/-- Comparisons in a row select nothing if what they compare does not. -/
lemma selectsNothing_comparisonChain {chain : List (BinaryOp × Expression)}
    (he : e.SelectsNothing) (h : ∀ p ∈ chain, p.2.SelectsNothing) :
    (comparisonChain e chain).SelectsNothing := by
  fun_induction comparisonChain e chain with
  | case1 => exact he
  | case2 => exact selectsNothing_binary.2 ⟨he, h _ List.mem_cons_self⟩
  | case3 e op e' rest hrest ih =>
    rw [List.forall_mem_cons] at h
    simpa using ⟨⟨he, h.1⟩, ih h.1 h.2⟩

end Expression

/-! ### Reading -/

namespace Parser

open Expression

/-- Whether no token of some is one that a part or an index is written with. -/
def SelectNothing (ts : List Token) : Prop := ∀ t ∈ ts, t.selectsNothing

variable {level n : Nat} {t : Token} {ts rest : List Token} {e left : Expression}
  {es : List Expression} {comma : Bool}

/-- The last ones of tokens that select nothing do not either. -/
lemma SelectNothing.of_suffix (h : SelectNothing ts) (hrest : rest <:+ ts) : SelectNothing rest :=
  fun t ht => h t (hrest.subset ht)

/-- All but the first of tokens that select nothing do not either. -/
lemma SelectNothing.tail (h : SelectNothing (t :: ts)) : SelectNothing ts :=
  h.of_suffix (List.suffix_cons _ _)

/-- What the functions of the reader make of tokens that select nothing. -/
structure Keeps (n : Nat) : Prop where
  expression : ∀ {level ts e rest}, SelectNothing ts →
    expression level n ts = some (e, rest) → e.SelectsNothing ∧ SelectNothing rest
  climb : ∀ {level left ts e rest}, left.SelectsNothing → SelectNothing ts →
    climb level left n ts = some (e, rest) → e.SelectsNothing ∧ SelectNothing rest
  comparisons : ∀ {ts chain rest}, SelectNothing ts → comparisons n ts = some (chain, rest) →
    (∀ p ∈ chain, p.2.SelectsNothing) ∧ SelectNothing rest
  operand : ∀ {level ts e rest}, SelectNothing ts →
    operand level n ts = some (e, rest) → e.SelectsNothing ∧ SelectNothing rest
  atom : ∀ {ts e rest}, SelectNothing ts →
    atom n ts = some (e, rest) → e.SelectsNothing ∧ SelectNothing rest
  applied : ∀ {left ts e rest}, left.SelectsNothing → SelectNothing ts →
    applied left n ts = some (e, rest) → e.SelectsNothing ∧ SelectNothing rest
  elements : ∀ {close ts es comma rest}, SelectNothing ts →
    elements close n ts = some (es, comma, rest) → AllSelectNothing es ∧ SelectNothing rest

/-- An operator is read off the beginning of tokens. -/
lemma takeOperator?_suffix {op : BinaryOp} (h : takeOperator? ts = some (op, rest)) : rest <:+ ts := by
  unfold takeOperator? at h
  split at h
  · cases h
    exact (List.suffix_cons _ _).trans (List.suffix_cons _ _)
  · cases h
    exact (List.suffix_cons _ _).trans (List.suffix_cons _ _)
  · obtain ⟨_, -, h⟩ := Option.map_eq_some_iff.1 h
    cases h
    exact List.suffix_cons _ _
  · cases h

/-- Texts are read off the beginning of tokens. -/
lemma takeTexts_suffix {s : String} (ts : List Token) : (takeTexts s ts).2 <:+ ts := by
  fun_induction takeTexts s ts with
  | case1 s t rest ih => exact ih.trans (List.suffix_cons _ _)
  | case2 => exact List.suffix_refl _

/-- What is grouped selects nothing if its elements do not. -/
lemma selectsNothing_grouped (h : AllSelectNothing es) : (grouped es comma).SelectsNothing := by
  unfold grouped
  split
  · exact (allSelectNothing_cons.1 h).1
  · exact selectsNothing_tuple.2 h

namespace Keeps

/-- One more step of an expression selects nothing. -/
lemma expression_succ (ih : Keeps n) (hts : SelectNothing ts)
    (h : Parser.expression level (n + 1) ts = some (e, rest)) :
    e.SelectsNothing ∧ SelectNothing rest := by
  rw [Parser.expression] at h
  obtain ⟨⟨left, ts₁⟩, hleft, h⟩ := Option.bind_eq_some_iff.1 h
  obtain ⟨hfree, hts₁⟩ := ih.operand hts hleft
  exact ih.climb hfree hts₁ h

/-- One more step of climbing selects nothing. -/
lemma climb_succ (ih : Keeps n) (hleft : left.SelectsNothing) (hts : SelectNothing ts)
    (h : Parser.climb level left (n + 1) ts = some (e, rest)) :
    e.SelectsNothing ∧ SelectNothing rest := by
  by_cases hif : ∃ ts', ts = .word "if" :: ts'
  · obtain ⟨ts', rfl⟩ := hif
    rw [climb_if] at h
    split at h
    · obtain ⟨⟨c, ts₁⟩, hc, h⟩ := Option.bind_eq_some_iff.1 h
      obtain ⟨hcondition, hts₁⟩ := ih.expression hts.tail hc
      dsimp only at h
      split at h
      · obtain ⟨⟨a, ts₂⟩, ha, h⟩ := Option.bind_eq_some_iff.1 h
        obtain ⟨halternative, hts₂⟩ := ih.expression hts₁.tail ha
        cases h
        exact ⟨selectsNothing_conditional.2 ⟨hcondition, hleft, halternative⟩, hts₂⟩
      · cases h
    · cases h
      exact ⟨hleft, hts⟩
  · cases hop : takeOperator? ts with
    | none =>
      rw [climb_none (fun ts' hts' => hif ⟨ts', hts'⟩) hop] at h
      cases h
      exact ⟨hleft, hts⟩
    | some x =>
      obtain ⟨op, ts'⟩ := x
      rw [climb_operator op hop] at h
      split at h
      · cases h
        exact ⟨hleft, hts⟩
      · split at h
        · obtain ⟨⟨chain, ts₁⟩, hchain, h⟩ := Option.bind_eq_some_iff.1 h
          obtain ⟨hfree, hts₁⟩ := ih.comparisons hts hchain
          exact ih.climb (selectsNothing_comparisonChain hleft hfree) hts₁ h
        · obtain ⟨⟨right, ts₁⟩, hright, h⟩ := Option.bind_eq_some_iff.1 h
          obtain ⟨hfree, hts₁⟩ := ih.expression (hts.of_suffix (takeOperator?_suffix hop)) hright
          exact ih.climb (selectsNothing_binary.2 ⟨hleft, hfree⟩) hts₁ h

/-- One more comparison selects nothing. -/
lemma comparisons_succ (ih : Keeps n) {chain : List (BinaryOp × Expression)}
    (hts : SelectNothing ts) (h : Parser.comparisons (n + 1) ts = some (chain, rest)) :
    (∀ p ∈ chain, p.2.SelectsNothing) ∧ SelectNothing rest := by
  rw [Parser.comparisons] at h
  split at h
  · rename_i op ts' hop
    split at h
    · obtain ⟨⟨e, ts₁⟩, he, h⟩ := Option.bind_eq_some_iff.1 h
      obtain ⟨hfree, hts₁⟩ := ih.expression (hts.of_suffix (takeOperator?_suffix hop)) he
      obtain ⟨⟨chain', ts₂⟩, hchain, h⟩ := Option.bind_eq_some_iff.1 h
      obtain ⟨hfree', hts₂⟩ := ih.comparisons hts₁ hchain
      cases h
      exact ⟨List.forall_mem_cons.2 ⟨hfree, hfree'⟩, hts₂⟩
    · cases h
      exact ⟨by simp, hts⟩
  · cases h
    exact ⟨by simp, hts⟩

/-- One more step of an operand selects nothing. -/
lemma operand_succ (ih : Keeps n) (hts : SelectNothing ts)
    (h : Parser.operand level (n + 1) ts = some (e, rest)) :
    e.SelectsNothing ∧ SelectNothing rest := by
  cases ts with
  | nil => cases h
  | cons t ts =>
    by_cases hnot : t = .word "not"
    · subst hnot
      rw [operand_not] at h
      split at h
      · obtain ⟨⟨e, ts₁⟩, he, h⟩ := Option.bind_eq_some_iff.1 h
        cases h
        simpa using ih.expression hts.tail he
      · cases h
    · rw [operand_cons hnot] at h
      split at h
      · split at h
        · obtain ⟨⟨e, ts₁⟩, he, h⟩ := Option.bind_eq_some_iff.1 h
          cases h
          simpa using ih.expression hts.tail he
        · cases h
      · obtain ⟨⟨e, ts₁⟩, he, h⟩ := Option.bind_eq_some_iff.1 h
        obtain ⟨hfree, hts₁⟩ := ih.atom hts he
        exact ih.applied hfree hts₁ h

/-- One more atom selects nothing. -/
lemma atom_succ (ih : Keeps n) (hts : SelectNothing ts)
    (h : Parser.atom (n + 1) ts = some (e, rest)) : e.SelectsNothing ∧ SelectNothing rest := by
  have hleaf : ∀ {e : Expression}, e.subexpressions = [e] → e.isSelection = false →
      e.SelectsNothing := fun hsub hfree s hs => by
    rw [hsub, List.mem_singleton] at hs
    simp [hs, hfree]
  cases ts with
  | nil => cases h
  | cons t ts =>
    by_cases hgroup : t = .sign "("
    · subst hgroup
      rw [atom_group] at h
      obtain ⟨⟨es, comma, ts₁⟩, hes, h⟩ := Option.bind_eq_some_iff.1 h
      obtain ⟨hfree, hts₁⟩ := ih.elements hts.tail hes
      cases h
      exact ⟨selectsNothing_grouped hfree, hts₁⟩
    · unfold Parser.atom at h
      split at h
      case h_5 s ts' heq =>
        cases heq
        cases h
        exact ⟨hleaf rfl rfl, hts.tail.of_suffix (takeTexts_suffix ts)⟩
      case h_10 heq =>
        cases heq
        exact absurd rfl hgroup
      case h_11 heq =>
        cases heq
        exact absurd rfl (hts _ List.mem_cons_self).2
      case h_12 => cases h
      all_goals
        rename_i heq
        cases heq
        cases h
        exact ⟨hleaf rfl rfl, hts.tail⟩

/-- One more application selects nothing. -/
lemma applied_succ (ih : Keeps n) (hleft : left.SelectsNothing) (hts : SelectNothing ts)
    (h : Parser.applied left (n + 1) ts = some (e, rest)) :
    e.SelectsNothing ∧ SelectNothing rest := by
  unfold Parser.applied at h
  split at h
  · obtain ⟨⟨es, comma, ts₁⟩, hes, h⟩ := Option.bind_eq_some_iff.1 h
    obtain ⟨hfree, hts₁⟩ := ih.elements hts.tail hes
    exact ih.applied (selectsNothing_call.2 ⟨hleft, hfree⟩) hts₁ h
  · exact absurd rfl (hts _ List.mem_cons_self).1
  · exact absurd rfl (hts _ List.mem_cons_self).2
  · cases h
    exact ⟨hleft, hts⟩

/-- More elements select nothing. -/
lemma elements_succ (ih : Keeps n) {close : String} (hts : SelectNothing ts)
    (h : Parser.elements close (n + 1) ts = some (es, comma, rest)) :
    AllSelectNothing es ∧ SelectNothing rest := by
  rw [Parser.elements] at h
  split at h
  · cases h
    exact ⟨allSelectNothing_nil, hts.of_suffix (List.tail_suffix _)⟩
  · obtain ⟨⟨e, ts₁⟩, he, h⟩ := Option.bind_eq_some_iff.1 h
    obtain ⟨hfree, hts₁⟩ := ih.expression hts he
    dsimp only at h
    split at h
    · split at h
      · cases h
        exact ⟨allSelectNothing_cons.2 ⟨hfree, allSelectNothing_nil⟩, hts₁.tail⟩
      · split at h
        · obtain ⟨⟨es, comma, ts₂⟩, hes, h⟩ := Option.bind_eq_some_iff.1 h
          obtain ⟨hfree', hts₂⟩ := ih.elements hts₁.tail hes
          cases h
          exact ⟨allSelectNothing_cons.2 ⟨hfree, hfree'⟩, hts₂⟩
        · cases h
    · cases h

end Keeps

/-- Every function of the reader keeps to tokens and expressions that select nothing. -/
theorem keeps (n : Nat) : Keeps n := by
  induction n with
  | zero =>
    constructor <;> intros <;> rename_i h <;> cases h
  | succ n ih =>
    exact {
      expression := ih.expression_succ
      climb := ih.climb_succ
      comparisons := ih.comparisons_succ
      operand := ih.operand_succ
      atom := ih.atom_succ
      applied := ih.applied_succ
      elements := ih.elements_succ }

/-- A sequence that is read of tokens that select nothing does not either. -/
lemma selectNothing_sequence {fuel : Nat} (hts : SelectNothing ts)
    (h : sequence fuel ts = some (es, comma)) : AllSelectNothing es := by
  induction fuel generalizing ts es comma with
  | zero => cases h
  | succ fuel ih =>
    rw [sequence] at h
    obtain ⟨⟨e, ts₁⟩, he, h⟩ := Option.bind_eq_some_iff.1 h
    obtain ⟨hfree, hts₁⟩ := (keeps _).expression hts he
    dsimp only at h
    split at h
    · cases h
      exact allSelectNothing_cons.2 ⟨hfree, allSelectNothing_nil⟩
    · cases h
      exact allSelectNothing_cons.2 ⟨hfree, allSelectNothing_nil⟩
    · obtain ⟨⟨es, comma⟩, hes, h⟩ := Option.bind_eq_some_iff.1 h
      cases h
      exact allSelectNothing_cons.2 ⟨hfree, ih hts₁.tail hes⟩
    · cases h

/-- The expression that is read of tokens that select nothing does not either. -/
lemma selectsNothing_ofTokens? (hts : SelectNothing ts) (h : ofTokens? ts = some e) :
    e.SelectsNothing := by
  rw [ofTokens?] at h
  have hstrip : SelectNothing (ts.reverse.dropWhile (· == .lineEnd)).reverse := fun t ht =>
    hts t (List.mem_reverse.1 ((List.dropWhile_sublist _).subset (List.mem_reverse.1 ht)))
  obtain ⟨⟨es, comma⟩, hes, h⟩ := Option.bind_eq_some_iff.1 h
  have hfree := selectNothing_sequence hstrip hes
  split at h <;> rename_i heq <;> cases heq <;> cases h
  · exact (allSelectNothing_cons.1 hfree).1
  · exact selectsNothing_tuple.2 hfree

end Parser

/-- An expression that is read from a text without parts and indices takes none. -/
theorem compile_selectsNothing {s : List Char} {e : Expression}
    (hs : selectsNothing (withPowerSigns s)) (h : Expression.compile s = .ok e) :
    e.SelectsNothing := by
  unfold Expression.compile at h
  split at h
  · cases h
  · split at h
    · rename_i he
      cases h
      obtain ⟨ts, hts, he⟩ := Option.bind_eq_some_iff.1 he
      exact Parser.selectsNothing_ofTokens? (Token.selectsNothing_tokensFrom? hs hts) he
    · cases h

end Formulary
