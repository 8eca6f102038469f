import Formulary.Proofs.Expression.Rereading
import Formulary.Proofs.Expression.Selection

/-!
# Reading within parentheses

Tokens that close the brackets that they open are read up to a closing parenthesis behind them in
the same way as alone (`sequence_of_elements`). The reader looks neither at the spelling of names
nor at that of quoted texts, and may therefore find others in their place (`Token.Like`). Every
function of the reader has this property if those that it calls have it for less fuel
(`ReadsAlone`), and alone it needs no more fuel than there are tokens four times over.
-/

namespace Formulary

namespace Token

/-- Whether two tokens are the same to the reader. -/
inductive Like : Token → Token → Prop where
  | refl (t : Token) : Like t t
  | name (s s' : String) : Like (.name s) (.name s')
  | text (s s' : String) : Like (.text s) (.text s')

/-- Tokens before a closing parenthesis, and the like of them alone. -/
inductive Enclosed (k : List Token) : List Token → List Token → Prop where
  | done : Enclosed k (.sign ")" :: k) []
  | cons {t u ts us} : Like t u → Enclosed k ts us → Enclosed k (t :: ts) (u :: us)

/-- Whether some tokens close all brackets that are open before them and that they open. -/
def Closes (depth : Nat) (ts : List Token) : Prop := ts.foldlM nestingAfter? depth = some 0

variable {d e : Nat} {t u : Token} {k ts us : List Token} {s : String}

/-- No tokens close what is open if nothing is. -/
lemma closes_nil : Closes d [] ↔ d = 0 := by simp [Closes]

/-- Tokens close what is open if they do so after the first of them. -/
lemma closes_cons : Closes d (t :: ts) ↔ ∃ e, nestingAfter? d t = some e ∧ Closes e ts := by
  simp [Closes, List.foldlM_cons, Option.bind_eq_some_iff]

/-- The signs that end elements. -/
def IsClosing (s : String) : Prop := s = ")" ∨ s = "]"

/-- An opening bracket leaves one more to close. -/
lemma Closes.open (h : Closes d (.sign s :: ts)) (hs : s = "(" ∨ s = "[") : Closes (d + 1) ts := by
  obtain ⟨e, he, h⟩ := closes_cons.1 h
  have : e = d + 1 := by
    obtain rfl | rfl := hs <;> simp only [nestingAfter?] at he <;> split at he <;> simp_all
  rwa [this] at h

/-- A closing bracket closes the innermost one that is open. -/
lemma Closes.close (h : Closes d (.sign s :: ts)) (hs : IsClosing s) : ∃ e, d = e + 1 ∧ Closes e ts := by
  obtain ⟨e, he, h⟩ := closes_cons.1 h
  refine ⟨e, ?_, h⟩
  obtain rfl | rfl := hs <;> cases d <;> simp [nestingAfter?] at he <;> omega

/-- Other tokens open and close nothing. -/
lemma Closes.inline (h : Closes d (t :: ts)) (ht : nestingAfter? d t = some d) : Closes d ts := by
  obtain ⟨e, he, h⟩ := closes_cons.1 h
  rw [ht] at he
  cases he
  exact h

/-- Tokens that close nothing but what they open do not begin with a closing bracket. -/
lemma Closes.head (h : Closes 0 us) (hs : IsClosing s) : us.head? ≠ some (.sign s) := by
  intro hhead
  obtain ⟨us, rfl⟩ := List.head?_eq_some_iff.1 hhead
  obtain ⟨e, he, -⟩ := h.close hs
  cases he

/-- Enclosed tokens have no line ends if what they are like has none. -/
lemma Enclosed.lineEnd_notMem (h : Enclosed k ts us) (hus : .lineEnd ∉ us) (hk : .lineEnd ∉ k) :
    .lineEnd ∉ ts := by
  induction h with
  | done => simpa using hk
  | cons ht _ ih =>
    simp only [List.mem_cons, not_or] at hus ⊢
    refine ⟨?_, ih hus.2⟩
    rintro rfl
    cases ht
    exact hus.1 rfl

/-- A word is like itself only. -/
lemma Enclosed.word (h : Enclosed k (.word s :: ts) us) :
    ∃ us', us = .word s :: us' ∧ Enclosed k ts us' := by
  cases h with
  | cons ht h =>
    cases ht
    exact ⟨_, rfl, h⟩

/-- What is like a word is the word. -/
lemma Enclosed.word_right (h : Enclosed k ts (.word s :: us)) : ∃ ts', ts = .word s :: ts' := by
  cases h with
  | cons ht h =>
    cases ht
    exact ⟨_, rfl⟩

/-- A name is like a name. -/
lemma Enclosed.name (h : Enclosed k (.name s :: ts) us) :
    ∃ s' us', us = .name s' :: us' ∧ Enclosed k ts us' := by
  cases h with
  | cons ht h => cases ht <;> exact ⟨_, _, rfl, h⟩

/-- A text is like a text. -/
lemma Enclosed.text (h : Enclosed k (.text s :: ts) us) :
    ∃ s' us', us = .text s' :: us' ∧ Enclosed k ts us' := by
  cases h with
  | cons ht h => cases ht <;> exact ⟨_, _, rfl, h⟩

/-- A sign other than a closing parenthesis is like itself only. -/
lemma Enclosed.sign (h : Enclosed k (.sign s :: ts) us) (hs : s ≠ ")") :
    ∃ us', us = .sign s :: us' ∧ Enclosed k ts us' := by
  cases h with
  | done => exact absurd rfl hs
  | cons ht h =>
    cases ht
    exact ⟨_, rfl, h⟩

/-- The closing parenthesis behind the tokens closes none of the brackets that are open among them. -/
lemma Enclosed.sign_of_closes (h : Enclosed k (.sign s :: ts) us) (hclose : Closes (d + 1) us) :
    ∃ us', us = .sign s :: us' ∧ Enclosed k ts us' := by
  cases h with
  | done => cases closes_nil.1 hclose
  | cons ht h =>
    cases ht
    exact ⟨_, rfl, h⟩

/-- What is like a sign is the sign. -/
lemma Enclosed.sign_right (h : Enclosed k ts (.sign s :: us)) :
    ∃ ts', ts = .sign s :: ts' ∧ Enclosed k ts' us := by
  cases h with
  | cons ht h =>
    cases ht
    exact ⟨_, rfl, h⟩

/-- What is like a name is a name. -/
lemma Enclosed.name_right (h : Enclosed k ts (.name s :: us)) :
    ∃ s' ts', ts = .name s' :: ts' ∧ Enclosed k ts' us := by
  cases h with
  | cons ht h => cases ht <;> exact ⟨_, _, rfl, h⟩

end Token

namespace Parser

open Token

variable {level n d l : Nat} {t u : Token} {k ts us rest : List Token} {e left : Expression}
  {es : List Expression} {comma : Bool} {op : BinaryOp}

/-! ### Operators and quoted texts -/

/-- Operators do not change how deep brackets are nested. -/
lemma binaryOp?_inline (h : binaryOp? t = some op) : nestingAfter? d t = some d := by
  have hsign : ∀ s, binaryOp? (.sign s) ≠ none → isInlineToken (.sign s) := by
    intro s hs
    by_contra hinline
    refine hs ?_
    simp only [isInlineToken, Bool.not_eq_true', Bool.not_eq_false, List.contains_eq_mem,
      List.mem_cons, List.not_mem_nil, or_false, decide_eq_true_eq] at hinline
    obtain rfl | rfl | rfl | rfl | rfl | rfl := hinline <;> rfl
  refine nestingAfter?_of_isInlineToken ?_
  cases t with
  | sign s => exact hsign s (by simp [h])
  | word s => rfl
  | _ => cases h

/-- Like tokens are the same operator. -/
lemma like_binaryOp? (h : Like t u) : binaryOp? u = binaryOp? t := by
  cases h <;> rfl

/-- Like tokens are the same sign of an operand. -/
lemma like_sign? (h : Like t u) : sign? u = sign? t := by
  cases h <;> rfl

/-- Signs of operands do not change how deep brackets are nested. -/
lemma sign?_inline {op : UnaryOp} (h : sign? t = some op) : nestingAfter? d t = some d := by
  unfold sign? at h
  split at h <;> first | rfl | cases h

/-- An operator within parentheses is the operator alone. -/
lemma enclosed_takeOperator? (h : Enclosed k ts us) (hclose : Closes d us)
    (hop : takeOperator? ts = some (op, rest)) :
    ∃ vs, takeOperator? us = some (op, vs) ∧ Enclosed k rest vs ∧ Closes d vs ∧
      vs.length < us.length := by
  unfold takeOperator? at hop
  split at hop
  · cases hop
    obtain ⟨_, rfl, h₁⟩ := h.word
    obtain ⟨vs, rfl, h₂⟩ := h₁.word
    exact ⟨vs, rfl, h₂, (hclose.inline rfl).inline rfl, by simp⟩
  · cases hop
    obtain ⟨_, rfl, h₁⟩ := h.word
    obtain ⟨vs, rfl, h₂⟩ := h₁.word
    exact ⟨vs, rfl, h₂, (hclose.inline rfl).inline rfl, by simp⟩
  · rename_i t ts his hnot
    obtain ⟨op, hbinary, heq⟩ := Option.map_eq_some_iff.1 hop
    cases heq
    cases h with
    | done => cases hbinary
    | @cons _ u _ us ht h =>
      have hbinary' := (like_binaryOp? ht).trans hbinary
      refine ⟨us, ?_, h, hclose.inline (binaryOp?_inline hbinary'), by simp⟩
      rw [takeOperator?_cons, hbinary']
      · rfl
      · rintro rfl hhead
        obtain ⟨us, rfl⟩ := List.head?_eq_some_iff.1 hhead
        cases ht
        cases h with
        | cons ht h =>
          cases ht
          exact his _ rfl rfl
      · rintro rfl
        cases hbinary'
  · cases hop

/-- Where no operator stands within parentheses, none stands alone. -/
lemma enclosed_takeOperator?_none (h : Enclosed k ts us) (hop : takeOperator? ts = none) :
    takeOperator? us = none := by
  cases h with
  | done => rfl
  | @cons t u ts us ht h =>
    by_cases hnot : t = .word "not"
    · subst hnot
      cases ht
      rw [takeOperator?_cons (by simp) fun _ hhead => ?_]
      · rfl
      · obtain ⟨us, rfl⟩ := List.head?_eq_some_iff.1 hhead
        cases h with
        | cons ht h =>
          cases ht
          cases hop
    · have hbinary : binaryOp? t = none := by
        by_cases his : t = .word "is" ∧ ts.head? = some (.word "not")
        · obtain ⟨rfl, hhead⟩ := his
          obtain ⟨_, rfl⟩ := List.head?_eq_some_iff.1 hhead
          cases hop
        · rw [takeOperator?_cons (fun ht hhead => his ⟨ht, hhead⟩) fun ht => absurd ht hnot] at hop
          exact Option.map_eq_none_iff.1 hop
      have hbinary' := (like_binaryOp? ht).trans hbinary
      rw [takeOperator?_cons, hbinary']
      · rfl
      · rintro rfl
        cases hbinary'
      · rintro rfl
        cases ht
        exact absurd rfl hnot

/-- As many texts are read of like tokens. -/
lemma enclosed_takeTexts (h : Enclosed k ts us) (hclose : Closes d us) (s s' : String) :
    ∃ r vs, takeTexts s' us = (r, vs) ∧ Enclosed k (takeTexts s ts).2 vs ∧ Closes d vs ∧
      vs.length ≤ us.length := by
  induction h generalizing s s' with
  | done => exact ⟨s', [], rfl, .done, hclose, Nat.le_refl _⟩
  | @cons t u ts us ht h ih =>
    have hstop : (∀ r, u ≠ .text r) → (∀ r, t ≠ .text r) → ∃ r vs, takeTexts s' (u :: us) = (r, vs) ∧
        Enclosed k (takeTexts s (t :: ts)).2 vs ∧ Closes d vs ∧ vs.length ≤ (u :: us).length := by
      intro hu ht'
      refine ⟨s', u :: us, ?_, ?_, hclose, Nat.le_refl _⟩
      · rw [takeTexts]
        rintro r _ heq
        cases heq
        exact hu r rfl
      · rw [takeTexts]
        · exact .cons ht h
        · rintro r _ heq
          cases heq
          exact ht' r rfl
    cases ht with
    | name => exact hstop (by simp) (by simp)
    | text r r' =>
      obtain ⟨q, vs, hq, henclosed, hcloses, hlength⟩ := ih (hclose.inline rfl) (s ++ r) (s' ++ r')
      exact ⟨q, vs, hq, henclosed, hcloses, Nat.le_succ_of_le hlength⟩
    | refl t =>
      cases t with
      | text r =>
        obtain ⟨q, vs, hq, henclosed, hcloses, hlength⟩ := ih (hclose.inline rfl) (s ++ r) (s' ++ r)
        exact ⟨q, vs, hq, henclosed, hcloses, Nat.le_succ_of_le hlength⟩
      | _ => exact hstop (by simp) (by simp)

/-! ### Expressions -/

/-- What is left alone in place of some tokens that are left within parentheses; fewer than `l`. -/
structure Left (k : List Token) (d l : Nat) (rest vs : List Token) : Prop where
  enclosed : Enclosed k rest vs
  closes : Closes d vs
  length_lt : vs.length < l

/--
What the functions of the reader read within parentheses they read of like tokens alone, given
enough fuel.
-/
structure ReadsAlone (k : List Token) (n : Nat) : Prop where
  expression : ∀ {level d ts us e rest}, Enclosed k ts us → Closes d us →
    expression level n ts = some (e, rest) →
    ∃ e' vs, Left k d us.length rest vs ∧
      ∀ m, 4 * us.length - 1 ≤ m → expression level m us = some (e', vs)
  climb : ∀ {level left d ts us e rest}, Enclosed k ts us → Closes d us →
    climb level left n ts = some (e, rest) → ∀ left',
    ∃ e' vs, Left k d (us.length + 1) rest vs ∧
      ∀ m, 4 * us.length + 2 ≤ m → climb level left' m us = some (e', vs)
  comparisons : ∀ {d ts us chain rest}, Enclosed k ts us → Closes d us →
    comparisons n ts = some (chain, rest) →
    ∃ chain' vs, Left k d (us.length + 1) rest vs ∧ (chain ≠ [] → vs.length < us.length) ∧
      ∀ m, 4 * us.length + 1 ≤ m → comparisons m us = some (chain', vs)
  operand : ∀ {level d ts us e rest}, Enclosed k ts us → Closes d us →
    operand level n ts = some (e, rest) →
    ∃ e' vs, Left k d us.length rest vs ∧
      ∀ m, 4 * us.length - 2 ≤ m → operand level m us = some (e', vs)
  atom : ∀ {d ts us e rest}, Enclosed k ts us → Closes d us → atom n ts = some (e, rest) →
    ∃ e' vs, Left k d us.length rest vs ∧ ∀ m, 4 * us.length - 3 ≤ m → atom m us = some (e', vs)
  applied : ∀ {left d ts us e rest}, Enclosed k ts us → Closes d us →
    applied left n ts = some (e, rest) → ∀ left',
    ∃ e' vs, Left k d (us.length + 1) rest vs ∧
      ∀ m, 4 * us.length + 1 ≤ m → applied left' m us = some (e', vs)
  elements : ∀ {close d ts us es comma rest}, Enclosed k ts us → IsClosing close →
    Closes (d + 1) us → elements close n ts = some (es, comma, rest) →
    ∃ es' vs, Left k d us.length rest vs ∧ es'.length = es.length ∧
      ∀ m, 4 * us.length ≤ m → elements close m us = some (es', comma, vs)

/-- One step of fuel. -/
lemma exists_pred {b m : Nat} (h : b + 1 ≤ m) : ∃ m', m = m' + 1 ∧ b ≤ m' :=
  ⟨m - 1, by omega, by omega⟩

/-- An index is applied where a bracket opens. -/
lemma applied_index : applied e (n + 1) (.sign "[" :: ts) =
    (elements "]" n ts).bind fun (es, comma, ts) =>
      if es.isEmpty then none else applied (.index e (grouped es comma)) n ts := by
  rw [applied]
  refine congrArg (Option.bind _) (funext ?_)
  rintro ⟨es, comma, ts⟩
  rcases es with _ | ⟨a, _ | ⟨b, es⟩⟩
  · rfl
  · cases comma <;> rfl
  · rfl

/-- Nothing is applied where no parenthesis, part or bracket follows. -/
lemma applied_eq_self (hcall : ∀ ts', ts ≠ .sign "(" :: ts')
    (hpart : ∀ s ts', ts ≠ .sign "." :: .name s :: ts') (hindex : ∀ ts', ts ≠ .sign "[" :: ts') :
    applied e (n + 1) ts = some (e, ts) := by
  unfold applied
  split
  · exact absurd rfl (hcall _)
  · exact absurd rfl (hpart _ _)
  · exact absurd rfl (hindex _)
  · rfl

/-- There are no elements before the sign that ends them. -/
lemma elements_close {s : String} : elements s (n + 1) (.sign s :: ts) = some ([], false, ts) := by
  rw [elements]
  exact if_pos rfl

/-- After a comparison sign there are comparisons. -/
lemma comparisons_ne_nil {chain : List (BinaryOp × Expression)} {ts' : List Token}
    (hop : takeOperator? ts = some (op, ts')) (hcomparison : op.isComparison)
    (h : comparisons n ts = some (chain, rest)) : chain ≠ [] := by
  cases n with
  | zero => cases h
  | succ n =>
    rw [comparisons, hop] at h
    simp only [hcomparison, if_true] at h
    obtain ⟨⟨e, ts₁⟩, -, h⟩ := Option.bind_eq_some_iff.1 h
    obtain ⟨⟨chain', ts₂⟩, -, h⟩ := Option.bind_eq_some_iff.1 h
    cases h
    exact List.cons_ne_nil _ _

namespace ReadsAlone

variable (ih : ReadsAlone k n) (h : Enclosed k ts us) (hclose : Closes d us)
include ih h hclose

/-- One more step of an expression is read alone. -/
lemma expression_succ (hread : Parser.expression level (n + 1) ts = some (e, rest)) :
    ∃ e' vs, Left k d us.length rest vs ∧
      ∀ m, 4 * us.length - 1 ≤ m → Parser.expression level m us = some (e', vs) := by
  rw [Parser.expression] at hread
  obtain ⟨⟨left, ts₁⟩, hleft, hread⟩ := Option.bind_eq_some_iff.1 hread
  obtain ⟨left', us₁, ⟨h₁, hclose₁, hlength₁⟩, hleft'⟩ := ih.operand h hclose hleft
  obtain ⟨e', vs, ⟨h₂, hclose₂, hlength₂⟩, hread'⟩ := ih.climb h₁ hclose₁ hread left'
  refine ⟨e', vs, ⟨h₂, hclose₂, by omega⟩, fun m hm => ?_⟩
  obtain ⟨m, rfl, hm'⟩ : ∃ m', m = m' + 1 ∧ 4 * us.length - 2 ≤ m' := exists_pred (by omega)
  rw [Parser.expression, hleft' m hm']
  exact hread' m (by omega)

omit ih in
/-- The operand is all there is. -/
lemma climb_stop {left' : Expression}
    (hstop : ∀ m, Parser.climb level left' (m + 1) us = some (left', us)) :
    ∃ e' vs, Left k d (us.length + 1) ts vs ∧
      ∀ m, 4 * us.length + 2 ≤ m → Parser.climb level left' m us = some (e', vs) := by
  refine ⟨left', us, ⟨h, hclose, Nat.lt_succ_self _⟩, fun m hm => ?_⟩
  obtain ⟨m, rfl, -⟩ := exists_pred (Nat.le_trans (Nat.le_add_left 1 _) hm)
  exact hstop m

/-- A conditional is read alone. -/
lemma climb_conditional {left' : Expression} {ts' : List Token} (hts : ts = .word "if" :: ts')
    (hread : Parser.climb level left (n + 1) ts = some (e, rest)) :
    ∃ e' vs, Left k d (us.length + 1) rest vs ∧
      ∀ m, 4 * us.length + 2 ≤ m → Parser.climb level left' m us = some (e', vs) := by
  subst hts
  obtain ⟨us, rfl, h₀⟩ := h.word
  rw [climb_if] at hread
  split at hread
  · rename_i hlevel
    obtain ⟨⟨c, ts₁⟩, hc, hread⟩ := Option.bind_eq_some_iff.1 hread
    obtain ⟨c', us₁, ⟨h₁, hclose₁, hlength₁⟩, hc'⟩ := ih.expression h₀ (hclose.inline rfl) hc
    dsimp only at hread
    split at hread
    · obtain ⟨⟨a, ts₂⟩, ha, hread⟩ := Option.bind_eq_some_iff.1 hread
      cases hread
      obtain ⟨us₂, rfl, h₂⟩ := h₁.word
      obtain ⟨a', vs, ⟨h₃, hclose₃, hlength₃⟩, ha'⟩ := ih.expression h₂ (hclose₁.inline rfl) ha
      rw [List.length_cons] at hlength₁
      refine ⟨.conditional c' left' a', vs, ⟨h₃, hclose₃, by rw [List.length_cons]; omega⟩,
        fun m hm => ?_⟩
      rw [List.length_cons] at hm
      obtain ⟨m, rfl, hm⟩ : ∃ m', m = m' + 1 ∧ 4 * us.length ≤ m' := exists_pred (by omega)
      rw [climb_if, if_pos hlevel, hc' m (by omega)]
      show (Parser.expression 0 m us₂).bind _ = _
      rw [ha' m (by omega)]
      rfl
    · cases hread
  · rename_i hlevel
    cases hread
    exact climb_stop h hclose fun m => by rw [climb_if, if_neg hlevel]

/-- One more step of climbing is read alone. -/
lemma climb_succ (hread : Parser.climb level left (n + 1) ts = some (e, rest))
    (left' : Expression) :
    ∃ e' vs, Left k d (us.length + 1) rest vs ∧
      ∀ m, 4 * us.length + 2 ≤ m → Parser.climb level left' m us = some (e', vs) := by
  by_cases hif : ∃ ts', ts = .word "if" :: ts'
  · obtain ⟨ts', hts⟩ := hif
    exact climb_conditional ih h hclose hts hread
  · cases hop : takeOperator? ts with
    | none =>
      rw [climb_none (fun ts' hts => hif ⟨ts', hts⟩) hop] at hread
      cases hread
      refine climb_stop h hclose fun m => climb_none ?_ (enclosed_takeOperator?_none h hop)
      rintro us' rfl
      exact hif h.word_right
    | some x =>
      obtain ⟨op, ts'⟩ := x
      obtain ⟨us', hop', h', hclose', hlength'⟩ := enclosed_takeOperator? h hclose hop
      rw [climb_operator op hop] at hread
      split at hread
      · rename_i hlevel
        cases hread
        exact climb_stop h hclose fun m => by rw [climb_operator op hop', if_pos hlevel]
      · rename_i hlevel
        split at hread
        · rename_i hcomparison
          obtain ⟨⟨chain, ts₁⟩, hchain, hread⟩ := Option.bind_eq_some_iff.1 hread
          obtain ⟨chain', us₁, ⟨h₁, hclose₁, -⟩, hlength₁, hchain'⟩ :=
            ih.comparisons h hclose hchain
          have hlength₁ := hlength₁ (comparisons_ne_nil hop hcomparison hchain)
          obtain ⟨e', vs, ⟨h₂, hclose₂, hlength₂⟩, hread'⟩ :=
            ih.climb h₁ hclose₁ hread (left'.comparisonChain chain')
          refine ⟨e', vs, ⟨h₂, hclose₂, by omega⟩, fun m hm => ?_⟩
          obtain ⟨m, rfl, hm'⟩ := exists_pred hm
          rw [climb_operator op hop', if_neg hlevel, if_pos hcomparison, hchain' m hm']
          exact hread' m (by omega)
        · rename_i hcomparison
          obtain ⟨⟨right, ts₁⟩, hright, hread⟩ := Option.bind_eq_some_iff.1 hread
          obtain ⟨right', us₁, ⟨h₁, hclose₁, hlength₁⟩, hright'⟩ :=
            ih.expression h' hclose' hright
          obtain ⟨e', vs, ⟨h₂, hclose₂, hlength₂⟩, hread'⟩ :=
            ih.climb h₁ hclose₁ hread (.binary op left' right')
          refine ⟨e', vs, ⟨h₂, hclose₂, by omega⟩, fun m hm => ?_⟩
          obtain ⟨m, rfl, hm⟩ := exists_pred hm
          rw [climb_operator op hop', if_neg hlevel, if_neg hcomparison, hright' m (by omega)]
          exact hread' m (by omega)

/-- One more comparison is read alone. -/
lemma comparisons_succ {chain : List (BinaryOp × Expression)}
    (hread : Parser.comparisons (n + 1) ts = some (chain, rest)) :
    ∃ chain' vs, Left k d (us.length + 1) rest vs ∧ (chain ≠ [] → vs.length < us.length) ∧
      ∀ m, 4 * us.length + 1 ≤ m → Parser.comparisons m us = some (chain', vs) := by
  have hstop : (∀ m, Parser.comparisons (m + 1) us = some ([], us)) →
      ∃ chain' vs, Left k d (us.length + 1) ts vs ∧
        (([] : List (BinaryOp × Expression)) ≠ [] → vs.length < us.length) ∧
        ∀ m, 4 * us.length + 1 ≤ m → Parser.comparisons m us = some (chain', vs) := by
    intro hnil
    refine ⟨[], us, ⟨h, hclose, Nat.lt_succ_self _⟩, fun hne => absurd rfl hne, fun m hm => ?_⟩
    obtain ⟨m, rfl, -⟩ := exists_pred hm
    exact hnil m
  rw [Parser.comparisons] at hread
  cases hop : takeOperator? ts with
  | none =>
    rw [hop] at hread
    cases hread
    exact hstop fun m => by rw [Parser.comparisons, enclosed_takeOperator?_none h hop]
  | some x =>
    obtain ⟨op, ts'⟩ := x
    obtain ⟨us', hop', h', hclose', hlength'⟩ := enclosed_takeOperator? h hclose hop
    rw [hop] at hread
    by_cases hcomparison : op.isComparison
    · simp only [hcomparison, if_true] at hread
      obtain ⟨⟨e, ts₁⟩, he, hread⟩ := Option.bind_eq_some_iff.1 hread
      obtain ⟨e', us₁, ⟨h₁, hclose₁, hlength₁⟩, he'⟩ := ih.expression h' hclose' he
      obtain ⟨⟨chain', ts₂⟩, hchain, hread⟩ := Option.bind_eq_some_iff.1 hread
      obtain ⟨chain'', vs, ⟨h₂, hclose₂, hlength₂⟩, -, hchain'⟩ := ih.comparisons h₁ hclose₁ hchain
      cases hread
      refine ⟨(op, e') :: chain'', vs, ⟨h₂, hclose₂, by omega⟩, fun _ => by omega, fun m hm => ?_⟩
      obtain ⟨m, rfl, hm⟩ := exists_pred hm
      rw [Parser.comparisons, hop']
      simp only [hcomparison, if_true, he' m (by omega), hchain' m (by omega),
        Option.bind_eq_bind, Option.bind_some]
    · simp only [hcomparison, Bool.false_eq_true, if_false] at hread
      cases hread
      exact hstop fun m => by
        rw [Parser.comparisons, hop']
        simp only [hcomparison, Bool.false_eq_true, if_false]

/-- A negation is read alone. -/
lemma operand_negation {ts' : List Token} (hts : ts = .word "not" :: ts')
    (hread : Parser.operand level (n + 1) ts = some (e, rest)) :
    ∃ e' vs, Left k d us.length rest vs ∧
      ∀ m, 4 * us.length - 2 ≤ m → Parser.operand level m us = some (e', vs) := by
  subst hts
  obtain ⟨us, rfl, h'⟩ := h.word
  rw [operand_not] at hread
  split at hread
  · rename_i hlevel
    obtain ⟨⟨e, ts₁⟩, he, hread⟩ := Option.bind_eq_some_iff.1 hread
    obtain ⟨e', vs, ⟨h₁, hclose₁, hlength₁⟩, he'⟩ := ih.expression h' (hclose.inline rfl) he
    cases hread
    rw [List.length_cons]
    refine ⟨.unary .not e', vs, ⟨h₁, hclose₁, Nat.lt_succ_of_lt hlength₁⟩, fun m hm => ?_⟩
    obtain ⟨m, rfl, hm'⟩ : ∃ m', m = m' + 1 ∧ 4 * us.length + 1 ≤ m' := exists_pred (by omega)
    rw [operand_not, if_pos hlevel, he' m (by omega)]
    rfl
  · cases hread

/-- One more step of an operand is read alone. -/
lemma operand_succ (hread : Parser.operand level (n + 1) ts = some (e, rest)) :
    ∃ e' vs, Left k d us.length rest vs ∧
      ∀ m, 4 * us.length - 2 ≤ m → Parser.operand level m us = some (e', vs) := by
  by_cases hnot : ∃ ts', ts = .word "not" :: ts'
  · obtain ⟨ts', hts⟩ := hnot
    exact operand_negation ih h hclose hts hread
  cases h with
  | done =>
    rw [operand_cons (by simp)] at hread
    obtain ⟨⟨e, ts₁⟩, hatom, -⟩ := Option.bind_eq_some_iff.1 hread
    cases n <;> cases hatom
  | @cons t u ts us ht h' =>
    have hnot : t ≠ .word "not" := by
      rintro rfl
      exact hnot ⟨ts, rfl⟩
    have hnot' : u ≠ .word "not" := by
      rintro rfl
      cases ht
      exact hnot rfl
    have hpred : ∀ {m}, 4 * (u :: us).length - 2 ≤ m →
        ∃ m', m = m' + 1 ∧ 4 * us.length + 1 ≤ m' := by
      intro m hm
      rw [List.length_cons] at hm
      exact exists_pred (by omega)
    rw [operand_cons hnot] at hread
    cases hsign : sign? t with
    | some op =>
      have hsign' := (like_sign? ht).trans hsign
      rw [hsign] at hread
      simp only at hread
      split at hread
      · rename_i hlevel
        obtain ⟨⟨e, ts₁⟩, he, hread⟩ := Option.bind_eq_some_iff.1 hread
        obtain ⟨e', vs, ⟨h₁, hclose₁, hlength₁⟩, he'⟩ :=
          ih.expression h' (hclose.inline (sign?_inline hsign')) he
        cases hread
        refine ⟨.unary op e', vs, ⟨h₁, hclose₁, Nat.lt_succ_of_lt hlength₁⟩, fun m hm => ?_⟩
        obtain ⟨m, rfl, hm⟩ := hpred hm
        rw [operand_cons hnot', hsign']
        simp only
        rw [if_pos hlevel, he' m (by omega)]
        rfl
      · cases hread
    | none =>
      have hsign' := (like_sign? ht).trans hsign
      rw [hsign] at hread
      obtain ⟨⟨a, ts₁⟩, ha, hread⟩ := Option.bind_eq_some_iff.1 hread
      obtain ⟨a', us₁, ⟨h₁, hclose₁, hlength₁⟩, ha'⟩ := ih.atom (.cons ht h') hclose ha
      obtain ⟨e', vs, ⟨h₂, hclose₂, hlength₂⟩, hread'⟩ := ih.applied h₁ hclose₁ hread a'
      refine ⟨e', vs, ⟨h₂, hclose₂, by omega⟩, fun m hm => ?_⟩
      rw [List.length_cons] at hlength₁
      obtain ⟨m, rfl, hm'⟩ := hpred hm
      rw [operand_cons hnot', hsign']
      simp only
      rw [ha' m (by rw [List.length_cons]; omega)]
      exact hread' m (by omega)

/-- Parentheses are read alone. -/
lemma atom_parenthesis {ts' : List Token} (hts : ts = .sign "(" :: ts')
    (hread : Parser.atom (n + 1) ts = some (e, rest)) :
    ∃ e' vs, Left k d us.length rest vs ∧
      ∀ m, 4 * us.length - 3 ≤ m → Parser.atom m us = some (e', vs) := by
  subst hts
  obtain ⟨us, rfl, h'⟩ := h.sign (by decide)
  rw [atom_group] at hread
  obtain ⟨⟨es, comma, ts₁⟩, hes, hread⟩ := Option.bind_eq_some_iff.1 hread
  cases hread
  obtain ⟨es', vs, ⟨h₁, hclose₁, hlength₁⟩, -, hes'⟩ :=
    ih.elements h' (.inl rfl) (hclose.open (.inl rfl)) hes
  rw [List.length_cons]
  refine ⟨grouped es' comma, vs, ⟨h₁, hclose₁, Nat.lt_succ_of_lt hlength₁⟩, fun m hm => ?_⟩
  obtain ⟨m, rfl, hm'⟩ : ∃ m', m = m' + 1 ∧ 4 * us.length ≤ m' := exists_pred (by omega)
  rw [atom_group, hes' m hm']
  rfl

omit ih in
/-- Texts one after the other are read alone. -/
lemma atom_text {s : String} {ts' : List Token} (hts : ts = .text s :: ts')
    (hread : Parser.atom (n + 1) ts = some (e, rest)) :
    ∃ e' vs, Left k d us.length rest vs ∧
      ∀ m, 4 * us.length - 3 ≤ m → Parser.atom m us = some (e', vs) := by
  subst hts
  cases hread
  obtain ⟨s', us, rfl, h'⟩ := h.text
  obtain ⟨r, vs, hr, h₁, hclose₁, hlength₁⟩ := enclosed_takeTexts h' (hclose.inline rfl) s s'
  rw [List.length_cons]
  refine ⟨.text r, vs, ⟨h₁, hclose₁, Nat.lt_succ_of_le hlength₁⟩, fun m hm => ?_⟩
  obtain ⟨m, rfl, -⟩ : ∃ m', m = m' + 1 ∧ 4 * us.length ≤ m' := exists_pred (by omega)
  rw [Parser.atom, hr]

/-- One more atom is read alone. -/
lemma atom_succ (hread : Parser.atom (n + 1) ts = some (e, rest)) :
    ∃ e' vs, Left k d us.length rest vs ∧
      ∀ m, 4 * us.length - 3 ≤ m → Parser.atom m us = some (e', vs) := by
  by_cases hgroup : ∃ ts', ts = .sign "(" :: ts'
  · obtain ⟨ts', hts⟩ := hgroup
    exact atom_parenthesis ih h hclose hts hread
  by_cases htext : ∃ s ts', ts = .text s :: ts'
  · obtain ⟨s, ts', hts⟩ := htext
    exact atom_text h hclose hts hread
  simp only [not_exists] at hgroup htext
  cases h with
  | done => cases hread
  | @cons t u ts us ht h' =>
    have hpred : ∀ {m}, 4 * (u :: us).length - 3 ≤ m → ∃ m', m = m' + 1 ∧ 4 * us.length ≤ m' := by
      intro m hm
      rw [List.length_cons] at hm
      exact exists_pred (by omega)
    have hleaf : ∀ {e'}, nestingAfter? d u = some d →
        (∀ m, Parser.atom (m + 1) (u :: us) = some (e', us)) →
        ∃ e' vs, Left k d (u :: us).length ts vs ∧
          ∀ m, 4 * (u :: us).length - 3 ≤ m → Parser.atom m (u :: us) = some (e', vs) := by
      intro e' hu hatom
      refine ⟨e', us, ⟨h', hclose.inline hu, Nat.lt_succ_self _⟩, fun m hm => ?_⟩
      obtain ⟨m, rfl, -⟩ := hpred hm
      exact hatom m
    unfold Parser.atom at hread
    split at hread
    case h_12 => cases hread
    case h_10 heq => exact absurd heq (hgroup _)
    case h_5 heq => exact absurd heq (htext _ _)
    case h_11 heq =>
      cases heq
      cases ht
      obtain ⟨⟨es, comma, ts₁⟩, hes, hread⟩ := Option.bind_eq_some_iff.1 hread
      cases hread
      obtain ⟨es', vs, ⟨h₁, hclose₁, hlength₁⟩, -, hes'⟩ :=
        ih.elements h' (.inr rfl) (hclose.open (.inr rfl)) hes
      refine ⟨.list es', vs, ⟨h₁, hclose₁, Nat.lt_succ_of_lt hlength₁⟩, fun m hm => ?_⟩
      obtain ⟨m, rfl, hm'⟩ := hpred hm
      rw [Parser.atom, hes' m hm']
      rfl
    all_goals
      rename_i heq
      cases heq
      cases hread
      cases ht
      all_goals exact hleaf rfl fun _ => rfl

omit ih in
/-- Nothing is applied. -/
lemma applied_none (left' : Expression) (hcall : ∀ ts', ts ≠ .sign "(" :: ts')
    (hpart : ∀ s ts', ts ≠ .sign "." :: .name s :: ts') (hindex : ∀ ts', ts ≠ .sign "[" :: ts') :
    ∃ e' vs, Left k d (us.length + 1) ts vs ∧
      ∀ m, 4 * us.length + 1 ≤ m → Parser.applied left' m us = some (e', vs) := by
  refine ⟨left', us, ⟨h, hclose, Nat.lt_succ_self _⟩, fun m hm => ?_⟩
  obtain ⟨m, rfl, -⟩ := exists_pred hm
  refine applied_eq_self ?_ ?_ ?_
  · rintro us' rfl
    obtain ⟨ts', rfl, -⟩ := h.sign_right
    exact hcall ts' rfl
  · rintro s us' rfl
    obtain ⟨_, rfl, h'⟩ := h.sign_right
    obtain ⟨s', ts', rfl, -⟩ := h'.name_right
    exact hpart s' ts' rfl
  · rintro us' rfl
    obtain ⟨ts', rfl, -⟩ := h.sign_right
    exact hindex ts' rfl

/-- A call is read alone. -/
lemma applied_call {ts' : List Token} (hts : ts = .sign "(" :: ts')
    (hread : Parser.applied left (n + 1) ts = some (e, rest)) (left' : Expression) :
    ∃ e' vs, Left k d (us.length + 1) rest vs ∧
      ∀ m, 4 * us.length + 1 ≤ m → Parser.applied left' m us = some (e', vs) := by
  subst hts
  obtain ⟨us, rfl, h'⟩ := h.sign (by decide)
  rw [Parser.applied] at hread
  obtain ⟨⟨es, comma, ts₁⟩, hes, hread⟩ := Option.bind_eq_some_iff.1 hread
  obtain ⟨es', us₁, ⟨h₁, hclose₁, hlength₁⟩, -, hes'⟩ :=
    ih.elements h' (.inl rfl) (hclose.open (.inl rfl)) hes
  obtain ⟨e', vs, ⟨h₂, hclose₂, hlength₂⟩, hread'⟩ :=
    ih.applied h₁ hclose₁ hread (.call left' es')
  rw [List.length_cons]
  refine ⟨e', vs, ⟨h₂, hclose₂, by omega⟩, fun m hm => ?_⟩
  obtain ⟨m, rfl, hm⟩ := exists_pred hm
  rw [Parser.applied, hes' m (by omega)]
  exact hread' m (by omega)

/-- A part is read alone. -/
lemma applied_part {s : String} {ts' : List Token} (hts : ts = .sign "." :: .name s :: ts')
    (hread : Parser.applied left (n + 1) ts = some (e, rest)) (left' : Expression) :
    ∃ e' vs, Left k d (us.length + 1) rest vs ∧
      ∀ m, 4 * us.length + 1 ≤ m → Parser.applied left' m us = some (e', vs) := by
  subst hts
  obtain ⟨us, rfl, h'⟩ := h.sign (by decide)
  obtain ⟨s', us, rfl, h''⟩ := h'.name
  rw [Parser.applied] at hread
  obtain ⟨e', vs, ⟨h₁, hclose₁, hlength₁⟩, hread'⟩ :=
    ih.applied h'' ((hclose.inline rfl).inline rfl) hread (.part left' s')
  simp only [List.length_cons]
  refine ⟨e', vs, ⟨h₁, hclose₁, by omega⟩, fun m hm => ?_⟩
  obtain ⟨m, rfl, hm⟩ := exists_pred hm
  rw [Parser.applied]
  exact hread' m (by omega)

/-- An index is read alone. -/
lemma applied_element {ts' : List Token} (hts : ts = .sign "[" :: ts')
    (hread : Parser.applied left (n + 1) ts = some (e, rest)) (left' : Expression) :
    ∃ e' vs, Left k d (us.length + 1) rest vs ∧
      ∀ m, 4 * us.length + 1 ≤ m → Parser.applied left' m us = some (e', vs) := by
  subst hts
  obtain ⟨us, rfl, h'⟩ := h.sign (by decide)
  rw [applied_index] at hread
  obtain ⟨⟨es, comma, ts₁⟩, hes, hread⟩ := Option.bind_eq_some_iff.1 hread
  obtain ⟨es', us₁, ⟨h₁, hclose₁, hlength₁⟩, hcount, hes'⟩ :=
    ih.elements h' (.inr rfl) (hclose.open (.inr rfl)) hes
  dsimp only at hread
  split at hread
  · cases hread
  · rename_i hne
    have hne' : ¬ (es'.isEmpty = true) := by
      simpa [List.isEmpty_iff, ← List.length_eq_zero_iff, hcount] using hne
    obtain ⟨e', vs, ⟨h₂, hclose₂, hlength₂⟩, hread'⟩ :=
      ih.applied h₁ hclose₁ hread (.index left' (grouped es' comma))
    rw [List.length_cons]
    refine ⟨e', vs, ⟨h₂, hclose₂, by omega⟩, fun m hm => ?_⟩
    obtain ⟨m, rfl, hm⟩ := exists_pred hm
    rw [applied_index, hes' m (by omega), Option.bind_some]
    show (if es'.isEmpty then none else _) = _
    rw [if_neg hne']
    exact hread' m (by omega)

/-- One more application is read alone. -/
lemma applied_succ (hread : Parser.applied left (n + 1) ts = some (e, rest))
    (left' : Expression) :
    ∃ e' vs, Left k d (us.length + 1) rest vs ∧
      ∀ m, 4 * us.length + 1 ≤ m → Parser.applied left' m us = some (e', vs) := by
  by_cases hcall : ∃ ts', ts = .sign "(" :: ts'
  · obtain ⟨ts', hts⟩ := hcall
    exact applied_call ih h hclose hts hread left'
  by_cases hpart : ∃ s ts', ts = .sign "." :: .name s :: ts'
  · obtain ⟨s, ts', hts⟩ := hpart
    exact applied_part ih h hclose hts hread left'
  by_cases hindex : ∃ ts', ts = .sign "[" :: ts'
  · obtain ⟨ts', hts⟩ := hindex
    exact applied_element ih h hclose hts hread left'
  · simp only [not_exists] at hcall hpart hindex
    rw [applied_eq_self hcall hpart hindex] at hread
    cases hread
    exact applied_none h hclose left' hcall hpart hindex

omit hclose in
/-- More elements are read alone, as many as before. -/
lemma elements_succ {close : String} (hc : IsClosing close) (hclose : Closes (d + 1) us)
    (hread : Parser.elements close (n + 1) ts = some (es, comma, rest)) :
    ∃ es' vs, Left k d us.length rest vs ∧ es'.length = es.length ∧
      ∀ m, 4 * us.length ≤ m → Parser.elements close m us = some (es', comma, vs) := by
  rw [Parser.elements] at hread
  split at hread
  · rename_i hhead
    cases hread
    obtain ⟨ts, rfl⟩ := List.head?_eq_some_iff.1 hhead
    obtain ⟨us, rfl, h'⟩ := h.sign_of_closes hclose
    obtain ⟨_, heq, hclose'⟩ := hclose.close hc
    cases heq
    refine ⟨[], us, ⟨h', hclose', Nat.lt_succ_self _⟩, rfl, fun m hm => ?_⟩
    rw [List.length_cons] at hm
    obtain ⟨m, rfl, -⟩ : ∃ m', m = m' + 1 ∧ 4 * us.length ≤ m' := exists_pred (by omega)
    exact elements_close
  · rename_i hhead
    have hhead' : us.head? ≠ some (.sign close) := by
      intro heq
      obtain ⟨us, rfl⟩ := List.head?_eq_some_iff.1 heq
      obtain ⟨ts, rfl, -⟩ := h.sign_right
      exact hhead rfl
    obtain ⟨⟨a, ts₁⟩, ha, hread⟩ := Option.bind_eq_some_iff.1 hread
    obtain ⟨a', us₁, ⟨h₁, hclose₁, hlength₁⟩, ha'⟩ := ih.expression h hclose ha
    dsimp only at hread
    split at hread
    · rename_i s ts₂
      obtain ⟨us₂, rfl, h₂⟩ := h₁.sign_of_closes hclose₁
      rw [List.length_cons] at hlength₁
      split at hread
      · rename_i hs
        cases hread
        obtain ⟨_, heq, hclose₂⟩ := hclose₁.close (hs ▸ hc)
        cases heq
        refine ⟨[a'], us₂, ⟨h₂, hclose₂, by omega⟩, rfl, fun m hm => ?_⟩
        obtain ⟨m, rfl, hm'⟩ : ∃ m', m = m' + 1 ∧ 4 * us.length - 1 ≤ m' := exists_pred (by omega)
        rw [Parser.elements, if_neg hhead', ha' m hm']
        simp [hs]
      · rename_i hs
        split at hread
        · rename_i hcomma
          subst hcomma
          obtain ⟨⟨es₁, comma₁, ts₃⟩, hes, hread⟩ := Option.bind_eq_some_iff.1 hread
          cases hread
          obtain ⟨es', vs, ⟨h₃, hclose₃, hlength₃⟩, hcount, hes'⟩ :=
            ih.elements h₂ hc (hclose₁.inline rfl) hes
          refine ⟨a' :: es', vs, ⟨h₃, hclose₃, by omega⟩, by simp [hcount], fun m hm => ?_⟩
          obtain ⟨m, rfl, hm'⟩ : ∃ m', m = m' + 1 ∧ 4 * us.length - 1 ≤ m' := exists_pred (by omega)
          rw [Parser.elements, if_neg hhead', ha' m hm']
          simp [hs, hes' m (by omega)]
        · cases hread
    · cases hread

end ReadsAlone

/-- Every function of the reader reads the like alone that it reads within parentheses. -/
theorem readsAlone (k : List Token) (n : Nat) : ReadsAlone k n := by
  induction n with
  | zero =>
    exact {
      expression := fun _ _ h => by cases h
      climb := fun _ _ h => by cases h
      comparisons := fun _ _ h => by cases h
      operand := fun _ _ h => by cases h
      atom := fun _ _ h => by cases h
      applied := fun _ _ h => by cases h
      elements := fun _ _ _ h => by cases h }
  | succ n ih =>
    exact {
      expression := ih.expression_succ
      climb := ih.climb_succ
      comparisons := fun h hclose hread => ih.comparisons_succ h hclose hread
      operand := ih.operand_succ
      atom := ih.atom_succ
      applied := ih.applied_succ
      elements := fun h hc hclose hread => ih.elements_succ h hc hclose hread }

/-- What is read up to the closing parenthesis is a sequence alone. -/
lemma sequence_of_elements (h : Enclosed k ts us) (hclose : Closes 0 us) (hne : us ≠ [])
    (hread : elements ")" n ts = some (es, comma, rest)) :
    rest = k ∧ ∃ r, ∀ m, us.length < m → sequence m us = some r := by
  induction n generalizing ts us es comma with
  | zero => cases hread
  | succ n ih =>
    have hhead : ts.head? ≠ some (.sign ")") := by
      intro hhead
      obtain ⟨ts, rfl⟩ := List.head?_eq_some_iff.1 hhead
      cases h with
      | done => exact hne rfl
      | cons ht h =>
        cases ht
        exact hclose.head (.inl rfl) rfl
    rw [elements, if_neg hhead] at hread
    obtain ⟨⟨a, ts₁⟩, ha, hread⟩ := Option.bind_eq_some_iff.1 hread
    obtain ⟨a', us₁, ⟨h₁, hclose₁, hlength₁⟩, ha'⟩ := (readsAlone k n).expression h hclose ha
    dsimp only at hread
    split at hread
    · rename_i s ts₂
      split at hread
      · rename_i hs
        subst hs
        cases hread
        cases h₁ with
        | done =>
          refine ⟨rfl, ([a'], false), fun m hm => ?_⟩
          obtain ⟨m, rfl, -⟩ := exists_pred hm
          rw [sequence, ha' _ (by omega)]
          rfl
        | cons ht h₂ =>
          cases ht
          exact absurd rfl (hclose₁.head (.inl rfl))
      · split at hread
        · rename_i hs hcomma
          subst hcomma
          obtain ⟨us₂, rfl, h₂⟩ := h₁.sign hs
          obtain ⟨⟨es₁, comma₁, ts₃⟩, hes, hread⟩ := Option.bind_eq_some_iff.1 hread
          cases hread
          rw [List.length_cons] at hlength₁
          cases us₂ with
          | nil =>
            cases h₂
            have hrest : ts₃ = k := by
              cases n with
              | zero => cases hes
              | succ n =>
                rw [elements_close] at hes
                cases hes
                rfl
            refine ⟨hrest, ([a'], true), fun m hm => ?_⟩
            obtain ⟨m, rfl, -⟩ := exists_pred hm
            rw [sequence, ha' _ (by omega)]
            rfl
          | cons u us₂ =>
            obtain ⟨rfl, ⟨es₂, comma₂⟩, hes₂⟩ := ih h₂ (hclose₁.inline rfl) (List.cons_ne_nil _ _) hes
            refine ⟨rfl, (a' :: es₂, true), fun m hm => ?_⟩
            obtain ⟨m, rfl, hm'⟩ := exists_pred hm
            rw [sequence, ha' _ (by omega)]
            show (sequence m (u :: us₂)).bind _ = _
            rw [hes₂ m (by omega)]
            rfl
        · cases hread
    · cases hread

/-- An expression that begins with a parenthesis begins with what is read of its contents. -/
lemma elements_of_expression (h : expression level n (.sign "(" :: ts) = some (e, rest)) :
    ∃ m es comma ts₁ left ts₂, elements ")" m ts = some (es, comma, ts₁) ∧
      applied (grouped es comma) (m + 1) ts₁ = some (left, ts₂) ∧
      climb level left (m + 2) ts₂ = some (e, rest) := by
  obtain _ | _ | _ | m := n
  · cases h
  · cases h
  · rw [expression, operand_cons (by simp)] at h
    cases h
  · rw [expression, operand_cons (by simp)] at h
    obtain ⟨⟨left, ts₂⟩, hleft, hclimb⟩ := Option.bind_eq_some_iff.1 h
    obtain ⟨⟨a, ts₁⟩, hatom, happlied⟩ := Option.bind_eq_some_iff.1 hleft
    rw [atom_group] at hatom
    obtain ⟨⟨es, comma, ts₁⟩, hes, hatom⟩ := Option.bind_eq_some_iff.1 hatom
    cases hatom
    exact ⟨m, es, comma, ts₁, left, ts₂, hes, happlied, hclimb⟩

/-- The two sides of a difference of parenthesized tokens are sequences alone. -/
theorem sequences_of_difference {ts' us' : List Token} {m : Nat} {r : List Expression × Bool}
    (h : Enclosed (.sign "-" :: .sign "(" :: ts') ts us) (h' : Enclosed [] ts' us')
    (hclose : Closes 0 us) (hclose' : Closes 0 us') (hne : us ≠ []) (hne' : us' ≠ [])
    (hread : sequence m (.sign "(" :: ts) = some r) :
    (∃ r, sequence (us.length + 1) us = some r) ∧
      ∃ r, sequence (us'.length + 1) us' = some r := by
  obtain _ | m := m
  · cases hread
  rw [sequence] at hread
  obtain ⟨⟨e, rest⟩, he, -⟩ := Option.bind_eq_some_iff.1 hread
  obtain ⟨n, es, comma, ts₁, left, ts₂, hes, happlied, hclimb⟩ := elements_of_expression he
  obtain ⟨rfl, r₁, hr₁⟩ := sequence_of_elements h hclose hne hes
  rw [applied_stop (by simp)] at happlied
  cases happlied
  rw [climb_operator .sub rfl, if_neg (by decide), if_neg (by decide)] at hclimb
  obtain ⟨⟨right, ts₃⟩, hright, -⟩ := Option.bind_eq_some_iff.1 hclimb
  obtain ⟨n', es', comma', ts₄, left', ts₅, hes', -, -⟩ := elements_of_expression hright
  obtain ⟨-, r₂, hr₂⟩ := sequence_of_elements h' hclose' hne' hes'
  exact ⟨⟨r₁, hr₁ _ (Nat.lt_succ_self _)⟩, ⟨r₂, hr₂ _ (Nat.lt_succ_self _)⟩⟩

end Parser

end Formulary
