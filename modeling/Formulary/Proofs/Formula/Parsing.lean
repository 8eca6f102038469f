import Formulary.Proofs.Formula.Term

/-!
# Reading terms

The tokens of a term are read as its expression (`Term.ofTokens?_lexemes`). An operator reads its
left operand before it knows that it is there, so what lexemes are read as is said in terms of what
is read behind them (`Spells`); a term is read wherever the operators behind it bind no tighter than
those that it is written for (`LetsEnd`).
-/

namespace Formulary.Parser

open Formulary.Formula Formulary.Token

variable {σ : Symbol → List Char} {ls ls' : List Lexeme} {e a b : Expression} {m n level : Nat}
  {ts us rest : List Token} {es : List Expression} {comma : Bool} {op : Operator}

/-- That no operator is read of some tokens. -/
def Stops (m : Nat) (rest : List Token) : Prop :=
  ∀ e n, climb m e (n + 1) rest = some (e, rest)

/-- That an expression ends before some tokens, or an operator follows that binds at most so tightly. -/
def LetsEnd (level : Nat) (rest : List Token) : Prop :=
  ∀ t ∈ rest.head?, t = .sign ")" ∨ t = .sign "," ∨
    ∃ op : Operator, op.level ≤ level ∧ t = .sign op.mark.sign

/-- That some lexemes are read as an expression, whatever is read behind it. -/
def Spells (σ : Symbol → List Char) (ls : List Lexeme) (e : Expression) (m : Nat)
    (rest : List Token) : Prop :=
  ∀ N r, (∀ n, N ≤ n → climb m e n rest = some r) →
    ∀ n, N + 4 * ls.length ≤ n → expression m n (ls.map (Lexeme.token σ) ++ rest) = some r

/-- The sign of an operator is read as the operator. -/
lemma takeOperator?_mark (op : Operator) :
    takeOperator? (.sign op.mark.sign :: rest) = some (op.binaryOp, rest) := by
  cases op <;> rfl

/-- An expression that ends before operators of some level ends before those of a lower one. -/
lemma LetsEnd.mono {level' : Nat} (h : LetsEnd level rest) (hle : level ≤ level') :
    LetsEnd level' rest := by
  intro t ht
  obtain h | h | ⟨op, hop, h⟩ := h t ht
  · exact .inl h
  · exact .inr (.inl h)
  · exact .inr (.inr ⟨op, Nat.le_trans hop hle, h⟩)

/-- An expression ends before a closing parenthesis. -/
lemma letsEnd_closing : LetsEnd level (.sign ")" :: rest) := by
  intro t ht
  cases ht
  exact .inl rfl

/-- An expression ends before a comma. -/
lemma letsEnd_comma : LetsEnd level (.sign "," :: rest) := by
  intro t ht
  cases ht
  exact .inr (.inl rfl)

/-- No operator is read of a comma. -/
lemma stops_comma : Stops m (.sign "," :: rest) := fun _ _ => climb_none (by simp) rfl

/-- No operator is read of a closing parenthesis. -/
lemma stops_closing : Stops m (.sign ")" :: rest) := fun _ _ => climb_none (by simp) rfl

/-- No operator is read that binds less tightly. -/
lemma LetsEnd.stops (h : LetsEnd level rest) (hm : ∀ op : Operator, op.level ≤ level → op.level < m) :
    Stops m rest := by
  intro e n
  cases rest with
  | nil => exact climb_none nofun rfl
  | cons t rest =>
    obtain rfl | rfl | ⟨op, hop, rfl⟩ := h t rfl
    · exact stops_closing e n
    · exact stops_comma e n
    · rw [climb_operator _ (takeOperator?_mark op)]
      exact if_pos (hm op hop)

/-- Nothing is applied to an expression before such tokens. -/
lemma LetsEnd.applied (h : LetsEnd level rest) : applied e (n + 1) rest = some (e, rest) := by
  refine applied_stop fun t ht => ?_
  obtain rfl | rfl | ⟨op, -, rfl⟩ := h t ht
  · decide
  · decide
  · cases op <;> decide

/-- Lexemes that are read as an expression are one where no operator follows. -/
lemma Spells.complete (h : Spells σ ls e m rest) (hstop : Stops m rest) :
    ∀ n, 1 + 4 * ls.length ≤ n →
      expression m n (ls.map (Lexeme.token σ) ++ rest) = some (e, rest) := by
  refine h 1 _ fun n hn => ?_
  obtain ⟨n, rfl⟩ := Nat.exists_eq_add_of_le' hn
  exact hstop e n

/-- Lexemes that are read as an operand are read as an expression. -/
lemma spells_operand (hls : ls ≠ [])
    (h : ∀ n, 4 * ls.length ≤ n + 1 → operand m n (ls.map (Lexeme.token σ) ++ rest) = some (e, rest)) :
    Spells σ ls e m rest := by
  intro N r hclimb n hn
  have hlength := List.length_pos_iff.2 hls
  obtain ⟨n, rfl⟩ : ∃ k, n = k + 1 := ⟨n - 1, by omega⟩
  rw [expression, h n (by omega)]
  exact hclimb n (by omega)

/-- A lexeme that is an atom of its own. -/
lemma spells_atom {l : Lexeme} (hatom : ∀ n rest, atom (n + 1) (l.token σ :: rest) = some (e, rest))
    (hsign : sign? (l.token σ) = none) (hnot : l.token σ ≠ .word "not") (h : LetsEnd level rest) :
    Spells σ [l] e m rest := by
  refine spells_operand (List.cons_ne_nil _ _) fun n hn => ?_
  obtain ⟨n, rfl⟩ : ∃ k, n = k + 2 := ⟨n - 2, by simp at hn; omega⟩
  rw [List.map_cons, List.cons_append, operand_cons hnot, hsign]
  simp [hatom, h.applied]

/-- A sign takes all powers behind it. -/
lemma Spells.signed (negative : Bool) (h : Spells σ ls e 10 rest) (hstop : Stops 10 rest)
    (hm : m ≤ 10) :
    Spells σ (.mark (if negative then .minus else .plus) :: ls)
      (.unary (if negative then .minus else .plus) e) m rest := by
  refine spells_operand (List.cons_ne_nil _ _) fun n hn => ?_
  obtain ⟨n, rfl⟩ : ∃ k, n = k + 1 := ⟨n - 1, by simp at hn; omega⟩
  have hread := h.complete hstop n (by simp at hn; omega)
  cases negative
  · show operand m (n + 1) (.sign "+" :: (ls.map (Lexeme.token σ) ++ rest)) = _
    rw [operand_cons (by simp)]
    simp [sign?, hm, hread]
  · show operand m (n + 1) (.sign "-" :: (ls.map (Lexeme.token σ) ++ rest)) = _
    rw [operand_cons (by simp)]
    simp [sign?, hm, hread]

/-- An operator is read after its left operand, and its right operand after it. -/
lemma Spells.binary
    (ha : Spells σ ls a m (.sign op.mark.sign :: (ls'.map (Lexeme.token σ) ++ rest)))
    (hb : Spells σ ls' b op.rightLevel rest) (hstop : Stops op.rightLevel rest) (hm : m ≤ op.level) :
    Spells σ (ls ++ .mark op.mark :: ls') (.binary op.binaryOp a b) m rest := by
  -- After the left operand the climb goes on with the operator, and after that with the whole as
  -- its left operand.
  intro N r hclimb n hn
  have hstep : ∀ n, N + 4 * ls'.length + 2 ≤ n →
      climb m a n (.sign op.mark.sign :: (ls'.map (Lexeme.token σ) ++ rest)) = some r := by
    intro n hn
    obtain ⟨n, rfl⟩ : ∃ k, n = k + 1 := ⟨n - 1, by omega⟩
    have hright := hb.complete hstop n (by omega)
    have hlevel : ¬ op.binaryOp.level < m := Nat.not_lt.2 hm
    rw [climb_operator _ (takeOperator?_mark op), if_neg hlevel, if_neg (by cases op <;> decide)]
    show (expression op.rightLevel n _).bind _ = _
    rw [hright]
    exact hclimb n (by omega)
  have hread := ha _ r hstep n (by simp at hn; omega)
  rw [List.map_append, List.append_assoc]
  exact hread

/-- No lexeme that a term begins with closes parentheses. -/
lemma ne_closing_of_begins (h : ∃ l ∈ ls.head?, l.begins) :
    (ls.map (Lexeme.token σ) ++ rest).head? ≠ some (.sign ")") := by
  obtain ⟨l, hl, hbegins⟩ := h
  cases ls with
  | nil => cases hl
  | cons l' ls =>
    cases hl
    intro h
    rw [List.map_cons, List.cons_append, List.head?_cons, Option.some.injEq] at h
    cases l with
    | numeral n => cases hn : n.literal <;> simp [Lexeme.token, Literal.token, hn] at h
    | mark m => cases m <;> simp_all [Lexeme.begins, Lexeme.isWordy, Lexeme.token, Mark.sign]
    | _ => cases h

/-- The last element stands before the closing parenthesis. -/
lemma elements_last (hne : ts.head? ≠ some (.sign ")"))
    (h : expression 0 n ts = some (e, .sign ")" :: rest)) :
    elements ")" (n + 1) ts = some ([e], false, rest) := by
  rw [elements, if_neg hne, h]
  rfl

/-- An element before a comma is followed by the others. -/
lemma elements_comma (hne : ts.head? ≠ some (.sign ")"))
    (h : expression 0 n ts = some (e, .sign "," :: us))
    (hrest : elements ")" n us = some (es, comma, rest)) :
    elements ")" (n + 1) ts = some (e :: es, true, rest) := by
  rw [elements, if_neg hne, h]
  show (elements ")" n us).bind _ = _
  rw [hrest]
  rfl

/-- What is read in parentheses is an operand. -/
lemma Spells.parenthesized (h : Spells σ ls e 0 (.sign ")" :: rest))
    (hbegins : ∃ l ∈ ls.head?, l.begins) (hend : LetsEnd level rest) :
    Spells σ (parenthesized ls) e m rest := by
  refine spells_operand (List.cons_ne_nil _ _) fun n hn => ?_
  have hlength : (Formula.parenthesized ls).length = ls.length + 2 := by simp [Formula.parenthesized]
  obtain ⟨n, rfl⟩ : ∃ k, n = k + 3 := ⟨n - 3, by omega⟩
  have hread := h.complete stops_closing n (by omega)
  have hatom : atom (n + 2) (.sign "(" :: (ls.map (Lexeme.token σ) ++ .sign ")" :: rest)) =
      some (e, rest) := by
    rw [atom_group, elements_last (ne_closing_of_begins hbegins) hread]
    rfl
  have htokens : (Formula.parenthesized ls).map (Lexeme.token σ) ++ rest =
      .sign "(" :: (ls.map (Lexeme.token σ) ++ .sign ")" :: rest) := by
    simp [Formula.parenthesized, Lexeme.token, Mark.sign]
  rw [htokens, operand_cons (by simp)]
  simp [sign?, hatom, hend.applied]

/-- That some lexemes are read as an expression where operators bind at most at a level. -/
def Parses (σ : Symbol → List Char) (ls : List Lexeme) (e : Expression) (most : Nat) : Prop :=
  ∀ {level m rest}, level ≤ most → level ≠ 11 → m ≤ level → LetsEnd level rest →
    Spells σ ls e m rest

/-- In parentheses, lexemes are read as their expression by any operator. -/
lemma Parses.enclosed {most : Nat} (h : Parses σ ls e most) (hformed : Formed ls)
    (hend : LetsEnd level rest) : Spells σ (parenthesized ls) e m rest :=
  (h (Nat.zero_le _) (by decide) (Nat.le_refl 0) letsEnd_closing).parenthesized hformed.begins hend

/-- Parentheses are put where they are needed. -/
lemma Parses.parenthesizedIf {most : Nat} (h : Parses σ ls e most) (hformed : Formed ls)
    (hlevel : level ≠ 11) (hm : m ≤ level) (hend : LetsEnd level rest) :
    Spells σ (parenthesizedIf (most < level) ls) e m rest := by
  by_cases hneeded : most < level
  · rw [decide_eq_true hneeded]
    exact h.enclosed hformed hend
  · rw [decide_eq_false hneeded]
    exact h (Nat.le_of_not_lt hneeded) hlevel hm hend

end Formulary.Parser

namespace Formulary.Formula

open Formulary.Parser Formulary.Token

variable {σ : Symbol → List Char} {m level : Nat} {rest : List Token} {t : Term} {ts : List Term}

namespace Operator

/-- No operator binds at the level of the signs. -/
lemma level_ne_sign (op : Operator) : op.level ≠ 10 := by cases op <;> decide

/-- No left operand is asked for that binds as tightly as a sign. -/
lemma leftLevel_ne (op : Operator) : op.leftLevel ≠ 11 := by cases op <;> decide

/-- No right operand is asked for that binds as tightly as a sign. -/
lemma rightLevel_ne (op : Operator) : op.rightLevel ≠ 11 := by cases op <;> decide

/-- A left operand binds at least as tightly as its operator. -/
lemma level_le_leftLevel (op : Operator) : op.level ≤ op.leftLevel := by cases op <;> decide

/-- Only powers bind tighter than their right operand needs to, and by one level. -/
lemma le_rightLevel (op : Operator) (hle : level ≤ op.level) (hlevel : level ≠ 11) :
    level ≤ op.rightLevel := by
  cases op <;> simp_all [Operator.level, rightLevel, binaryOp, BinaryOp.level, BinaryOp.rightLevel] <;>
    omega

/-- An operator that binds no tighter than another one ends the right operand of it. -/
lemma lt_rightLevel (op : Operator) {op' : Operator} (hle : op'.level ≤ op.level)
    (hright : op'.level ≤ op.rightLevel) : op'.level < op.rightLevel := by
  cases op <;> cases op' <;> first | decide | exact absurd hle (by decide) | exact absurd hright (by decide)

end Operator

/-- The left operand of an operator ends before the operator. -/
lemma letsEnd_mark {op : Operator} : LetsEnd op.leftLevel (.sign op.mark.sign :: rest) := by
  intro t ht
  cases ht
  exact .inr (.inr ⟨op, op.level_le_leftLevel, rfl⟩)

namespace Term

/-- The arguments of a call are read up to the closing parenthesis. -/
lemma elements_arguments
    (h : ∀ t ∈ ts, ∀ rest, LetsEnd 0 rest → Spells σ (t.lexemes 0) (t.expression σ) 0 rest) :
    ∀ n, 2 + 4 * (lexemesOfAll ts).length ≤ n →
      ∃ comma, elements ")" n ((lexemesOfAll ts).map (Lexeme.token σ) ++ .sign ")" :: rest) =
        some (expressions σ ts, comma, rest) := by
  induction ts with
  | nil =>
    intro n hn
    obtain ⟨n, rfl⟩ : ∃ k, n = k + 1 := ⟨n - 1, by omega⟩
    exact ⟨false, rfl⟩
  | cons t ts ih =>
    intro n hn
    obtain ⟨n, rfl⟩ : ∃ k, n = k + 1 := ⟨n - 1, by omega⟩
    have hbegins := (t.formed 0).begins
    by_cases hne : ts = []
    · subst hne
      have hread := (h t (by simp) (.sign ")" :: rest) letsEnd_closing).complete stops_closing n
        (by simp [lexemesOfAll] at hn; omega)
      exact ⟨false, elements_last (ne_closing_of_begins hbegins) hread⟩
    · have htokens : (lexemesOfAll (t :: ts)).map (Lexeme.token σ) ++ .sign ")" :: rest =
          (t.lexemes 0).map (Lexeme.token σ) ++
            .sign "," :: ((lexemesOfAll ts).map (Lexeme.token σ) ++ .sign ")" :: rest) := by
        rw [lexemesOfAll_cons t hne]
        simp [Lexeme.token, Mark.sign]
      have hlength : (lexemesOfAll (t :: ts)).length =
          (t.lexemes 0).length + (lexemesOfAll ts).length + 1 := by
        rw [lexemesOfAll_cons t hne]
        simp
        omega
      obtain ⟨comma, hrest⟩ := ih (fun u hu => h u (by simp [hu])) n (by omega)
      have hread := (h t (by simp) (.sign "," :: ((lexemesOfAll ts).map (Lexeme.token σ) ++
        .sign ")" :: rest)) letsEnd_comma).complete stops_comma n (by omega)
      rw [htokens]
      exact ⟨true, elements_comma (ne_closing_of_begins hbegins) hread hrest⟩

/-- A call is read as an operand. -/
lemma spells_call (f : Function) (hend : LetsEnd level rest)
    (h : ∀ t ∈ ts, ∀ rest, LetsEnd 0 rest → Spells σ (t.lexemes 0) (t.expression σ) 0 rest) :
    Spells σ ((call f ts).lexemes level) ((call f ts).expression σ) m rest := by
  refine spells_operand (List.cons_ne_nil _ _) fun n hn => ?_
  have hlength : ((call f ts).lexemes level).length = (lexemesOfAll ts).length + 3 := by
    simp [lexemes, parenthesized]
  obtain ⟨n, rfl⟩ : ∃ k, n = k + 3 := ⟨n - 3, by omega⟩
  obtain ⟨comma, helements⟩ := @elements_arguments σ rest ts h (n + 1) (by omega)
  have htokens : ((call f ts).lexemes level).map (Lexeme.token σ) ++ rest =
      .name f.name :: .sign "(" ::
        ((lexemesOfAll ts).map (Lexeme.token σ) ++ .sign ")" :: rest) := by
    simp [lexemes, parenthesized, Lexeme.token, Mark.sign]
  rw [htokens, operand_cons (by simp)]
  have hatom : ∀ us, atom (n + 2) (.name f.name :: us) = some (.name f.name, us) := fun us => rfl
  have happlied : applied (.name f.name) (n + 2) (.sign "(" ::
      ((lexemesOfAll ts).map (Lexeme.token σ) ++ .sign ")" :: rest)) =
        some ((call f ts).expression σ, rest) := by
    rw [applied, helements]
    exact hend.applied
  simp [sign?, hatom, happlied]

/-- A term is read as its expression, wherever the operators behind it bind no tighter. -/
theorem spells (t : Term) (hlevel : level ≠ 11) (hm : m ≤ level) (hend : LetsEnd level rest) :
    Spells σ (t.lexemes level) (t.expression σ) m rest := by
  induction t generalizing level m rest with
  | numeral n =>
    rw [lexemes, expression]
    refine spells_atom (fun k rest => ?_) ?_ ?_ hend
    · cases hn : n.literal <;> simp [Lexeme.token, Literal.token, literalExpression, hn, atom]
    · cases hn : n.literal <;> simp [Lexeme.token, Literal.token, hn, sign?]
    · cases hn : n.literal <;> simp [Lexeme.token, Literal.token, hn]
  | symbol s => exact spells_atom (fun _ _ => rfl) rfl (by simp [Lexeme.token]) hend
  | constant k => exact spells_atom (fun _ _ => rfl) rfl (by simp [Lexeme.token]) hend
  | call f ts ih =>
    exact spells_call f hend fun t ht rest hend => ih t ht (by decide) (Nat.le_refl 0) hend
  | signed negative t ih =>
    refine Parses.parenthesizedIf (fun {l m rest} hle _ hm hend => ?_)
      ((t.formed 10).sign negative) hlevel hm hend
    -- a sign binds less tightly than a power, and no operator binds as a sign does
    have hten := hend.mono hle
    refine (ih (by decide) (Nat.le_refl 10) hten).signed negative (hten.stops fun op hop => ?_)
      (Nat.le_trans hm hle)
    exact Nat.lt_of_le_of_ne hop op.level_ne_sign
  | binary op a b iha ihb =>
    refine Parses.parenthesizedIf (fun {l m rest} hle hlevel hm hend => ?_)
      ((a.formed _).join _ (b.formed _)) hlevel hm hend
    have hle' := op.le_rightLevel hle hlevel
    have hb := ihb op.rightLevel_ne (Nat.le_refl _) (hend.mono hle')
    have ha : Spells σ (a.lexemes op.leftLevel) (a.expression σ) m
        (.sign op.mark.sign :: ((b.lexemes op.rightLevel).map (Lexeme.token σ) ++ rest)) :=
      iha op.leftLevel_ne (Nat.le_trans hm (Nat.le_trans hle op.level_le_leftLevel)) letsEnd_mark
    have hright : ∀ op' : Operator, op'.level ≤ l → op'.level < op.rightLevel := fun op' hop' =>
      op.lt_rightLevel (Nat.le_trans hop' hle) (Nat.le_trans hop' hle')
    exact ha.binary hb (hend.stops hright) (Nat.le_trans hm hle)
  | group t ih =>
    have hparses : Parses σ (t.lexemes 0) (t.expression σ) 0 := fun {l m rest} hle hlevel hm hend => by
      obtain rfl := Nat.le_zero.1 hle
      exact ih hlevel hm hend
    exact hparses.enclosed (t.formed 0) hend

/-- No lexeme ends a line. -/
lemma notMem_lineEnd (ls : List Lexeme) : lineEnd ∉ ls.map (Lexeme.token σ) := by
  intro h
  obtain ⟨l, -, hl⟩ := List.mem_map.1 h
  cases l with
  | numeral n => cases hn : n.literal <;> simp [Lexeme.token, Literal.token, hn] at hl
  | _ => cases hl

/-- The tokens of a term spell its expression. -/
theorem ofTokens?_lexemes (t : Term) :
    Parser.ofTokens? ((t.lexemes 0).map (Lexeme.token σ)) = some (t.expression σ) := by
  have hend : LetsEnd 0 [] := nofun
  have hspells : Spells σ (t.lexemes 0) (t.expression σ) 0 [] :=
    t.spells (by decide) (Nat.le_refl 0) hend
  have hread := hspells.complete (fun _ _ => rfl)
    (4 * ((t.lexemes 0).map (Lexeme.token σ)).length + 4) (by simp; omega)
  rw [List.append_nil] at hread
  rw [ofTokens?_eq (notMem_lineEnd _), Parser.sequence, hread]
  rfl

/-- The difference of two terms is compiled to the difference of their expressions. -/
theorem compileTokens_difference (l r : Term) :
    compileTokens (Layout.differenceTokens ((l.lexemes 0).map (Lexeme.token σ))
      ((r.lexemes 0).map (Lexeme.token σ))) =
        .ok (.binary .sub (l.expression σ) (r.expression σ)) := by
  have htokens : Layout.differenceTokens ((l.lexemes 0).map (Lexeme.token σ))
      ((r.lexemes 0).map (Lexeme.token σ)) =
        ((binary .minus (group l) (group r)).lexemes 0).map (Lexeme.token σ) := by
    simp [Layout.differenceTokens, lexemes, parenthesizedIf, parenthesized, Lexeme.token, Mark.sign,
      Operator.mark]
  rw [htokens, compileTokens, ofTokens?_lexemes]
  rfl

end Term
end Formulary.Formula
