import Formulary.Proofs.Formula.Reading

/-!
# Terms of formulas

A term is the syntax tree of one side of a formula: numerals, symbols, constants, calls, signs,
operators and parentheses. It is written with parentheses where its operators need them
(`Term.lexemes`), it is read as an expression (`Term.expression`), and it has a value
(`Term.value`). The lexemes of a term fit together (`Term.formed`), and the expression has the value
of the term wherever its names do (`Term.eval_expression`).
-/

namespace Formulary.Formula

open Formulary.Text Formulary.Token Formulary.Number

/-- The operators of formulas. -/
inductive Operator where
  | plus | minus | times | slash | power
  deriving Repr, DecidableEq

namespace Operator

/-- The operator of expressions. -/
def binaryOp : Operator → BinaryOp
  | .plus => .add | .minus => .sub | .times => .mul | .slash => .div | .power => .pow

/-- The mark of an operator. -/
def mark : Operator → Mark
  | .plus => .plus | .minus => .minus | .times => .times | .slash => .slash | .power => .power

/-- How tightly an operator binds. -/
def level (op : Operator) : Nat := op.binaryOp.level

/-- The least level of the left operand: only what binds tightest can be raised to a power. -/
def leftLevel (op : Operator) : Nat := if op = .power then 12 else op.level

/-- The least level of the right operand. -/
def rightLevel (op : Operator) : Nat := op.binaryOp.rightLevel

/-- The value of an operator. -/
def apply : Operator → Scalar → Scalar → Except Undefined Scalar
  | .plus => Scalar.add | .minus => Scalar.sub | .times => Scalar.mul | .slash => Scalar.div
  | .power => Scalar.pow

end Operator

/-- The number that a literal denotes. -/
def literalValue : Literal → Scalar
  | .integer n => .integer n
  | .decimal n e => .real (Decimal.toFloat ⟨false, n, e⟩)
  | .imaginary n e => .complex 0.0 (Decimal.toFloat ⟨false, n, e⟩)

/-- The expression that a literal is read as. -/
def literalExpression : Literal → Expression
  | .integer n => .integer n
  | .decimal n e => .decimal n e
  | .imaginary n e => .imaginary n e

/-- The value of a constant. -/
def Constant.value : Constant → Float
  | .pi => 3.141592653589793
  | .e => 2.718281828459045

/-- Terms of formulas. -/
inductive Term where
  | numeral (n : Numeral)
  | symbol (s : Symbol)
  | constant (k : Constant)
  | call (f : Function) (arguments : List Term)
  | signed (negative : Bool) (t : Term)
  | binary (op : Operator) (a b : Term)
  | group (t : Term)

/-- Lexemes in a pair of parentheses. -/
def parenthesized (ls : List Lexeme) : List Lexeme :=
  .mark .opening :: (ls ++ [.mark .closing])

/-- Lexemes that are put into parentheses where that is needed. -/
def parenthesizedIf (needed : Bool) (ls : List Lexeme) : List Lexeme :=
  if needed then parenthesized ls else ls

namespace Term

mutual

/-- The lexemes of a term that stands where operators bind at least at a level. -/
def lexemes (level : Nat) : Term → List Lexeme
  | numeral n => [.numeral n]
  | symbol s => [.symbol s]
  | constant k => [.constant k]
  | call f ts => .function f :: parenthesized (lexemesOfAll ts)
  | signed negative t =>
    parenthesizedIf (10 < level) (.mark (if negative then .minus else .plus) :: t.lexemes 10)
  | binary op a b =>
    parenthesizedIf (op.level < level)
      (a.lexemes op.leftLevel ++ .mark op.mark :: b.lexemes op.rightLevel)
  | group t => parenthesized (t.lexemes 0)

/-- The lexemes of terms with commas between them. -/
def lexemesOfAll : List Term → List Lexeme
  | [] => []
  | [t] => t.lexemes 0
  | t :: ts => t.lexemes 0 ++ .mark .comma :: lexemesOfAll ts

end

mutual

/--
How deeply the parentheses of a term are nested that stands where operators bind at least at a
level, where a symbol counts as nested to a depth.
-/
def nesting (symbols level : Nat) : Term → Nat
  | numeral _ | constant _ => 0
  | symbol _ => symbols
  | call _ ts => nestingOfAll symbols ts + 1
  | signed _ t => t.nesting symbols 10 + if 10 < level then 1 else 0
  | binary op a b =>
    max (a.nesting symbols op.leftLevel) (b.nesting symbols op.rightLevel) +
      if op.level < level then 1 else 0
  | group t => t.nesting symbols 0 + 1

/-- How deeply the parentheses of terms are nested. -/
def nestingOfAll (symbols : Nat) : List Term → Nat
  | [] => 0
  | t :: ts => max (t.nesting symbols 0) (nestingOfAll symbols ts)

end

mutual

/-- The symbols of a term from left to right. -/
def symbols : Term → List Symbol
  | numeral _ | constant _ => []
  | symbol s => [s]
  | call _ ts => symbolsOfAll ts
  | signed _ t => t.symbols
  | binary _ a b => a.symbols ++ b.symbols
  | group t => t.symbols

/-- The symbols of terms. -/
def symbolsOfAll : List Term → List Symbol
  | [] => []
  | t :: ts => t.symbols ++ symbolsOfAll ts

end

mutual

/-- The expression of a term whose symbols are written in a given way. -/
def expression (σ : Symbol → List Char) : Term → Expression
  | numeral n => literalExpression n.literal
  | symbol s => .name (String.ofList (σ s))
  | constant k => .name k.name
  | call f ts => .call (.name f.name) (expressions σ ts)
  | signed negative t => .unary (if negative then .minus else .plus) (t.expression σ)
  | binary op a b => .binary op.binaryOp (a.expression σ) (b.expression σ)
  | group t => t.expression σ

/-- The expressions of terms. -/
def expressions (σ : Symbol → List Char) : List Term → List Expression
  | [] => []
  | t :: ts => t.expression σ :: expressions σ ts

end

mutual

/-- The value of a term, given the values of its symbols. -/
def value (env : String → Float) : Term → Except Undefined Scalar
  | numeral n => .ok (literalValue n.literal)
  | symbol s => .ok (.real (env s.name))
  | constant k => .ok (.real k.value)
  | call f ts => do f.apply (← values env ts)
  | signed negative t => do
    let x ← t.value env
    return if negative then x.neg else x
  | binary op a b => do
    let x ← a.value env
    let y ← b.value env
    op.apply x y
  | group t => t.value env

/-- The values of terms, from left to right. -/
def values (env : String → Float) : List Term → Except Undefined (List Scalar)
  | [] => .ok []
  | t :: ts => do
    let x ← t.value env
    let xs ← values env ts
    return x :: xs

end

/-- The difference of two terms. -/
def difference (l r : Term) : Term := binary .minus l r

/-- The double that a term has as its value: no number if it has none or one that is not real. -/
def outcome (t : Term) (env : String → Float) : Float :=
  match t.value env with
  | .ok x => (Value.scalar x).toFloat
  | .error _ => 0.0 / 0.0

/-- The text of a term without gaps. -/
def text (t : Term) : List Char := (t.lexemes 0).flatMap (Lexeme.text Symbol.text)

/-- Induction on terms, with the hypothesis for every argument of a call. -/
@[induction_eliminator]
theorem induction {P : Term → Prop} (numeral : ∀ n, P (numeral n)) (symbol : ∀ s, P (symbol s))
    (constant : ∀ k, P (constant k)) (call : ∀ f ts, (∀ t ∈ ts, P t) → P (call f ts))
    (signed : ∀ negative t, P t → P (signed negative t))
    (binary : ∀ op a b, P a → P b → P (binary op a b)) (group : ∀ t, P t → P (group t)) (t : Term) :
    P t := by
  -- The recursor asks for a second motive, one for lists of arguments.
  refine @Term.rec P (fun ts => ∀ t ∈ ts, P t) numeral symbol constant call signed binary group
    nofun (fun t ts iht ihts u hu => ?_) t
  obtain rfl | hu := List.mem_cons.1 hu
  · exact iht
  · exact ihts u hu

end Term

/-- Whether a term can begin with a lexeme. -/
def Lexeme.begins : Lexeme → Bool
  | .mark .opening | .mark .plus | .mark .minus => true
  | l => l.isWordy

/-- Whether a term can end with a lexeme. -/
def Lexeme.ends : Lexeme → Bool
  | .mark .closing => true
  | l => l.isWordy

/-- Fitting lexemes that begin and end as terms do. -/
structure Formed (ls : List Lexeme) : Prop where
  fits : ls.IsChain fun l l' => l.fits l'
  begins : ∃ l ∈ ls.head?, l.begins
  ends : ∃ l ∈ ls.getLast?, l.ends

variable {l l' : Lexeme} {ls ls' : List Lexeme} {m : Mark}

/-- A mark may follow what a term ends with. -/
lemma Lexeme.fits_of_ends (h : l.ends) (m : Mark) : l.fits (.mark m) := by
  cases l with
  | mark m' => cases m' <;> simp_all [Lexeme.ends, isWordy, fits, Mark.sticks]
  | _ => rfl

/-- What a term begins with may follow a mark. -/
lemma Lexeme.fits_of_begins (h : l.begins) (m : Mark) : (Lexeme.mark m).fits l := by
  cases l with
  | mark m' => cases m' <;> simp_all [Lexeme.begins, isWordy, fits, Mark.sticks]
  | _ => rfl

namespace Formed

/-- A single word is formed like a term. -/
lemma single (h : l.isWordy) : Formed [l] where
  fits := .singleton l
  begins := ⟨l, rfl, by cases l <;> first | rfl | cases h⟩
  ends := ⟨l, rfl, by cases l <;> first | rfl | cases h⟩

/-- What is formed like a term is not empty. -/
lemma ne_nil (h : Formed ls) : ls ≠ [] := by
  rintro rfl
  obtain ⟨l, hl, -⟩ := h.begins
  cases hl

/-- A mark in front. -/
lemma fits_mark (h : Formed ls) (m : Mark) :
    (Lexeme.mark m :: ls).IsChain fun l l' => l.fits l' := by
  refine List.isChain_cons.2 ⟨fun l hl => ?_, h.fits⟩
  obtain ⟨l', hl', hbegins⟩ := h.begins
  obtain rfl : l' = l := Option.mem_unique hl' hl
  exact Lexeme.fits_of_begins hbegins m

/-- A sign may stand in front of what is formed like a term. -/
lemma sign (h : Formed ls) (negative : Bool) :
    Formed (.mark (if negative then .minus else .plus) :: ls) where
  fits := h.fits_mark _
  begins := ⟨_, rfl, by cases negative <;> rfl⟩
  ends := by
    obtain ⟨l, hl, hends⟩ := h.ends
    refine ⟨l, ?_, hends⟩
    rw [List.getLast?_cons, Option.mem_def.1 hl]
    rfl

/-- Two terms with a mark between them. -/
lemma join (h : Formed ls) (m : Mark) (h' : Formed ls') : Formed (ls ++ .mark m :: ls') where
  fits := by
    refine List.isChain_append.2 ⟨h.fits, h'.fits_mark m, fun l hl l' hl' => ?_⟩
    cases hl'
    obtain ⟨l', hl', hends⟩ := h.ends
    obtain rfl : l' = l := Option.mem_unique hl' hl
    exact Lexeme.fits_of_ends hends m
  begins := by
    obtain ⟨l, hl, hbegins⟩ := h.begins
    exact ⟨l, by rwa [List.head?_append_of_ne_nil _ h.ne_nil], hbegins⟩
  ends := by
    obtain ⟨l, hl, hends⟩ := h'.ends
    refine ⟨l, ?_, hends⟩
    rw [List.getLast?_append_of_ne_nil _ (List.cons_ne_nil _ _), List.getLast?_cons,
      Option.mem_def.1 hl]
    rfl

/-- What stands in parentheses is formed if it is empty or formed itself. -/
lemma parenthesized (h : ls = [] ∨ Formed ls) : Formed (parenthesized ls) where
  fits := by
    obtain rfl | h := h
    · exact List.isChain_cons_cons.2 ⟨rfl, .singleton _⟩
    · refine List.isChain_cons.2 ⟨fun l hl => ?_, List.isChain_append.2
        ⟨h.fits, .singleton _, fun l hl l' hl' => ?_⟩⟩
      · rw [List.head?_append_of_ne_nil _ h.ne_nil] at hl
        exact (List.isChain_cons.1 (h.fits_mark .opening)).1 l hl
      · cases hl'
        obtain ⟨l', hl', hends⟩ := h.ends
        obtain rfl : l' = l := Option.mem_unique hl' hl
        exact Lexeme.fits_of_ends hends _
  begins := ⟨_, rfl, rfl⟩
  ends := ⟨.mark .closing, by simp [Formula.parenthesized, List.getLast?_cons], rfl⟩

/-- Parentheses may stand around what is formed like a term. -/
lemma parenthesizedIf (needed : Bool) (h : Formed ls) : Formed (parenthesizedIf needed ls) := by
  cases needed
  · exact h
  · exact parenthesized (.inr h)

/-- A function in front of parentheses. -/
lemma call (f : Function) (h : ls = [] ∨ Formed ls) :
    Formed (.function f :: Formula.parenthesized ls) where
  fits := List.isChain_cons_cons.2 ⟨rfl, (parenthesized h).fits⟩
  begins := ⟨_, rfl, rfl⟩
  ends := ⟨.mark .closing, by simp [Formula.parenthesized, List.getLast?_cons], rfl⟩

end Formed

namespace Term

variable {level : Nat} {σ : Symbol → List Char} {env : String → Float} {t : Term} {ts : List Term}

/-- The lexemes of a term stand before a comma and the others. -/
lemma lexemesOfAll_cons (t : Term) (hts : ts ≠ []) :
    lexemesOfAll (t :: ts) = t.lexemes 0 ++ .mark .comma :: lexemesOfAll ts := by
  cases ts with
  | nil => exact absurd rfl hts
  | cons u ts => rfl

/-- The lexemes of some terms are formed like a term if those of each term are. -/
lemma formed_all (hts : ts ≠ []) (h : ∀ t ∈ ts, Formed (t.lexemes 0)) : Formed (lexemesOfAll ts) := by
  induction ts with
  | nil => exact absurd rfl hts
  | cons t ts ih =>
    by_cases hne : ts = []
    · subst hne
      exact h t (by simp)
    · rw [lexemesOfAll_cons t hne]
      exact (h t (by simp)).join .comma (ih hne fun u hu => h u (by simp [hu]))

/-- The lexemes of a term fit together. -/
theorem formed (t : Term) (level : Nat) : Formed (t.lexemes level) := by
  induction t generalizing level with
  | numeral n => exact .single rfl
  | symbol s => exact .single rfl
  | constant k => exact .single rfl
  | call f ts ih =>
    refine .call f ?_
    by_cases hts : ts = []
    · subst hts
      exact .inl rfl
    · exact .inr (formed_all hts fun t ht => ih t ht 0)
  | signed negative t ih => exact .parenthesizedIf _ ((ih 10).sign negative)
  | binary op a b iha ihb => exact .parenthesizedIf _ ((iha _).join _ (ihb _))
  | group t ih => exact .parenthesized (.inr (ih 0))

/-- What the parentheses around lexemes add to their nesting. -/
lemma nested_parenthesizedIf {ls : List Lexeme} {i : Nat} (needed : Bool) (h : Nested ls i) :
    Nested (parenthesizedIf needed ls) (i + if needed then 1 else 0) := by
  cases needed
  · exact h
  · exact h.enclosed

/-- The lexemes of terms are nested as deeply as the terms. -/
lemma nested_all (h : ∀ t ∈ ts, Nested (t.lexemes 0) (t.nesting 0 0)) :
    Nested (lexemesOfAll ts) (nestingOfAll 0 ts) := by
  induction ts with
  | nil => exact .nil
  | cons t ts ih =>
    have ht := h t (by simp)
    have hts := ih fun u hu => h u (by simp [hu])
    by_cases hne : ts = []
    · subst hne
      simpa [lexemesOfAll, nestingOfAll] using ht
    · rw [lexemesOfAll_cons t hne, nestingOfAll]
      exact ht.append (.cons nofun nofun hts)

/-- The parentheses of a term are nested as its lexemes say. -/
theorem nested (t : Term) (level : Nat) : Nested (t.lexemes level) (t.nesting 0 level) := by
  induction t generalizing level with
  | numeral n => exact .cons nofun nofun .nil
  | symbol s => exact .cons nofun nofun .nil
  | constant k => exact .cons nofun nofun .nil
  | call f ts ih => exact .cons nofun nofun (nested_all fun t ht => ih t ht 0).enclosed
  | signed negative t ih =>
    have hsign : Nested (.mark (if negative then .minus else .plus) :: t.lexemes 10) (t.nesting 0 10) :=
      .cons (by cases negative <;> nofun) (by cases negative <;> nofun) (ih 10)
    simpa [lexemes, nesting] using nested_parenthesizedIf (10 < level) hsign
  | binary op a b iha ihb =>
    have hjoin := (iha op.leftLevel).append (Nested.cons (l := .mark op.mark)
      (by cases op <;> nofun) (by cases op <;> nofun) (ihb op.rightLevel))
    simpa [lexemes, nesting] using nested_parenthesizedIf (op.level < level) hjoin
  | group t ih => exact (ih 0).enclosed

/-- The symbols among lexemes are those of one part and of the other. -/
lemma symbols_append (ls ls' : List Lexeme) :
    Lexeme.symbols (ls ++ ls') = Lexeme.symbols ls ++ Lexeme.symbols ls' := List.filterMap_append

/-- Parentheses are no symbols. -/
lemma symbols_parenthesized (ls : List Lexeme) :
    Lexeme.symbols (parenthesized ls) = Lexeme.symbols ls := by
  show Lexeme.symbols (ls ++ [.mark .closing]) = _
  rw [symbols_append]
  exact List.append_nil _

/-- Parentheses that may be left out are no symbols. -/
lemma symbols_parenthesizedIf (needed : Bool) (ls : List Lexeme) :
    Lexeme.symbols (parenthesizedIf needed ls) = Lexeme.symbols ls := by
  cases needed
  · rfl
  · exact symbols_parenthesized ls

/-- The symbols among the lexemes of terms are those of the terms. -/
lemma symbols_all (h : ∀ t ∈ ts, Lexeme.symbols (t.lexemes 0) = t.symbols) :
    Lexeme.symbols (lexemesOfAll ts) = symbolsOfAll ts := by
  induction ts with
  | nil => rfl
  | cons t ts ih =>
    have ht := h t (by simp)
    have hts := ih fun u hu => h u (by simp [hu])
    by_cases hne : ts = []
    · subst hne
      simpa [lexemesOfAll, symbolsOfAll] using ht
    · rw [lexemesOfAll_cons t hne, symbols_append, symbolsOfAll, ht, ← hts]
      rfl

/-- The symbols of a term are those of its lexemes. -/
theorem symbols_lexemes (t : Term) (level : Nat) : Lexeme.symbols (t.lexemes level) = t.symbols := by
  induction t generalizing level with
  | numeral n => rfl
  | symbol s => rfl
  | constant k => rfl
  | call f ts ih =>
    show Lexeme.symbols (parenthesized (lexemesOfAll ts)) = _
    rw [symbols_parenthesized]
    exact symbols_all fun t ht => ih t ht 0
  | signed negative t ih =>
    rw [lexemes, symbols_parenthesizedIf]
    exact ih 10
  | binary op a b iha ihb =>
    rw [lexemes, symbols_parenthesizedIf, symbols_append, iha, symbols, ← ihb op.rightLevel]
    rfl
  | group t ih =>
    rw [lexemes, symbols_parenthesized]
    exact ih 0

/-- The names in the expressions of terms are those of their symbols. -/
lemma mem_namesOfAll {n : String}
    (h : ∀ t ∈ ts, n ∈ (t.expression σ).names ↔ ∃ s ∈ t.symbols, n = String.ofList (σ s)) :
    n ∈ Expression.namesOfAll (expressions σ ts) ↔ ∃ s ∈ symbolsOfAll ts, n = String.ofList (σ s) := by
  induction ts with
  | nil => simp [expressions, Expression.namesOfAll, symbolsOfAll]
  | cons t ts ih =>
    simp only [expressions, Expression.namesOfAll, List.mem_append, h t (by simp),
      ih fun u hu => h u (by simp [hu]), symbolsOfAll, or_and_right, exists_or]

/-- The names in the expression of a term are its symbols and names with a built-in value. -/
theorem mem_names {n : String} (hn : Value.builtin? n = none) :
    n ∈ (t.expression σ).names ↔ ∃ s ∈ t.symbols, n = String.ofList (σ s) := by
  induction t with
  | numeral n =>
    rw [expression]
    cases n.literal <;> simp [literalExpression, Expression.names, symbols]
  | symbol s => simp [expression, Expression.names, symbols]
  | constant k =>
    have hk : n ≠ k.name := by
      rintro rfl
      cases k <;> cases hn
    simpa [expression, Expression.names, symbols] using hk
  | call f ts ih =>
    have hf : n ≠ f.name := by
      rintro rfl
      rw [Value.builtin?, Function.ofName?_name] at hn
      cases hn
    simp only [expression, Expression.names, List.mem_append, List.mem_singleton, hf, false_or,
      symbols]
    exact mem_namesOfAll ih
  | signed negative t ih => exact ih
  | binary op a b iha ihb =>
    simp only [expression, Expression.names, List.mem_append, iha, ihb, symbols, or_and_right, exists_or]
  | group t ih => exact ih

/-- The symbols of terms are those of each of them. -/
lemma mem_symbolsOfAll {s : Symbol} : s ∈ symbolsOfAll ts ↔ ∃ t ∈ ts, s ∈ t.symbols := by
  induction ts with
  | nil => simp [symbolsOfAll]
  | cons t ts ih => simp [symbolsOfAll, ih]

section
variable {scope : Expression.Scope}

/-- What evaluating several terms gives. -/
def ofScalars (r : Except Undefined (List Scalar)) : Except EvalError (List Value) :=
  match r with
  | .ok xs => .ok (xs.map .scalar)
  | .error u => .error (.undefined u)

/-- The expressions of terms have the values of the terms. -/
lemma evalAll_expressions
    (h : ∀ t ∈ ts, (t.expression σ).eval scope = Value.ofScalar (t.value env)) :
    Expression.evalAll scope (expressions σ ts) = ofScalars (values env ts) := by
  induction ts with
  | nil => rfl
  | cons t ts ih =>
    rw [expressions, Expression.evalAll, h t (by simp), ih fun u hu => h u (by simp [hu]), values]
    cases t.value env with
    | error u => rfl
    | ok x => cases values env ts <;> rfl

/-- A function is called with the values of its arguments. -/
lemma call_function (f : Function) (xs : List Scalar) :
    Value.call (.function f) (xs.map .scalar) = Value.ofScalar (f.apply xs) := by
  have hxs : (xs.map Value.scalar).mapM Value.scalar? = some xs := by
    induction xs with
    | nil => rfl
    | cons x xs ih => simp [List.mapM_cons, ih, Value.scalar?]
  unfold Value.call
  rw [hxs]

/-- A name that no scope binds has its built-in value. -/
lemma eval_builtin {n : String} {v : Value} (hn : scope.lookup n = none)
    (hv : Value.builtin? n = some v) : (Expression.name n).eval scope = .ok v := by
  rw [Expression.eval, Expression.lookup, hn, hv]

/-- The expression of a term has the value of the term. -/
theorem eval_expression (hs : ∀ s ∈ t.symbols, scope.lookup (String.ofList (σ s)) = some (env s.name))
    (hr : ∀ n, isReserved n → scope.lookup n = none) :
    (t.expression σ).eval scope = Value.ofScalar (t.value env) := by
  induction t with
  | numeral n =>
    rw [expression, value]
    cases n.literal <;> rfl
  | symbol s =>
    rw [expression, value, Expression.eval, Expression.lookup, hs s (by simp [symbols])]
    rfl
  | constant k =>
    rw [expression, value]
    cases k <;> exact eval_builtin (hr _ (by decide)) rfl
  | call f ts ih =>
    have hf : (Expression.name f.name).eval scope = .ok (.function f) := by
      refine eval_builtin (hr _ (by cases f <;> decide)) ?_
      rw [Value.builtin?, Function.ofName?_name]
    have hts := evalAll_expressions fun t ht => ih t ht fun s hst =>
      hs s (mem_symbolsOfAll.2 ⟨t, ht, hst⟩)
    rw [expression, value, Expression.eval, hf, hts]
    cases values env ts with
    | error u => rfl
    | ok xs => exact call_function f xs
  | signed negative t ih =>
    rw [expression, value, Expression.eval, ih hs]
    cases t.value env <;> cases negative <;> rfl
  | binary op a b iha ihb =>
    have ha := iha fun s h => hs s (by simp [symbols, h])
    have hb := ihb fun s h => hs s (by simp [symbols, h])
    rw [expression, value]
    cases op <;>
      simp only [Operator.binaryOp, Expression.eval, ha, hb] <;>
      cases a.value env <;> cases b.value env <;> rfl
  | group t ih => exact ih hs

/-- The expression of a term has the double that the term has. -/
theorem value_expression
    (hs : ∀ s ∈ t.symbols, scope.lookup (String.ofList (σ s)) = some (env s.name))
    (hr : ∀ n, isReserved n → scope.lookup n = none) :
    (t.expression σ).value scope = .ok (t.outcome env) := by
  rw [Expression.value, eval_expression hs hr, outcome]
  cases t.value env <;> rfl

end

end Term
end Formulary.Formula
