import Formulary.Proofs.Expression.Equality
import Formulary.Proofs.Expression.Interruption
import Formulary.Proofs.Expression.Undefined

/-!
# Expressions of arithmetic

Numerals, names, signs, the operations of arithmetic and calls evaluate all that they are built from
(`IsArithmetic.eval_subexpression`), and to nothing but numbers and functions. Nothing interrupts
them where their names have values, so that they have a double for a value, which is no number
exactly if something in them is undefined or the whole is not real (`value_arithmetic`).
-/

namespace Formulary

open Formulary.Number

/-- Whether an operator is a sign. -/
def UnaryOp.isSign : UnaryOp → Bool
  | .plus | .minus => true
  | _ => false

namespace Value

variable {f : Scalar → Scalar → Except Undefined Scalar} {v w : Value}

/-! ### Values that are not real -/

/-- That a value is a number or a function. -/
inductive IsNumeric : Value → Prop
  | scalar (s : Scalar) : IsNumeric (.scalar s)
  | function (f : Formula.Function) : IsNumeric (.function f)

/-- That such a value has no double: it is no number, too large for one, or off the real line. -/
inductive NotReal : Value → Prop
  | function (f : Formula.Function) : NotReal (.function f)
  | integer {n : Int} : floatOfInt? n = none → NotReal (.scalar (.integer n))
  | real {x : Float} : x.isNaN → NotReal (.scalar (.real x))
  | complex {re im : Float} : (im == 0) = false ∨ re.isNaN → NotReal (.scalar (.complex re im))

/-- Zero divided by zero is no number. -/
lemma isNaN_nan : (0.0 / 0.0 : Float).isNaN = true := by decide +kernel

/-- The double of a value is no number exactly if the value has none. -/
lemma isNaN_toFloat (hv : v.IsNumeric) : v.toFloat.isNaN ↔ v.NotReal := by
  cases hv with
  | function f => exact ⟨fun _ => .function f, fun _ => isNaN_nan⟩
  | scalar s =>
    cases s with
    | integer n =>
      cases hn : floatOfInt? n with
      | none =>
        refine ⟨fun _ => .integer hn, fun _ => ?_⟩
        simpa [toFloat, scalar?, Scalar.toFloat, hn] using isNaN_nan
      | some x =>
        have hx : ¬ x.isNaN := not_isNaN_of_isFinite (isFinite_of_floatOfInt? hn)
        have hvalue : toFloat (.scalar (.integer n)) = x := by
          simp [toFloat, scalar?, Scalar.toFloat, hn]
        rw [hvalue]
        refine ⟨fun h => absurd h hx, fun h => ?_⟩
        cases h with
        | integer h => simp [hn] at h
    | real x =>
      refine ⟨.real, fun h => ?_⟩
      cases h with
      | real h => exact h
    | complex re im =>
      have hvalue : toFloat (.scalar (.complex re im)) = if im == 0 then re else 0.0 / 0.0 := rfl
      rw [hvalue]
      cases him : im == 0 with
      | false => exact ⟨fun _ => .complex (.inl him), fun _ => isNaN_nan⟩
      | true =>
        refine ⟨fun h => .complex (.inr h), fun h => ?_⟩
        cases h with
        | complex h => exact h.resolve_left (by simp [him])

/-- What an operation of numbers gives is numeric. -/
lemma isNumeric_ofScalar {r : Except Undefined Scalar} (h : ofScalar r = .ok v) : v.IsNumeric := by
  cases r with
  | ok s =>
    cases h
    exact .scalar s
  | error u => cases h

/-- What an operation gives that takes nothing but numbers is numeric. -/
lemma isNumeric_onScalars {u : Value} (h : onScalars f v w = .ok u) : u.IsNumeric := by
  unfold onScalars at h
  split at h
  · exact isNumeric_ofScalar h
  · cases h

/-- Numeric values are no texts, tuples or lists, so their sum is one of numbers. -/
lemma add_isNumeric (hv : v.IsNumeric) : add v w = onScalars Scalar.add v w := by
  cases hv <;> rfl

/-- Their product is one of numbers as well. -/
lemma mul_isNumeric (hv : v.IsNumeric) (hw : w.IsNumeric) :
    mul v w = onScalars Scalar.mul v w := by
  cases hv <;> cases hw <;> rfl

/-- The operations of arithmetic give numeric values for numeric operands. -/
lemma isNumeric_binary {op : BinaryOp} {u : Value} (hop : op.isArithmetic) (hv : v.IsNumeric)
    (hw : w.IsNumeric) (h : binary op v w = .ok u) : u.IsNumeric := by
  cases op with
  | add => exact isNumeric_onScalars ((add_isNumeric hv).symm.trans h)
  | mul => exact isNumeric_onScalars ((mul_isNumeric hv hw).symm.trans h)
  | sub | div | floorDiv | mod | pow => exact isNumeric_onScalars h
  | _ => cases hop

/-- What a call gives is numeric. -/
lemma isNumeric_call {g : Value} {vs : List Value} (h : g.call vs = .ok v) : v.IsNumeric := by
  unfold call at h
  split at h
  · exact isNumeric_ofScalar h
  · cases h

/-- The built-in names have numeric values. -/
lemma isNumeric_builtin? {n : String} (h : builtin? n = some v) : v.IsNumeric := by
  unfold builtin? at h
  split at h
  · cases h
    exact .function _
  · split at h
    · cases h
      exact .scalar _
    · split at h <;> cases h
      exact .scalar _

end Value

/-! ### Expressions -/

namespace Expression

/--
That an expression is one of arithmetic: built from numerals and names by signs, by the operations
of arithmetic, and by calls with any number of arguments.
-/
inductive IsArithmetic : Expression → Prop
  | integer (n : Nat) : IsArithmetic (.integer n)
  | decimal (n : Nat) (i : Int) : IsArithmetic (.decimal n i)
  | imaginary (n : Nat) (i : Int) : IsArithmetic (.imaginary n i)
  | name (s : String) : IsArithmetic (.name s)
  | sign {op : UnaryOp} {e : Expression} : op.isSign → IsArithmetic e → IsArithmetic (.unary op e)
  | operation {op : BinaryOp} {a b : Expression} : op.isArithmetic → IsArithmetic a →
      IsArithmetic b → IsArithmetic (.binary op a b)
  | call {f : Expression} {args : List Expression} : IsArithmetic f →
      (∀ a ∈ args, IsArithmetic a) → IsArithmetic (.call f args)

variable {scope : Scope} {e t a b : Expression} {es : List Expression} {v : Value}

/-- What several expressions are built from is what one of them is built from. -/
lemma mem_subexpressionsOfAll : t ∈ subexpressionsOfAll es ↔ ∃ a ∈ es, t ∈ a.subexpressions := by
  induction es with
  | nil => simp [subexpressionsOfAll]
  | cons e es ih => simp [subexpressionsOfAll, ih]

/-- An operation of arithmetic evaluates both operands. -/
lemma eval_operation {op : BinaryOp} (hop : op.isArithmetic) :
    eval scope (.binary op a b) =
      (eval scope a >>= fun v => eval scope b >>= fun w => Value.binary op v w) := by
  cases op with
  | add | sub | mul | div | floorDiv | mod | pow => simp only [eval]
  | _ => cases hop

/-- If several expressions have values, each of them has one. -/
lemma eval_of_evalAll {vs : List Value} (h : evalAll scope es = .ok vs) (ha : a ∈ es) :
    ∃ v, a.eval scope = .ok v := by
  induction es generalizing vs with
  | nil => cases ha
  | cons e es ih =>
    rw [evalAll] at h
    obtain ⟨v, hv, h⟩ := bind_eq_ok.1 h
    obtain ⟨vs, hvs, -⟩ := bind_eq_ok.1 h
    obtain rfl | ha := List.mem_cons.1 ha
    · exact ⟨v, hv⟩
    · exact ih hvs ha

namespace IsArithmetic

/-- What an expression of arithmetic is built from is arithmetic. -/
lemma of_mem (he : e.IsArithmetic) (ht : t ∈ e.subexpressions) : t.IsArithmetic := by
  induction he with
  | integer | decimal | imaginary | name =>
    obtain rfl := List.mem_singleton.1 ht
    constructor
  | sign hop he ih =>
    obtain rfl | ht := List.mem_cons.1 ht
    · exact .sign hop he
    · exact ih ht
  | operation hop ha hb iha ihb =>
    obtain rfl | ht := List.mem_cons.1 ht
    · exact .operation hop ha hb
    · exact (List.mem_append.1 ht).elim iha ihb
  | call hf hargs ihf ihargs =>
    obtain rfl | ht := List.mem_cons.1 ht
    · exact .call hf hargs
    · obtain ht | ht := List.mem_append.1 ht
      · exact ihf ht
      · obtain ⟨a, ha, ht⟩ := mem_subexpressionsOfAll.1 ht
        exact ihargs a ha ht

/-- Where an expression of arithmetic has a value, all that it is built from has one. -/
lemma eval_subexpression (he : e.IsArithmetic) (hv : e.eval scope = .ok v)
    (ht : t ∈ e.subexpressions) : ∃ w, t.eval scope = .ok w := by
  induction he generalizing v with
  | integer | decimal | imaginary | name =>
    obtain rfl := List.mem_singleton.1 ht
    exact ⟨v, hv⟩
  | sign hop he ih =>
    obtain rfl | ht := List.mem_cons.1 ht
    · exact ⟨v, hv⟩
    · rw [eval] at hv
      obtain ⟨w, hw, -⟩ := bind_eq_ok.1 hv
      exact ih hw ht
  | operation hop ha hb iha ihb =>
    obtain rfl | ht := List.mem_cons.1 ht
    · exact ⟨v, hv⟩
    · rw [eval_operation hop] at hv
      obtain ⟨va, hva, hv⟩ := bind_eq_ok.1 hv
      obtain ⟨vb, hvb, -⟩ := bind_eq_ok.1 hv
      exact (List.mem_append.1 ht).elim (iha hva) (ihb hvb)
  | call hf hargs ihf ihargs =>
    obtain rfl | ht := List.mem_cons.1 ht
    · exact ⟨v, hv⟩
    · rw [eval] at hv
      obtain ⟨vf, hvf, hv⟩ := bind_eq_ok.1 hv
      obtain ⟨vs, hvs, -⟩ := bind_eq_ok.1 hv
      obtain ht | ht := List.mem_append.1 ht
      · exact ihf hvf ht
      · obtain ⟨a, ha, ht⟩ := mem_subexpressionsOfAll.1 ht
        obtain ⟨va, hva⟩ := eval_of_evalAll hvs ha
        exact ihargs a ha hva ht

/-- The value of an expression of arithmetic is a number or a function. -/
lemma isNumeric (he : e.IsArithmetic) (hv : e.eval scope = .ok v) : v.IsNumeric := by
  induction he generalizing v with
  | integer | decimal | imaginary =>
    rw [eval] at hv
    cases hv
    exact .scalar _
  | name s =>
    rw [eval, lookup] at hv
    split at hv
    · cases hv
      exact .scalar _
    · split at hv
      · rename_i hb
        cases hv
        exact Value.isNumeric_builtin? hb
      · cases hv
  | @sign op e hop he ih =>
    rw [eval] at hv
    obtain ⟨w, -, hv⟩ := bind_eq_ok.1 hv
    cases op with
    | plus | minus => exact Value.isNumeric_ofScalar hv
    | invert | not => cases hop
  | operation hop ha hb iha ihb =>
    rw [eval_operation hop] at hv
    obtain ⟨va, hva, hv⟩ := bind_eq_ok.1 hv
    obtain ⟨vb, hvb, hv⟩ := bind_eq_ok.1 hv
    exact Value.isNumeric_binary hop (iha hva) (ihb hvb) hv
  | call hf hargs ihf ihargs =>
    rw [eval] at hv
    obtain ⟨vf, -, hv⟩ := bind_eq_ok.1 hv
    obtain ⟨vs, -, hv⟩ := bind_eq_ok.1 hv
    exact Value.isNumeric_call hv

/-- Nothing interrupts an expression of arithmetic whose names have values. -/
lemma eval_ne_interrupted (he : e.IsArithmetic)
    (hscope : ∀ n ∈ e.freeNames, (scope.lookup n).isSome) {i : Interruption} :
    e.eval scope ≠ .error (.interrupted i) := by
  intro h
  have hcause := (eval_interrupted scope).1 _ _ h
  cases i with
  | noPart =>
    obtain ⟨e', s, hmem⟩ := hcause
    cases he.of_mem hmem
  | outOfRange =>
    obtain ⟨e', j, hmem⟩ := hcause
    cases he.of_mem hmem
  | unbound n =>
    obtain ⟨hn, hnone, hb⟩ := hcause
    have hsome := hscope n (mem_freeNames.2 ⟨name_mem_names n _ hn, hb⟩)
    simp [hnone] at hsome

end IsArithmetic

/--
That an expression divides by zero, combines a double with an integer beyond all doubles, or calls a
function with an argument outside of its domain or at which it is out of range.
-/
inductive Fails (scope : Scope) : Expression → Prop
  | zeroDivisor {op : BinaryOp} {a b : Expression} {w : Value} : op.divides →
      b.eval scope = .ok w → w.isTrue = false → Fails scope (.binary op a b)
  | tooLarge {op : BinaryOp} {a b : Expression} {s t : Scalar} : op.isArithmetic →
      a.eval scope = .ok (.scalar s) → b.eval scope = .ok (.scalar t) →
      s.toFloat = .error .overflow ∧ t.isInteger = false ∨
        s.isInteger = false ∧ t.toFloat = .error .overflow →
      Fails scope (.binary op a b)
  | function {f : Expression} {args : List Expression} {g : Formula.Function} {r : Float → Float}
      {s : Scalar} {x : Float} : f.eval scope = .ok (.function g) → g.onDoubles? = some r →
      evalAll scope args = .ok [.scalar s] → s.toFloat = .ok x →
      (r x).isNaN ∧ ¬ x.isNaN ∨ (r x).isInf ∧ x.isFinite → Fails scope (.call f args)
  | logarithm {f : Expression} {args : List Expression} {g : Formula.Function} {s : Scalar} :
      f.eval scope = .ok (.function g) → g = .log ∨ g = .ln → evalAll scope args = .ok [.scalar s] →
      s.isNonPositive → Fails scope (.call f args)

/-- An expression that fails has no value. -/
lemma Fails.eval_ne_ok (h : Fails scope t) : t.eval scope ≠ .ok v := by
  intro hv
  cases h with
  | zeroDivisor hop hb hw =>
    rw [eval_operation (BinaryOp.isArithmetic_of_divides hop)] at hv
    obtain ⟨va, -, hv⟩ := bind_eq_ok.1 hv
    obtain ⟨vb, hvb, hv⟩ := bind_eq_ok.1 hv
    rw [hb] at hvb
    cases hvb
    obtain ⟨u, hu⟩ := Value.binary_zero (v := va) hop hw
    rw [hu] at hv
    cases hv
  | tooLarge hop ha hb h =>
    rw [eval_operation hop, ha, hb] at hv
    obtain ⟨u, hu⟩ := Value.binary_tooLarge hop h
    exact absurd (hu.symm.trans hv) nofun
  | function hf hg hargs hx h =>
    rw [eval, hf, hargs] at hv
    obtain ⟨u, hu⟩ := Value.call_undefined (Formula.Function.apply_undefined hg hx h)
    exact absurd (hu.symm.trans hv) nofun
  | logarithm hf hg hargs hs =>
    rw [eval, hf, hargs] at hv
    obtain ⟨u, hu⟩ := Value.call_undefined (Formula.Function.apply_logarithm hg hs)
    exact absurd (hu.symm.trans hv) nofun

/--
An expression of arithmetic whose names have values has a double for a value. It is no number
exactly if something in the expression is undefined, or else the whole is not real; so it is
wherever something in it fails.
-/
theorem value_arithmetic (he : e.IsArithmetic)
    (hscope : ∀ n ∈ e.freeNames, (scope.lookup n).isSome) :
    ∃ x, e.value scope = .ok x ∧
      (x.isNaN ↔
        (∃ t ∈ e.subexpressions, ∃ u, t.eval scope = .error (.undefined u)) ∨
          ∃ v, e.eval scope = .ok v ∧ v.NotReal) ∧
      ((∃ t ∈ e.subexpressions, Fails scope t) → x.isNaN) := by
  cases hv : e.eval scope with
  | ok v =>
    have hnan := Value.isNaN_toFloat (he.isNumeric hv)
    refine ⟨v.toFloat, by rw [value, hv], ⟨fun h => .inr ⟨v, rfl, hnan.1 h⟩, ?_⟩, ?_⟩
    · rintro (⟨t, ht, u, hu⟩ | ⟨v', hv', hreal⟩)
      · obtain ⟨w, hw⟩ := he.eval_subexpression hv ht
        rw [hu] at hw
        cases hw
      · cases hv'
        exact hnan.2 hreal
    · rintro ⟨t, ht, hfails⟩
      obtain ⟨w, hw⟩ := he.eval_subexpression hv ht
      exact absurd hw hfails.eval_ne_ok
  | error err =>
    cases err with
    | undefined u =>
      refine ⟨0.0 / 0.0, by rw [value, hv], ⟨fun _ => ?_, fun _ => Value.isNaN_nan⟩,
        fun _ => Value.isNaN_nan⟩
      exact .inl ⟨e, mem_subexpressions e, u, hv⟩
    | interrupted i => exact absurd hv (he.eval_ne_interrupted hscope)

/-- The divisor of `1 / (x - x)` is zero at 2, and so the value is no number. -/
theorem value_arithmetic_quotient : ∃ e y,
    Expression.compile "1 / (x - x)".toList = .ok e ∧ e.value [("x", 2.0)] = .ok y ∧ y.isNaN := by
  let scope : Scope := [("x", 2.0)]
  let e : Expression := .binary .div (.integer 1) (.binary .sub (.name "x") (.name "x"))
  have he : e.IsArithmetic := .operation rfl (.integer 1) (.operation rfl (.name "x") (.name "x"))
  have hscope : ∀ n ∈ e.freeNames, (scope.lookup n).isSome := by decide +kernel
  have hzero : (Value.scalar (.real (2.0 - 2.0))).isTrue = false := by decide +kernel
  obtain ⟨y, hy, -, hnan⟩ := value_arithmetic he hscope
  refine ⟨e, y, by decide +kernel, hy, hnan ⟨e, mem_subexpressions e, ?_⟩⟩
  exact .zeroDivisor rfl rfl hzero

end Expression
end Formulary
