import Mathlib
import Formulary.Expression.Eval

/-!
# Scopes that bind the same values

An expression reads its scope only by looking names up, so that scopes with the same look-ups give
it the same value (`eval_congr`).
-/

namespace Formulary.Expression

variable {scope scope' : Scope}

/-- Where names have the same values, expressions have. -/
theorem eval_congr (h : ∀ n, scope.lookup n = scope'.lookup n) :
    (∀ e, eval scope e = eval scope' e) ∧ ∀ es, evalAll scope es = evalAll scope' es := by
  apply eval.mutual_induct
  case case8 =>
    intro s
    simp only [eval, lookup, h]
  all_goals
    intros
    simp only [eval, evalAll, *]

/-- The value of an expression depends only on what its scope finds. -/
lemma value_congr (h : ∀ n, scope.lookup n = scope'.lookup n) (e : Expression) :
    e.value scope = e.value scope' := by
  rw [value, value, (eval_congr h).1 e]

end Formulary.Expression
