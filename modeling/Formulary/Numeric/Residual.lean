import Formulary.Expression.Eval
import Formulary.Formula.Alias
import Formulary.Formula.Sides

/-!
# The residual of an equation

The residual of a formula is the difference of its two sides as a function of the unknown, with all
other symbols bound to values. It is built once (`Residual.build`) and then evaluated at any number
of points.
-/

namespace Formulary.Numeric

open Formulary.Formula

/-- Why a formula has no residual. -/
inductive ResidualError where
  | notAnEquation (e : NotAnEquation)
  | absentUnknown
  | doubleUnderscore
  | malformed
  | unbound (names : List String)

/-- The difference of two sides with all symbols but one bound. -/
structure Residual where
  expression : Expression
  unknown : String
  scope : Expression.Scope

namespace Residual

/-- The value of a residual at a point. -/
def valueAt (r : Residual) (x : Float) : Except Interruption Float :=
  r.expression.value ((r.unknown, x) :: r.scope)

/-- The residual of a formula as a function of one symbol. -/
def build (formula : String) (bindings : List (String × Float)) (unknown : String) :
    Except ResidualError Residual := do
  let text ←
    match residual formula.toList with
    | .ok text => pure text
    | .error e => throw (.notAnEquation e)
  let (text, aliases) := aliased text
  match aliases.lookup unknown with
  | none => throw .absentUnknown
  | some x =>
    let expression ←
      match Expression.compile text with
      | .ok e => pure e
      | .error .doubleUnderscore => throw .doubleUnderscore
      | .error .malformed => throw .malformed
    let scope := bindings.filterMap fun (name, v) => (aliases.lookup name).map (·, v)
    let unbound := expression.freeNames.filter fun n =>
      n != x && (scope.lookup n).isNone
    if unbound.isEmpty then return ⟨expression, x, scope⟩
    else
      let names := unbound.map fun n => (aliases.symbolOf? n).getD n
      throw (.unbound (names.mergeSort fun a b => a ≤ b))

/--
What is built if the compiler runs out of resources on some texts; it is not asked before the unknown
is found.
-/
def buildWithin (givesUp : List Char → Bool) (formula : String) (bindings : List (String × Float))
    (unknown : String) : Option (Except ResidualError Residual) :=
  match residual formula.toList with
  | .error _ => some (build formula bindings unknown)
  | .ok text =>
    let (text, aliases) := aliased text
    if (aliases.lookup unknown).isSome && (Expression.compileWithin givesUp text).isNone then none
    else some (build formula bindings unknown)

end Residual
end Formulary.Numeric
