import Formulary.Trace

/-!
# An attempt at a closed form

A formula is read as a symbolic expression and simplified; then the strategies are tried in order,
and the first finite value is the answer. What reading and the strategies do is left open here.
-/

namespace Formulary.ClosedForm

/-- The steps of an attempt and its value, if it has one. -/
structure Report where
  trace : Trace
  value : Option Float

/-- Tries strategies in order until one has a finite value. -/
def tryStrategies {E : Type} (e : E) : List (Strategy × (E → Option Float)) → Report
  | [] => ⟨[.noClosedForm .notFound], none⟩
  | (s, solve) :: rest =>
    match solve e with
    | some v => if v.isFinite then ⟨[.closedForm s v], some v⟩ else tryStrategies e rest
    | none => tryStrategies e rest

/-- An attempt on what was read: the reason why nothing was, or a simplified expression. -/
def attempt {E : Type} (read : Except NoClosedForm E)
    (strategies : List (Strategy × (E → Option Float))) : Report :=
  match read with
  | .error reason => ⟨[.noClosedForm reason], none⟩
  | .ok e =>
    let r := tryStrategies e strategies
    { r with trace := .simplified :: r.trace }

end Formulary.ClosedForm
