import Formulary.Failure

/-!
# Traces

A trace records, step by step, how a request was answered.
-/

namespace Formulary

/-- The ways to a closed form, in the order in which they are tried. -/
inductive Strategy where
  | linear | quadratic | generic
  deriving Repr, DecidableEq

/-- The name of a strategy. -/
def Strategy.name : Strategy → String
  | .linear => "linear"
  | .quadratic => "quadratic"
  | .generic => "generic"

/-- Why there is no closed form. -/
inductive NoClosedForm where
  | absentUnknown
  | notFound
  | notAnEquation (e : Formula.NotAnEquation)
  | unreadable

/-- What is recorded of a missing closed form. -/
def NoClosedForm.message : NoClosedForm → String
  | .absentUnknown => "unknown not in formula"
  | .notFound => "no closed form"
  | .notAnEquation e => e.message
  | .unreadable => "not parsed"

/-- A step of a solution. -/
inductive Step where
  | inputs (equation formula unknown : String) (bindings : List (String × Float))
  | canonical (formula : String)
  | cacheHit (value : Float)
  | simplified
  | closedForm (strategy : Strategy) (value : Float)
  | noClosedForm (reason : NoClosedForm)
  | descentFailed (guess : Float)
  | found (outcome : Numeric.Outcome Float)

/-- The steps of a solution, the first one first. -/
abbrev Trace := List Step

end Formulary
