import Formulary.ClosedForm.Attempt
import Formulary.ClosedForm.Terms

/-!
# Strategies

A formula is read with values put in for its symbols, and the equation is simplified. Then three
strategies look for a closed form of the unknown: the first two take the equation as a polynomial of
degree one or two, the third one takes any equation whose roots can be found. What simplifying,
multiplying out and finding roots come to is left open here: a `Simplifier` says it.
-/

namespace Formulary.ClosedForm

/--
What reads a formula with values put in and simplifies it, shows how it appears as a polynomial, and
finds its roots.
-/
structure Simplifier where
  Reading : Type
  read : String → List (String × Float) → String → Except NoClosedForm Reading
  appearance : Reading → Appearance Float
  roots : Reading → Except StrategyFault (List Float)

namespace Simplifier

variable (S : Simplifier)

/-- What a strategy finds. -/
def root (e : S.Reading) : Strategy → Except StrategyFault (Option Float)
  | .linear => (S.appearance e).linear
  | .quadratic => (S.appearance e).quadratic
  | .generic => do return leastNonNegative ((← S.roots e).filter Float.isFinite)

/-- The attempt at a closed form for the unknown of a formula, with known values put in. -/
def closedForm (formula : String) (bindings : List (String × Float)) (unknown : String) : Report :=
  attempt (S.read formula bindings unknown) ([Strategy.linear, .quadratic, .generic].map fun s =>
    (s, fun e => ((S.root e s).toOption).bind fun r => r))

end Simplifier
end Formulary.ClosedForm
