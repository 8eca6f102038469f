import Formulary.ClosedForm.Coefficients
import Formulary.ClosedForm.RootChoice

/-!
# Terms

An expression that is multiplied out is a sum of terms, each of them a coefficient times something
that depends on the unknown. Two strategies take the equation as a polynomial of degree one or two:
they sum the coefficients of each power (`collect`) and work out a root from the sums
(`Coefficients.linearRoot?`, `Coefficients.quadraticRoot?`). The first of them applies only where the
unknown stands in no power and in no function to begin with. All that they ask about an equation is
in its `Appearance`.
-/

namespace Formulary.ClosedForm

open Arithmetic

variable {α : Type}

/-- Why a strategy ends without saying whether there is a root. -/
inductive StrategyFault where
  /-- a coefficient that is no real number -/
  | notNumeric
  /-- an equation of no known family -/
  | unsolved
  deriving Repr, DecidableEq

/-- A term: its coefficient, if that is a number, and the power of the unknown, if it has one. -/
structure Term (α : Type) where
  coefficient? : Option α
  power? : Option Nat
  deriving Repr

/-- Sums of coefficients, with those of more terms; nothing if a term has no power or a higher one. -/
def collectFrom [Arithmetic α] (sums : Coefficients α) :
    List (Term α) → Except StrategyFault (Option (Coefficients α))
  | [] => .ok (some sums)
  | t :: ts =>
    match t.power?.filter fun d => d < sums.length with
    | none => .ok none
    | some d =>
      match t.coefficient? with
      | none => .error .notNumeric
      | some c => collectFrom (sums.modify d fun sum => Arithmetic.add sum c) ts

/-- The sums of the coefficients in all powers up to the `n`-th, if there are no other terms. -/
def collect [Arithmetic α] (n : Nat) (terms : List (Term α)) :
    Except StrategyFault (Option (Coefficients α)) :=
  collectFrom (List.replicate (n + 1) zero) terms

namespace Coefficients

/-- The root of an equation of degree one. -/
def linearRoot? [Arithmetic α] : Coefficients α → Option α
  | [b, a] => if eq a zero then none else some (div (Arithmetic.neg b) a)
  | _ => none

/-- The chosen root of an equation of degree two, if it has real roots. -/
def quadraticRoot? [RadicalArithmetic α] : Coefficients α → Option α
  | [c, b, a] =>
    if eq a zero then none else
      let discriminant :=
        Arithmetic.sub (Arithmetic.mul b b) (Arithmetic.mul (Arithmetic.mul (ofRat 4) a) c)
      if lt discriminant zero then none else
        let s := RadicalArithmetic.sqrt discriminant
        let d := Arithmetic.mul (ofRat 2) a
        onlyNonNegative
          [div (Arithmetic.add (Arithmetic.neg b) s) d, div (Arithmetic.sub (Arithmetic.neg b) s) d]
  | _ => none

end Coefficients

/--
What the strategies for polynomials ask about an equation: whether the unknown is in it, whether it
stands in a power or in a function there, and the terms when it is multiplied out.
-/
structure Appearance (α : Type) where
  hasUnknown : Bool
  isNonlinear : Bool
  terms : List (Term α)

namespace Appearance

/-- The root of an equation that is linear as it stands. -/
def linear [Arithmetic α] (e : Appearance α) : Except StrategyFault (Option α) := do
  if !e.hasUnknown || e.isNonlinear then return none
  return (← collect 1 e.terms).bind Coefficients.linearRoot?

/-- The chosen root of an equation that is quadratic when multiplied out. -/
def quadratic [RadicalArithmetic α] (e : Appearance α) : Except StrategyFault (Option α) := do
  return (← collect 2 e.terms).bind Coefficients.quadraticRoot?

end Appearance
end Formulary.ClosedForm
