import Formulary.ClosedForm.Terms

/-!
# Polynomial expressions

Polynomial expressions are built from numbers and the unknown with sums, differences, products and
natural powers. `expand` multiplies them out to coefficients, which are those of the expression as
a function (`value`). `terms` is the sum that is left, with like terms put together.
-/

namespace Formulary.ClosedForm

open Arithmetic

/-- Polynomial expressions in one unknown. -/
inductive Polynomial (α : Type) where
  | number (c : α)
  | unknown
  | add (p q : Polynomial α)
  | sub (p q : Polynomial α)
  | mul (p q : Polynomial α)
  | pow (p : Polynomial α) (n : Nat)
  deriving Repr

namespace Polynomial

variable {α : Type}

/-- A natural power of a number, by repeated multiplication. -/
def powNat [Arithmetic α] (c : α) : Nat → α
  | 0 => one
  | n + 1 => Arithmetic.mul c (powNat c n)

/-- The value of a polynomial expression at a point. -/
def value [Arithmetic α] (x : α) : Polynomial α → α
  | .number c => c
  | .unknown => x
  | .add p q => Arithmetic.add (p.value x) (q.value x)
  | .sub p q => Arithmetic.sub (p.value x) (q.value x)
  | .mul p q => Arithmetic.mul (p.value x) (q.value x)
  | .pow p n => powNat (p.value x) n

/-- The coefficients of a polynomial expression. -/
def expand [Arithmetic α] : Polynomial α → Coefficients α
  | .number c => [c]
  | .unknown => [zero, one]
  | .add p q => Coefficients.add p.expand q.expand
  | .sub p q => Coefficients.sub p.expand q.expand
  | .mul p q => Coefficients.mul p.expand q.expand
  | .pow p n => Coefficients.pow p.expand n

/-- The coefficients of a polynomial expression up to the highest that is not zero. -/
def coefficients [Arithmetic α] (p : Polynomial α) : Coefficients α := Coefficients.trim p.expand

/-- The terms of a polynomial expression, one for each power that it has; zero is a term by itself. -/
def terms [Arithmetic α] (p : Polynomial α) : List (Term α) :=
  match p.coefficients.zipIdx.filter fun (c, _) => !eq c zero with
  | [] => [⟨some zero, none⟩]
  | ts => ts.map fun (c, d) => ⟨some c, some d⟩

/-- The chosen root of an equation of degree two, if it has real roots. -/
def quadraticRoot? [RadicalArithmetic α] (p : Polynomial α) : Option α :=
  ((collect 2 p.terms).toOption.bind id).bind Coefficients.quadraticRoot?

end Polynomial
end Formulary.ClosedForm
