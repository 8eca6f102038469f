import Formulary.Numeric.Arithmetic

/-!
# Coefficients

A polynomial in one unknown is given by its coefficients, the constant one first. The operations
follow the lists; `trim` drops the zeros at the end, so that what is left of a list tells the
degree.
-/

namespace Formulary.ClosedForm

open Arithmetic

/-- The coefficients of a polynomial, the constant one first. -/
abbrev Coefficients (α : Type) := List α

namespace Coefficients

variable {α : Type} [Arithmetic α]

/-- The sum of two polynomials. -/
def add : Coefficients α → Coefficients α → Coefficients α
  | [], q => q
  | p, [] => p
  | a :: p, b :: q => Arithmetic.add a b :: add p q

/-- A polynomial times a number. -/
def scale (c : α) (p : Coefficients α) : Coefficients α := p.map (Arithmetic.mul c)

/-- A polynomial with the opposite sign. -/
def neg (p : Coefficients α) : Coefficients α := p.map Arithmetic.neg

/-- The difference of two polynomials. -/
def sub (p q : Coefficients α) : Coefficients α := add p (neg q)

/-- The product of two polynomials. -/
def mul : Coefficients α → Coefficients α → Coefficients α
  | [], _ => []
  | a :: p, q => add (scale a q) (zero :: mul p q)

/-- A natural power of a polynomial. -/
def pow (p : Coefficients α) : Nat → Coefficients α
  | 0 => [one]
  | n + 1 => mul p (pow p n)

/-- A polynomial without zeros at the end. -/
def trim : Coefficients α → Coefficients α
  | [] => []
  | a :: p =>
    match trim p with
    | [] => if eq a zero then [] else [a]
    | p => a :: p

/-- The value of a polynomial at a point. -/
def value (p : Coefficients α) (x : α) : α :=
  p.foldr (fun a v => Arithmetic.add a (Arithmetic.mul x v)) zero

/-- The derivative of a polynomial whose first coefficient belongs to the power `n`. -/
def derivativeFrom (n : Nat) : Coefficients α → Coefficients α
  | [] => []
  | a :: p => Arithmetic.mul (ofRat n) a :: derivativeFrom (n + 1) p

/-- The derivative of a polynomial. -/
def derivative (p : Coefficients α) : Coefficients α := derivativeFrom 1 p.tail

/-- The coefficient of the highest power of a trimmed polynomial. -/
def leading (p : Coefficients α) : α := p.getLastD zero

/-- A polynomial times a power of the unknown. -/
def shift (n : Nat) (p : Coefficients α) : Coefficients α := List.replicate n zero ++ p

/-- The quotient and the remainder of two trimmed polynomials, the divisor not being zero. -/
def divide (fuel : Nat) (p q : Coefficients α) : Coefficients α × Coefficients α :=
  match fuel with
  | 0 => ([], p)
  | fuel + 1 =>
    if p.length < q.length then ([], p) else
      let c := div (leading p) (leading q)
      let n := p.length - q.length
      -- The leading terms cancel.
      let (quotient, rest) := divide fuel (trim (sub p (shift n (scale c q))).dropLast) q
      (add (shift n [c]) quotient, rest)

/-- The quotient of two trimmed polynomials. -/
def quotient (p q : Coefficients α) : Coefficients α := (divide p.length p q).1

/-- The remainder of a division of two trimmed polynomials. -/
def remainder (p q : Coefficients α) : Coefficients α := (divide p.length p q).2

/-- A polynomial divided by its leading coefficient. -/
def monic (p : Coefficients α) : Coefficients α := p.map fun a => div a (leading p)

/-- The monic greatest common divisor of two trimmed polynomials. -/
def gcdFuel (fuel : Nat) (p q : Coefficients α) : Coefficients α :=
  match fuel, q with
  | 0, _ | _, [] => monic p
  | fuel + 1, q => gcdFuel fuel q (remainder p q)

/-- The monic greatest common divisor of two trimmed polynomials. -/
def gcd (p q : Coefficients α) : Coefficients α := gcdFuel (p.length + q.length) p q

end Coefficients
end Formulary.ClosedForm
