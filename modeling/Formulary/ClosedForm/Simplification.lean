import Formulary.ClosedForm.Polynomial
import Formulary.ClosedForm.Reading
import Formulary.ClosedForm.Roots
import Formulary.ClosedForm.Strategies

/-!
# Simplified equations

An equation between combinations appears to the strategies for polynomials by the polynomial
expression that it amounts to (`Equated.appearance`); its roots are those of its family
(`Equated.roots`). `closedForm` is the attempt that simplifies equations in this way.
-/

namespace Formulary.ClosedForm

open Formulary.Number

/-- The number that a term has for a coefficient, besides its factors with symbols. -/
def realCoefficient (symbolic : Array Bool) (values : Array ComplexFloat) (t : Monomial × Rat) :
    Option Float := do
  let x ← (monomialValue values (splitConstant symbolic t.1).1).real?
  return floatOfRat t.2 * x

mutual

/--
A combination as a polynomial expression in the unknown: nothing if it has terms of another shape,
and a fault if a coefficient is no number. The fuel bounds how deep parentheses are nested.
-/
def asPolynomial (t : Tower) (name : String) : (fuel : Nat) → Combination →
    Except StrategyFault (Option (Polynomial Float))
  | 0, _ => .ok none
  | fuel + 1, c => do
    let depends := t.dependsOn name
    let symbolic := t.symbolic
    let values := constantValues t
    let shapes ← c.mapM fun (m, _) =>
      asProduct t name fuel (m.filter fun (i, _) => depends.getD i false)
    match shapes.mapM (fun s => s) with
    | none => return none
    | some shapes =>
      let foreign := c.any fun (m, _) =>
        m.any fun (i, _) => symbolic.getD i true && !depends.getD i false
      match c.mapM (realCoefficient symbolic values) with
      | none => throw .notNumeric
      | some coefficients =>
        if foreign then throw .notNumeric
        return some ((coefficients.zip shapes).foldl (fun sum (a, p) =>
          if a < 0 then .sub sum (.mul (.number (-a)) p)
          else .add sum (.mul (.number a) p)) (.number 0.0))

/-- A product of powers as a polynomial expression in the unknown. -/
def asProduct (t : Tower) (name : String) : (fuel : Nat) → Monomial →
    Except StrategyFault (Option (Polynomial Float))
  | 0, _ => .ok none
  | fuel + 1, m =>
    m.foldlM (fun product (i, r) => do
      let base ←
        match t[i]? with
        | some (.symbol s) => pure (if s = name then some Polynomial.unknown else none)
        | some (.group c) => asPolynomial t name fuel c
        | _ => pure none
      match product, base with
      | some p, some q =>
        return if r.den = 1 ∧ 0 ≤ r.num ∧ r.num.natAbs ≤ maxExpansion then
          some (.mul p (.pow q r.num.natAbs)) else none
      | _, _ => return none) (some (.number 1.0))

end

/-- Whether the unknown stands in a power or in a function. -/
def isNonlinear (t : Tower) (name : String) : (fuel : Nat) → Combination → Bool
  | 0, _ => true
  | fuel + 1, c =>
    let depends := t.dependsOn name
    c.any fun (m, _) => m.any fun (i, r) =>
      depends.getD i false &&
        match t[i]? with
        | some (.symbol _) => r != 1
        | some (.group d) => r != 1 || isNonlinear t name fuel d
        | _ => true

namespace Equated

/-- Whether the unknown is left in the residual. -/
def hasUnknown (e : Equated) : Bool :=
  e.residual.any fun c => Tower.occurs (e.tower.dependsOn e.unknown) c

/-- Whether the unknown has a measured exponent, so that the residual is no polynomial. -/
def hasMeasuredPower (e : Equated) : Bool :=
  e.bases.any (Tower.occurs (e.tower.dependsOn e.unknown))

/-- The residual as a polynomial expression. -/
def polynomial (e : Equated) : Except StrategyFault (Option (Polynomial Float)) :=
  match e.residual with
  | none => .error .notNumeric
  | some c =>
    if e.hasMeasuredPower then .ok none else asPolynomial e.tower e.unknown e.tower.depth c

/-- What the strategies for polynomials see of the equation. -/
def appearance (e : Equated) : Appearance Float where
  hasUnknown := e.residual.isNone || e.hasUnknown
  isNonlinear := e.residual.any (isNonlinear e.tower e.unknown e.tower.depth)
  terms :=
    match e.polynomial with
    | .error _ => [⟨none, some 0⟩]
    | .ok none => [⟨some 1.0, none⟩]
    | .ok (some p) => p.terms

/-- The real roots of an equation of any family, as doubles. -/
def roots (e : Equated) : Except StrategyFault (List Float) :=
  match e.residual with
  | none => .ok []
  | some c =>
    match ((Roots.ofCombination e.unknown (3 * e.tower.depth) c).run e.tower).1 with
    | none => .error .unsolved
    | some roots => .ok (roots.map floatOfRat)

/-- An equation with its residual simplified. -/
def simplify (e : Equated) : Equated :=
  match e.residual with
  | none => e
  | some c =>
    let (c, t) := c.simplified.run e.tower
    { e with residual := c, tower := t }

end Equated

/-- Why a closed form is not looked for. -/
def ReadFault.reason : ReadFault → NoClosedForm
  | .notAnEquation e => .notAnEquation e
  | _ => .unreadable

/-- The simplifier of equations between combinations. -/
def simplifier : Simplifier where
  Reading := Equated
  read formula bindings unknown :=
    match readFormula formula bindings unknown with
    | .error f => .error f.reason
    | .ok none => .error .absentUnknown
    | .ok (some e) => .ok e.simplify
  appearance := Equated.appearance
  roots := Equated.roots

/-- The attempt at a closed form for the unknown of a formula, with known values put in. -/
def closedForm : (formula : String) → (bindings : List (String × Float)) → (unknown : String) →
    Report :=
  simplifier.closedForm

end Formulary.ClosedForm
