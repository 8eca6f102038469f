import Formulary.ClosedForm.Combination
import Formulary.Expression.Scalar

/-!
# Evaluating combinations

The numeric value of a combination at a point, on principal branches: a root or a logarithm of a
negative number is complex. Kernels are evaluated in the order of the tower, so that each one finds
the values of its parts. `specialize` puts numbers for the constant kernels of a combination.
-/

namespace Formulary.ClosedForm

open Formulary.Formula Formulary.Number

/-- A complex number by its real and imaginary parts. -/
abbrev ComplexFloat := Float × Float

namespace ComplexFloat

/-- What is no number. -/
def undefined : ComplexFloat := (0.0 / 0.0, 0.0 / 0.0)

/-- A real number. -/
def ofReal (x : Float) : ComplexFloat := (x, 0.0)

/-- The modulus of a complex number. -/
def modulus (z : ComplexFloat) : Float := vectorLength z.1 z.2

/-- The principal value of the logarithm. -/
def log (z : ComplexFloat) : ComplexFloat :=
  if z.2 == 0 && z.1 > 0 then ofReal z.1.log else (z.modulus.log, Float.atan2 z.2 z.1)

/-- The exponential. -/
def exp (z : ComplexFloat) : ComplexFloat :=
  if z.2 == 0 then ofReal z.1.exp else (z.1.exp * z.2.cos, z.1.exp * z.2.sin)

/-- The principal value of a power with a rational exponent. -/
def pow (z : ComplexFloat) (r : Rat) : ComplexFloat :=
  if z.2 == 0 && (z.1 > 0 || r.den == 1) then ofReal (z.1.pow (floatOfRat r))
  else if z.1 == 0 && z.2 == 0 then if 0 < r then ofReal 0.0 else undefined
  else exp (Scalar.mulParts (ofReal (floatOfRat r)) (log z))

/-- The principal value of a power. -/
def complexPow (z w : ComplexFloat) : ComplexFloat := exp (Scalar.mulParts w (log z))

/-- A real function; it is undefined at other complex numbers. -/
def onReal (f : Float → Float) (z : ComplexFloat) : ComplexFloat :=
  if z.2 == 0 then ofReal (f z.1) else undefined

end ComplexFloat

/-- The value of a function. -/
def functionValue (f : Function) (args : List ComplexFloat) : ComplexFloat :=
  match f, args with
  | .sin, [z] => z.onReal Float.sin
  | .cos, [z] => z.onReal Float.cos
  | .tan, [z] => z.onReal Float.tan
  | .asin, [z] => z.onReal Float.asin
  | .acos, [z] => z.onReal Float.acos
  | .atan, [z] => z.onReal Float.atan
  | .abs, [z] => .ofReal z.modulus
  | .log, [z] | .ln, [z] => z.log
  | .exp, [z] => z.exp
  | .sqrt, [z] => z.pow (1 / 2)
  | .atan2, [(y, v), (x, w)] => if v == 0 && w == 0 then .ofReal (Float.atan2 y x) else .undefined
  | _, _ => .undefined

/-- The value of a monomial, given the values of the kernels. -/
def monomialValue (values : Array ComplexFloat) (m : Monomial) : ComplexFloat :=
  m.foldl (fun z (i, r) => Scalar.mulParts z ((values.getD i .undefined).pow r))
    (ComplexFloat.ofReal 1.0)

/-- The values of the terms of a combination, given the values of the kernels. -/
def termValues (values : Array ComplexFloat) (c : Combination) : List ComplexFloat :=
  c.map fun (m, a) => Scalar.mulParts (ComplexFloat.ofReal (floatOfRat a)) (monomialValue values m)

/-- The sum of complex numbers. -/
def total (zs : List ComplexFloat) : ComplexFloat :=
  zs.foldl (fun z w => (z.1 + w.1, z.2 + w.2)) (ComplexFloat.ofReal 0.0)

/-- The value of a combination, given the values of the kernels. -/
def combinationValue (values : Array ComplexFloat) (c : Combination) : ComplexFloat :=
  total (termValues values c)

/-- The value of a kernel, given the values of the earlier ones and of the symbols. -/
def kernelValue (symbol : String → ComplexFloat) (values : Array ComplexFloat) :
    Kernel → ComplexFloat
  | .symbol s => symbol s
  | .pi => .ofReal 3.141592653589793
  | .e => .ofReal 2.718281828459045
  | .number q => .ofReal (floatOfRat q)
  | .group c => combinationValue values c
  | .apply f args => functionValue f (args.map (combinationValue values))
  | .power base m => (values.getD base .undefined).complexPow (monomialValue values m)

/-- The values of all kernels. -/
def kernelValues (t : Tower) (symbol : String → ComplexFloat) : Array ComplexFloat :=
  t.foldl (fun values k => values.push (kernelValue symbol values k)) #[]

/-- The values of all kernels with a number for one symbol; other symbols have none. -/
def valuesAt (t : Tower) (name : String) (x : Float) : Array ComplexFloat :=
  kernelValues t fun s => if s = name then .ofReal x else .undefined

/-- The values of the kernels without symbols. -/
def constantValues (t : Tower) : Array ComplexFloat := kernelValues t fun _ => .undefined

/-- The real number that a complex one is. -/
def ComplexFloat.real? (z : ComplexFloat) : Option Float :=
  if z.2 == 0 && !z.1.isNaN then some z.1 else none

/-- A monomial taken apart into its constant factors and the others. -/
def splitConstant (symbolic : Array Bool) (m : Monomial) : Monomial × Monomial :=
  m.partition fun (i, _) => !symbolic.getD i true

/-- A combination with numbers for its constant kernels, if all of them give real numbers. -/
def specialize (t : Tower) (c : Combination) : Option Combination :=
  let symbolic := t.symbolic
  let values := constantValues t
  c.foldlM (fun sum (m, a) => do
    match splitConstant symbolic m with
    | ([], m) => return Combination.insert m a sum
    | (constants, m) =>
      let x ← (monomialValue values constants).real?
      let q ← exactValue? x
      return Combination.insert m (a * q) sum) []

end Formulary.ClosedForm
