import Formulary.Expression.Scalar
import Formulary.Formula.Names

/-!
# Functions on numbers

What the functions of formulas compute on doubles, with the arguments for which they are undefined.
The logarithm is natural, takes integers of any size, and takes a base as a second argument.
-/

namespace Formulary

open Formulary.Number

/--
The value of a real function at a double. A result that is no number although the argument is one
means that the argument lies outside of the domain, and an infinite result of a finite argument is
out of range.
-/
def realFunction (f : Float → Float) (x : Float) : Except Undefined Float :=
  let y := f x
  if y.isNaN && !x.isNaN then .error .domain
  else if y.isInf && x.isFinite then .error .overflow
  else .ok y

/-- The natural logarithm of a double. -/
def logFloat (x : Float) : Except Undefined Float :=
  if x.isNaN then .ok x else if x > 0 then .ok x.log else .error .domain

/--
A positive integer as `x · 2 ^ e` with `x` at least a half and below one, rounded to a double.
-/
def binaryParts (n : Nat) : Float × Nat :=
  let e := n.log2 + 1
  let x := nearestFloat false n (Nat.pow 2 e)
  if x == 1.0 then (0.5, e + 1) else (x, e)

/-- The natural logarithm of a real number; integers beyond all doubles are taken apart first. -/
def logScalar : Scalar → Except Undefined Float
  | .integer n =>
    if n ≤ 0 then .error .domain
    else match floatOfInt? n with
      | some x => logFloat x
      | none =>
        let (x, e) := binaryParts n.toNat
        .ok (x.log + Float.log 2.0 * nearestFloat false e 1)
  | .real x => logFloat x
  | .complex _ _ => .error .operands

namespace Formula.Function

/-- The value of a function of formulas at its arguments. -/
def apply : Function → List Scalar → Except Undefined Scalar
  | .abs, [x] => x.abs
  | .atan2, [y, x] => return .real (Float.atan2 (← y.toFloat) (← x.toFloat))
  | .log, [x] | .ln, [x] => return .real (← logScalar x)
  | .log, [x, b] | .ln, [x, b] => do
    let numerator ← logScalar x
    let denominator ← logScalar b
    if denominator == 0 then .error .divisionByZero else .ok (.real (numerator / denominator))
  | .sin, [x] => return .real (← realFunction Float.sin (← x.toFloat))
  | .cos, [x] => return .real (← realFunction Float.cos (← x.toFloat))
  | .tan, [x] => return .real (← realFunction Float.tan (← x.toFloat))
  | .asin, [x] => return .real (← realFunction Float.asin (← x.toFloat))
  | .acos, [x] => return .real (← realFunction Float.acos (← x.toFloat))
  | .atan, [x] => return .real (← realFunction Float.atan (← x.toFloat))
  | .sqrt, [x] => return .real (← realFunction Float.sqrt (← x.toFloat))
  | .exp, [x] => return .real (← realFunction Float.exp (← x.toFloat))
  | _, _ => .error .operands

end Formula.Function
end Formulary
