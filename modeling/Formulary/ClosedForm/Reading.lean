import Formulary.ClosedForm.Construction
import Formulary.Expression.Eval
import Formulary.Formula.Alias
import Formulary.Formula.Sides
import Formulary.Formula.Substitution

/-!
# Reading formulas symbolically

The residual of a formula, with known values in place of their symbols, is read as a combination of
kernels. Numerals are exact here. A numeral with a point is a measured number all the same: the
quotient of a measured number by a measured zero cannot be read, while any other quotient by zero
is read as something that has no finite value; and a power with a measured exponent is no whole
power, whatever its exponent.
-/

namespace Formulary.ClosedForm

open Formulary.Formula

/-- Why a formula is not read. -/
inductive ReadFault where
  | notAnEquation (e : NotAnEquation)
  | malformed
  | divisionByZero
  /-- an operation that its operands do not have -/
  | inapplicable

/-- What is read of an expression. -/
structure Reading where
  /-- the value, unless it is not finite -/
  value : Option Combination
  /-- whether a measured number takes part -/
  measured : Bool
  /-- the bases of powers with measured exponents -/
  bases : List Combination

/-- A reading that may add kernels. -/
abbrev Reader := ExceptT ReadFault (StateM Tower)

/-- The result of a construction, or nothing if it has no finite value. -/
def attempted (m : Making Combination) : Reader (Option Combination) := fun t =>
  let (c, t) := m.run t
  (.ok c, t)

namespace Reading

/-- The number that a reading is. -/
def number? (r : Reading) : Option Rat := r.value.bind Combination.number?

/-- A reading of a construction without operands. -/
def made (m : Making Combination) (measured : Bool) : Reader Reading :=
  return ⟨← attempted m, measured, []⟩

/-- An operation on one value. -/
def map (f : Combination → Making Combination) (r : Reading) : Reader Reading := do
  match r.value with
  | none => return r
  | some c => return { r with value := ← attempted (f c) }

/-- An operation on two values. -/
def combine (f : Combination → Combination → Making Combination) (r s : Reading) :
    Reader Reading := do
  let value ← match r.value, s.value with
    | some c, some d => attempted (f c d)
    | _, _ => pure none
  return ⟨value, r.measured || s.measured, r.bases ++ s.bases⟩

/-- The power of two readings. -/
def raise (r s : Reading) : Reader Reading := do
  let p ← combine Combination.raise r s
  return if s.measured && s.number?.isSome then { p with bases := r.value.toList ++ p.bases } else p

/-- The quotient of two readings. -/
def divide (r s : Reading) : Reader Reading := do
  if r.measured && s.measured && r.number?.isSome && s.number? == some 0 then throw .divisionByZero
  combine Combination.ratio r s

/-- An operation that only numbers have, the second one not being zero. -/
def onNumbers (f : Rat → Rat → Rat) (r s : Reading) : Reader Reading := do
  match r.number?, s.number? with
  | some p, some q =>
    if q = 0 then throw .divisionByZero
    return ⟨some (.number (f p q)), r.measured || s.measured, []⟩
  | _, _ => return ⟨none, r.measured || s.measured, []⟩

end Reading

/-- The greatest exponent of ten that a numeral may have. -/
def maxTenExponent : Nat := 5000

/-- The number that a decimal numeral denotes. -/
def decimalNumber (coefficient : Nat) (exponent : Int) : Option Rat :=
  if maxTenExponent < exponent.natAbs then none
  else some (if exponent < 0 then mkRat coefficient (Nat.pow 10 exponent.natAbs)
    else ((coefficient * Nat.pow 10 exponent.natAbs : Nat) : Rat))

/-- The number of arguments that a function takes at least and at most. -/
def arity : Function → Nat × Nat
  | .atan2 => (2, 2)
  | .log | .ln => (1, 2)
  | _ => (1, 1)

/-- A measured argument makes a measured value, but a zero of an angle function is exact. -/
def staysMeasured (f : Function) (value : Option Combination) : Bool :=
  !(value == some [] && (Function.trigonometric.contains f || f == .abs))

/-- A call of a function. -/
def readCall (f : Function) (args : List Reading) : Reader Reading := do
  if args.length < (arity f).1 || (arity f).2 < args.length then throw .inapplicable
  let measured := args.any (·.measured)
  match args.mapM (·.value) with
  | none => return ⟨none, measured, []⟩
  | some cs =>
    let value ← attempted (applyFunction f cs)
    return ⟨value, measured && staysMeasured f value, args.flatMap (·.bases)⟩

mutual

/-- The reading of an expression. -/
def readExpression : Expression → Reader Reading
  | .integer n => return ⟨some (.number n), false, []⟩
  | .decimal n e => return ⟨(decimalNumber n e).map .number, true, []⟩
  | .imaginary n e =>
    match decimalNumber n e with
    | none => return ⟨none, true, []⟩
    | some q => Reading.made (do return (← powerOfNumber (-1) (1 / 2)).scale q) true
  | .name s =>
    if s = "pi" then Reading.made circleNumber false
    else if s = "e" then Reading.made eulerNumber false
    else if isReserved s then throw .inapplicable
    else Reading.made (do return .kernel (← intern (.symbol s)) 1) false
  | .unary .plus e => readExpression e
  | .unary .minus e => do (← readExpression e).map fun c => pure c.neg
  | .binary op a b => do
    let r ← readExpression a
    let s ← readExpression b
    match op with
    | .add => r.combine (fun c d => pure (c.add d)) s
    | .sub => r.combine (fun c d => pure (c.sub d)) s
    | .mul => r.combine Combination.product s
    | .div => r.divide s
    | .pow => r.raise s
    | .floorDiv => r.onNumbers (fun p q => (p / q).floor) s
    | .mod => r.onNumbers (fun p q => p - q * (p / q).floor) s
    | _ => throw .inapplicable
  | .call (.name s) args => do
    let rs ← readAll args
    match Function.ofName? s with
    | some f => readCall f rs
    | none => throw .inapplicable
  | _ => throw .inapplicable

/-- The readings of expressions, from left to right. -/
def readAll : List Expression → Reader (List Reading)
  | [] => return []
  | e :: es => do
    let r ← readExpression e
    return r :: (← readAll es)

end

/--
An equation that was read: the symbol to solve for, the residual and the tower it is built on.
-/
structure Equated where
  unknown : String
  residual : Option Combination
  tower : Tower
  /-- the bases of powers with measured exponents in the residual -/
  bases : List Combination

/--
Reads the residual of a formula with known values put in. Nothing is returned if the unknown does
not occur in the text.
-/
def readFormula (formula : String) (bindings : List (String × Float)) (unknown : String) :
    Except ReadFault (Option Equated) := do
  let text ←
    match Formula.residual formula.toList with
    | .ok text => pure text
    | .error e => throw (.notAnEquation e)
  let (text, aliases) := aliased (substituteAll text bindings)
  match Expression.ofText? (withPowerSigns text) with
  | none => throw .malformed
  | some e =>
    let (r, tower) := (readExpression e).run #[]
    let r ← r
    return (aliases.lookup unknown).map fun name => ⟨name, r.value, tower, r.bases⟩

end Formulary.ClosedForm
