import Formulary.Number.Reading
import Formulary.Number.Remainder

/-!
# Arithmetic of mixed numbers

Expressions compute with integers of any size, doubles and complex numbers. Integers stay exact
until they meet a double. Operations whose result would be no number say why (`Undefined`): a zero
divisor, a result out of range, an argument outside of the domain, operands of the wrong kind.
-/

namespace Formulary

open Formulary.Number

/-- Why an operation has no result. -/
inductive Undefined where
  | divisionByZero
  | overflow
  | domain
  | operands
  deriving Repr, DecidableEq

/-- The numbers of expressions. -/
inductive Scalar where
  | integer (n : Int)
  | real (x : Float)
  | complex (re im : Float)
  deriving Repr

namespace Scalar

/-- A number as a double; integers out of range and complex numbers have none. -/
def toFloat : Scalar → Except Undefined Float
  | .integer n =>
    match floatOfInt? n with
    | some x => .ok x
    | none => .error .overflow
  | .real x => .ok x
  | .complex _ _ => .error .operands

/-- A number as the two parts of a complex number. -/
def toComplex : Scalar → Except Undefined (Float × Float)
  | .complex re im => .ok (re, im)
  | s => do return (← s.toFloat, 0.0)

/-- Whether a number is complex. -/
def isComplex : Scalar → Bool
  | .complex _ _ => true
  | _ => false

/--
An operation given on integers, on doubles and on complex numbers, applied on the widest kind.
-/
def lift (onIntegers : Int → Int → Except Undefined Scalar)
    (onReals : Float → Float → Except Undefined Scalar)
    (onComplex : Float × Float → Float × Float → Except Undefined Scalar) (a b : Scalar) :
    Except Undefined Scalar := do
  match a, b with
  | .integer m, .integer n => onIntegers m n
  | a, b =>
    if a.isComplex || b.isComplex then onComplex (← a.toComplex) (← b.toComplex)
    else onReals (← a.toFloat) (← b.toFloat)

/-- The sum of two numbers. -/
def add : Scalar → Scalar → Except Undefined Scalar :=
  lift (fun m n => .ok (.integer (m + n))) (fun x y => .ok (.real (x + y)))
    fun (a, b) (c, d) => .ok (.complex (a + c) (b + d))

/-- The difference of two numbers. -/
def sub : Scalar → Scalar → Except Undefined Scalar :=
  lift (fun m n => .ok (.integer (m - n))) (fun x y => .ok (.real (x - y)))
    fun (a, b) (c, d) => .ok (.complex (a - c) (b - d))

/-- The product of two complex numbers. -/
def mulParts : Float × Float → Float × Float → Float × Float :=
  fun (a, b) (c, d) => (a * c - b * d, a * d + b * c)

/-- The product of two numbers. -/
def mul : Scalar → Scalar → Except Undefined Scalar :=
  lift (fun m n => .ok (.integer (m * n))) (fun x y => .ok (.real (x * y)))
    fun p q => let (re, im) := mulParts p q; .ok (.complex re im)

/-- The quotient of two complex numbers, scaled by the larger part of the divisor. -/
def divParts : Float × Float → Float × Float → Except Undefined (Float × Float) :=
  fun (a, b) (c, d) =>
    if d.abs ≤ c.abs then
      if c.abs == 0 then .error .divisionByZero else
        let ratio := d / c
        let denominator := c + d * ratio
        .ok ((a + b * ratio) / denominator, (b - a * ratio) / denominator)
    else if c.abs ≤ d.abs then
      let ratio := c / d
      let denominator := c * ratio + d
      .ok ((a * ratio + b) / denominator, (b * ratio - a) / denominator)
    else .ok (0.0 / 0.0, 0.0 / 0.0)

/-- The correctly rounded quotient of two integers. -/
def divIntegers (m n : Int) : Except Undefined Scalar :=
  if n = 0 then .error .divisionByZero else
    let negative := (decide (m < 0)) != (decide (n < 0))
    let q := nearestFloat negative m.natAbs n.natAbs
    if q.isInf then .error .overflow else .ok (.real q)

/-- The quotient of two numbers. -/
def div : Scalar → Scalar → Except Undefined Scalar :=
  lift divIntegers (fun x y => if y == 0 then .error .divisionByZero else .ok (.real (x / y)))
    fun p q => do let (re, im) ← divParts p q; return .complex re im

/-- The remainder of a division of doubles, with the sign of the divisor. -/
def modFloat (x y : Float) : Float :=
  let r := remainder x y
  if r == 0 then copySign 0.0 y
  else if (y < 0) != (r < 0) then r + y else r

/-- The quotient of two doubles, rounded down to a whole number. -/
def floorDivFloat (x y : Float) : Float :=
  let r := remainder x y
  let q := (x - r) / y
  let q := if r != 0 && (y < 0) != (r < 0) then q - 1.0 else q
  if q == 0 then copySign 0.0 (x / y)
  else
    let whole := floorFloat q
    if q - whole > 0.5 then whole + 1.0 else whole

/-- The quotient rounded down. -/
def floorDiv : Scalar → Scalar → Except Undefined Scalar :=
  lift (fun m n => if n = 0 then .error .divisionByZero else .ok (.integer (m.fdiv n)))
    (fun x y => if y == 0 then .error .divisionByZero else .ok (.real (floorDivFloat x y)))
    fun _ _ => .error .operands

/-- The remainder that belongs to `floorDiv`. -/
def mod : Scalar → Scalar → Except Undefined Scalar :=
  lift (fun m n => if n = 0 then .error .divisionByZero else .ok (.integer (m.fmod n)))
    (fun x y => if y == 0 then .error .divisionByZero else .ok (.real (modFloat x y)))
    fun _ _ => .error .operands

/-- A power of a complex number with a natural exponent, by repeated squaring. -/
def powNat (p : Float × Float) (n : Nat) : Float × Float :=
  go 8 n (1.0, 0.0) p
where
  /-- The remaining bits of the exponent, the product so far and the current square. -/
  go : (fuel n : Nat) → (r p : Float × Float) → Float × Float
    | 0, _, r, _ => r
    | fuel + 1, n, r, p =>
      if n = 0 then r
      else go fuel (n / 2) (if n % 2 = 1 then mulParts r p else r) (mulParts p p)

/-- A power of complex numbers by modulus and angle; an infinite angle has no sine. -/
def powPolar : Float × Float → Float × Float → Except Undefined (Float × Float) :=
  fun (a, b) (c, d) =>
    if c == 0 && d == 0 then .ok (1.0, 0.0)
    else if a == 0 && b == 0 then
      if d != 0 || c < 0 then .error .divisionByZero else .ok (0.0, 0.0)
    else
      let modulus := vectorLength a b
      let length := modulus.pow c
      let angle := Float.atan2 b a
      let phase := angle * c
      let (length, phase) :=
        if d != 0 then (length / (angle * d).exp, phase + d * modulus.log) else (length, phase)
      if phase.isInf then .error .divisionByZero
      else .ok (length * phase.cos, length * phase.sin)

/-- A power of complex numbers; small whole exponents are multiplied out. -/
def powComplex (p q : Float × Float) : Except Undefined Scalar := do
  let (re, im) ←
    if q.2 == 0 && isWhole q.1 && q.1.abs ≤ 100 then
      let n := q.1.abs.toUInt64.toNat
      if q.1 > 0 then .ok (powNat p n) else divParts (1.0, 0.0) (powNat p n)
    else powPolar p q
  if re.isInf || im.isInf then .error .overflow else .ok (.complex re im)

/-- A power of doubles; a negative base with a fractional exponent has a complex one. -/
def powFloat (x y : Float) : Except Undefined Scalar :=
  if y == 0 then .ok (.real 1.0)
  else if x.isNaN then .ok (.real x)
  else if y.isNaN then .ok (.real (if x == 1 then 1.0 else y))
  else if y.isInf then
    let x := x.abs
    if x == 1 then .ok (.real 1.0)
    else if (y > 0) == (x > 1) then .ok (.real y.abs)
    else .ok (.real 0.0)
  else if x.isInf then
    if y > 0 then .ok (.real (if isOddWhole y then x else x.abs))
    else .ok (.real (if isOddWhole y then copySign 0.0 x else 0.0))
  else if x == 0 then
    if y < 0 then .error .divisionByZero
    else .ok (.real (if isOddWhole y then x else 0.0))
  else if x < 0 && !isWhole y then powComplex (x, 0.0) (y, 0.0)
  else
    let r := x.abs.pow y
    if r.isInf then .error .overflow
    else .ok (.real (if x < 0 && isOddWhole y then -r else r))

/-- Powers of integers with more bits than this are out of range, as they do not fit into memory. -/
def maxPowerBits : Nat := 4294967296

/-- A power of integers; a negative exponent leads to doubles. -/
def powIntegers (m n : Int) : Except Undefined Scalar := do
  if n < 0 then powFloat (← (Scalar.integer m).toFloat) (← (Scalar.integer n).toFloat)
  else if m.natAbs ≤ 1 then
    return .integer (if m = 0 ∧ n ≠ 0 then 0 else if m = -1 ∧ n % 2 = 1 then -1 else 1)
  else if maxPowerBits < m.natAbs.log2 * n.toNat then .error .overflow
  else return .integer (Int.pow m n.toNat)

/-- A power. -/
def pow : Scalar → Scalar → Except Undefined Scalar := lift powIntegers powFloat powComplex

/-- The number with the opposite sign. -/
def neg : Scalar → Scalar
  | .integer n => .integer (-n)
  | .real x => .real (-x)
  | .complex re im => .complex (-re) (-im)

/-- The magnitude of a number. -/
def abs : Scalar → Except Undefined Scalar
  | .integer n => .ok (.integer n.natAbs)
  | .real x => .ok (.real x.abs)
  | .complex re im =>
    let r := vectorLength re im
    if r.isInf && re.isFinite && im.isFinite then .error .overflow else .ok (.real r)

/-- How two real numbers compare exactly; nothing if one is no number. -/
def order? : Scalar → Scalar → Option Ordering
  | .integer m, .integer n => some (compare m n)
  | .real x, .real y =>
    if x < y then some .lt else if y < x then some .gt else if x == y then some .eq else none
  | .integer m, .real y => ofInteger m y
  | .real x, .integer n => (ofInteger n x).map Ordering.swap
  | _, _ => none
where
  /-- How an integer compares to a double. -/
  ofInteger (m : Int) (y : Float) : Option Ordering :=
    match Double.ofFloat y with
    | .nan => none
    | .infinite negative => some (if negative then .gt else .lt)
    | d => d.toRat?.map fun q => if (m : Rat) < q then .lt else if q < m then .gt else .eq

/-- Whether two numbers are equal. -/
def eq : Scalar → Scalar → Bool
  | .complex a b, .complex c d => a == c && b == d
  | .complex a b, s | s, .complex a b => b == 0 && order? s (.real a) == some .eq
  | s, t => order? s t == some .eq

/-- Whether a number is not zero. -/
def isTrue : Scalar → Bool
  | .integer n => n != 0
  | .real x => x != 0
  | .complex re im => re != 0 || im != 0

end Scalar
end Formulary
