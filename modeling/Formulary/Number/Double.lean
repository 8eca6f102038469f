import Formulary.Number.Rounding

/-!
# The exact value of a double

A finite double is `± mantissa · 2 ^ exponent`. `Double.ofFloat` takes a double apart and
`nearestFloat` is the other direction, for any non-negative fraction: the nearest double, a tie
going to the even mantissa, and infinity from `2 ^ 1024 - 2 ^ 970` on.
-/

namespace Formulary.Number

/-- What a double denotes. -/
inductive Double where
  | nan
  | infinite (negative : Bool)
  | finite (negative : Bool) (mantissa : Nat) (exponent : Int)
  deriving Repr, DecidableEq

namespace Double

/-- The parts of a double, read off its bits. -/
def ofFloat (x : Float) : Double :=
  let bits := x.toBits.toNat
  let negative := bits / Nat.pow 2 63 == 1
  let field : Nat := bits / Nat.pow 2 52 % Nat.pow 2 11
  let fraction : Nat := bits % Nat.pow 2 52
  if field = 2047 then
    if fraction = 0 then .infinite negative else .nan
  else if field = 0 then .finite negative fraction (-1074)
  else .finite negative (fraction + Nat.pow 2 52) ((field : Int) - 1075)

/-- The magnitude of a finite double as a fraction of natural numbers. -/
def fraction (mantissa : Nat) (exponent : Int) : Nat × Nat :=
  if 0 ≤ exponent then (mantissa * Nat.pow 2 exponent.toNat, 1)
  else (mantissa, Nat.pow 2 (-exponent).toNat)

/-- The exact value of a finite double. -/
def toRat? : Double → Option Rat
  | .finite negative m e =>
    let (num, den) := fraction m e
    let q := mkRat num den
    some (if negative then -q else q)
  | _ => none

end Double

/-- The exact value of a finite double. -/
def exactValue? (x : Float) : Option Rat := (Double.ofFloat x).toRat?

/-- The exponent of the leading binary digit of `num / den`, for positive `num` and `den`. -/
def leadingBinaryExponent (num den : Nat) : Int :=
  let k : Int := (Nat.log2 num : Int) - Nat.log2 den
  let reached := if 0 ≤ k then den * Nat.pow 2 k.toNat ≤ num else den ≤ num * Nat.pow 2 (-k).toNat
  if reached then k else k - 1

/--
The bits of the double nearest to `num / den`. A mantissa that rounds up to `2 ^ 53` carries into
the exponent field by itself, and a subnormal one that rounds up becomes the least normal double.
-/
def nearestBits (num den : Nat) : Nat :=
  if num = 0 then 0 else
    let unit : Int := max (leadingBinaryExponent num den - 52) (-1074)
    if 972 ≤ unit then 2047 * Nat.pow 2 52 else
      let (n, d) :=
        if 0 ≤ unit then (num, den * Nat.pow 2 unit.toNat) else (num * Nat.pow 2 (-unit).toNat, den)
      (unit + 1074).toNat * Nat.pow 2 52 + roundHalfEven n d

/-- The double nearest to `± num / den`. -/
def nearestFloat (negative : Bool) (num den : Nat) : Float :=
  let x := Float.ofBits (UInt64.ofNat (nearestBits num den))
  if negative then -x else x

/-- The double nearest to an integer; `none` from `2 ^ 1024 - 2 ^ 970` on, where there is none. -/
def floatOfInt? (n : Int) : Option Float :=
  let x := nearestFloat (n < 0) n.natAbs 1
  if x.isInf then none else some x

/-- The double nearest to a rational number. -/
def floatOfRat (q : Rat) : Float := nearestFloat (q.num < 0) q.num.natAbs q.den

end Formulary.Number
