import Formulary.Number.Double

/-!
# Exact operations on doubles

The remainder of a division, whole parts, and the length of a vector, computed from the exact
values of doubles and rounded once.
-/

namespace Formulary.Number

/-- A double of an exact magnitude `n · 2 ^ e`. -/
def ofDyadic (negative : Bool) (n : Nat) (e : Int) : Float :=
  if 0 ≤ e then nearestFloat negative (n * Nat.pow 2 e.toNat) 1
  else nearestFloat negative n (Nat.pow 2 (-e).toNat)

/-- Whether a double is negative, a negative zero included. -/
def hasSign (x : Float) : Bool :=
  match Double.ofFloat x with
  | .finite negative _ _ => negative
  | .infinite negative => negative
  | .nan => false

/-- The magnitude of the first double with the sign of the second. -/
def copySign (x y : Float) : Float := if hasSign y then -x.abs else x.abs

/-- The remainder of a division, with the sign of the dividend; a zero divisor gives no number. -/
def remainder (x y : Float) : Float :=
  match Double.ofFloat x, Double.ofFloat y with
  | .finite negative m e, .finite _ m' e' =>
    if m' = 0 then 0.0 / 0.0 else
      let unit := min e e'
      ofDyadic negative (m * Nat.pow 2 (e - unit).toNat % (m' * Nat.pow 2 (e' - unit).toNat)) unit
  | .finite _ _ _, .infinite _ => x
  | _, _ => 0.0 / 0.0

/-- The greatest whole number that is not above a double. -/
def floorFloat (x : Float) : Float :=
  match Double.ofFloat x with
  | .finite negative m e =>
    if 0 ≤ e then x else
      let unit := Nat.pow 2 (-e).toNat
      if negative then nearestFloat true ((m + unit - 1) / unit) 1
      else nearestFloat false (m / unit) 1
  | _ => x

/-- Whether a double is a whole number. -/
def isWhole (x : Float) : Bool :=
  match Double.ofFloat x with
  | .finite _ m e => 0 ≤ e || m % Nat.pow 2 (-e).toNat == 0
  | _ => false

/-- Whether a double is an odd whole number. -/
def isOddWhole (x : Float) : Bool :=
  match Double.ofFloat x with
  | .finite _ m e =>
    if 0 < e then false
    else m % Nat.pow 2 (-e).toNat == 0 && m / Nat.pow 2 (-e).toNat % 2 == 1
  | _ => false

/-- A step of Newton's method for the integer square root, repeated while it decreases. -/
def floorSqrtFrom (n : Nat) : (fuel guess : Nat) → Nat
  | 0, guess => guess
  | fuel + 1, guess =>
    let next := (guess + n / guess) / 2
    if next < guess then floorSqrtFrom n fuel next else guess

/-- The greatest number whose square is not above `n`. -/
def floorSqrt (n : Nat) : Nat :=
  if n = 0 then 0 else floorSqrtFrom n (n.log2 + 2) (Nat.pow 2 (n.log2 / 2 + 1))

/-- The length of the vector `(x, y)`, rounded once. -/
def vectorLength (x y : Float) : Float :=
  match Double.ofFloat x, Double.ofFloat y with
  | .finite _ m e, .finite _ m' e' =>
    let unit := min e e'
    let a := m * Nat.pow 2 (e - unit).toNat
    let b := m' * Nat.pow 2 (e' - unit).toNat
    -- 120 more bits than the square root needs, and a last bit that tells an inexact root
    let square := (a * a + b * b) * Nat.pow 2 120
    let root := floorSqrt square
    ofDyadic false (2 * root + if root * root = square then 0 else 1) (unit - 61)
  | .infinite _, _ | _, .infinite _ => 1.0 / 0.0
  | _, _ => 0.0 / 0.0

end Formulary.Number
