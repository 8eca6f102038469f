import Formulary.Number.Double

/-!
# Shortest decimals

The shortest decimal that reads back as a given double, and of those the nearest to it. For each
number of digits the two decimals on either side of the value are tried, and the first grid on
which one of them lies within the interval of reals that round to the double gives the answer. If
any point of a grid lies in the interval, so does one of these two neighbours.
-/

namespace Formulary.Number

/-- A decimal number `± coefficient · 10 ^ exponent`. -/
structure Decimal where
  negative : Bool
  coefficient : Nat
  exponent : Int
  deriving Repr, DecidableEq

/--
Whether `n · 10 ^ e` rounds to the double `m · 2 ^ q`. The interval reaches half a unit upwards,
and half a unit downwards or a quarter where the double is the least of its binade; its ends belong
to it iff the mantissa is even.
-/
def roundsTo (m : Nat) (q : Int) (n : Nat) (e : Int) : Bool :=
  -- All sides are multiplied by `4 · 2 ^ (-q)`, and by what clears the power of ten.
  let below := if m = Nat.pow 2 52 ∧ -1074 < q then 4 * m - 1 else 4 * m - 2
  let above := 4 * m + 2
  let twos (k : Int) (a : Nat) := if 0 ≤ k then a * Nat.pow 2 k.toNat else a
  let tens (k : Int) (a : Nat) := if 0 ≤ k then a * Nat.pow 10 k.toNat else a
  let middle := tens e (twos (-q) (4 * n))
  let low := tens (-e) (twos q below)
  let high := tens (-e) (twos q above)
  if m % 2 = 0 then low ≤ middle && middle ≤ high else low < middle && middle < high

/--
The neighbour of `num / den` on the grid `10 ^ e` that rounds to the double `m · 2 ^ q`: the nearer
one if both do, the even one of two equally near.
-/
def neighbour? (m : Nat) (q : Int) (num den : Nat) (e : Int) : Option Nat :=
  let (a, b) := inUnits num den e
  let nearer := roundHalfEven a b
  let other := if nearer = a / b then a / b + 1 else a / b
  if roundsTo m q nearer e then some nearer
  else if roundsTo m q other e then some other
  else none

/--
The shortest decimal for a positive finite double `m · 2 ^ q`, on grids of at least `digits`
digits.
-/
def shortestFrom (m : Nat) (q : Int) (leading : Int) : (fuel digits : Nat) → Nat × Int
  | 0, _ => let (num, den) := Double.fraction m q; let (a, b) := inUnits num den (leading - 16)
    (roundHalfEven a b, leading - 16)
  | fuel + 1, digits =>
    let (num, den) := Double.fraction m q
    let e := leading - (digits - 1 : Nat)
    match neighbour? m q num den e with
    | some n => (n, e)
    | none => shortestFrom m q leading fuel (digits + 1)

/-- A decimal without trailing zeros in its coefficient. -/
def Decimal.dropZeros : (fuel : Nat) → Nat → Int → Nat × Int
  | 0, n, e => (n, e)
  | fuel + 1, n, e => if n ≠ 0 ∧ n % 10 = 0 then dropZeros fuel (n / 10) (e + 1) else (n, e)

/-- The shortest decimal that reads back as the double `± m · 2 ^ q`. -/
def shortest (negative : Bool) (m : Nat) (q : Int) : Decimal :=
  if m = 0 then ⟨negative, 0, 0⟩ else
    let (num, den) := Double.fraction m q
    let (n, e) := shortestFrom m q (leadingExponent num den) 17 1
    let (n, e) := Decimal.dropZeros 18 n e
    ⟨negative, n, e⟩

end Formulary.Number
