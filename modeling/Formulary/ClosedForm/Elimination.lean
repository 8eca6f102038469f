import Formulary.ClosedForm.Fraction

/-!
# Eliminating roots

A sum in which roots occur is multiplied by its conjugates until no root is left. Every zero of the
sum is a zero of the product; the converse does not hold, so that zeros of the product have to be
tried in the sum.
-/

namespace Formulary.ClosedForm.Elimination

/-- A kernel under a root and the common denominator of its exponents. -/
def root? (c : Combination) : Option (Nat × Nat) :=
  (c.kernels.map fun i => (i, Fraction.exponentUnit i c)).find? fun (_, n) => n != 1

/-- The radicand of a root: a fraction. -/
def radicand (i : Nat) : Making Fraction := do
  match ← kernelAt i with
  | .group c => c.reduced
  | _ => return .ofCombination (.kernel i 1)

/--
The coefficients of a combination in the powers `0 … n - 1` of the `n`-th root of a kernel, all
multiplied by a power of the denominator of the radicand.
-/
def rootCoefficients (i n : Nat) (radicand : Fraction) (c : Combination) : List Combination :=
  let parts : List (Nat × Nat × Combination) := c.map fun (m, a) =>
    let k := (Monomial.exponent m i * n).num.natAbs
    (k / n, k % n, [(m.without i, a)])
  let highest := parts.foldl (fun h p => max h p.1) 0
  (List.range n).map fun k =>
    parts.foldl (fun sum (whole, part, d) =>
      if part = k then
        sum.add ((d.mul (radicand.num.powNat whole)).mul (radicand.den.powNat (highest - whole)))
      else sum) []

/-- The product of the conjugates of `Σ aₖ · s ^ k`, where `s` is the `n`-th root of a fraction. -/
def norm? (n : Nat) (radicand : Fraction) (as : List Combination) : Option Combination :=
  match as with
  | [a, b] =>
    some (((a.mul a).mul radicand.den).sub ((b.mul b).mul radicand.num))
  | [a, b, c] =>
    let cube (d : Combination) := d.powNat 3
    some <|
      ((cube a).mul (radicand.den.powNat 2)).add <|
      (((cube b).mul radicand.num).mul radicand.den).add <|
      ((cube c).mul (radicand.num.powNat 2)).sub <|
      ((((a.mul b).mul c).mul radicand.num).mul radicand.den).scale 3
  | a :: as =>
    -- Only sums of two terms remain to be treated: `a + b · s ^ k`.
    match (as.zipIdx).filter fun (b, _) => !b.isEmpty with
    | [(b, k)] =>
      let k := k + 1
      let d := n / Nat.gcd n k
      let e := k / Nat.gcd n k
      some (((a.powNat d).mul (radicand.den.powNat e)).sub
        ((b.neg.powNat d).mul (radicand.num.powNat e)))
    | _ => none
  | [] => none

/-- The coefficients with even and with odd index. -/
def evenOdd : List Combination → List Combination × List Combination
  | [] => ([], [])
  | [a] => ([a], [])
  | a :: b :: as => let (even, odd) := evenOdd as; (a :: even, b :: odd)

/-- A combination without roots whose zeros include those of a given one. -/
def eliminate : (fuel : Nat) → Combination → Making Combination
  | 0, _ => failure
  | fuel + 1, c => do
    match root? c with
    | none => return (← c.reduced).num
    | some (i, n) =>
      let g ← radicand i
      let as := rootCoefficients i n g c
      let terms := (as.filter fun a => !a.isEmpty).length
      if n % 2 = 0 ∧ 2 < n ∧ 2 < terms then
        -- One step from the root of degree `n` to that of degree `n / 2`.
        let (even, odd) := evenOdd as
        let lift (bs : List Combination) : Combination :=
          (bs.zipIdx).foldl (fun sum (b, k) => sum.add (b.mul (.kernel i (mkRat (2 * k) n)))) []
        let (even, odd) := (lift even, lift odd)
        eliminate fuel ((even.mul even).sub ((odd.mul odd).mul (.kernel i (mkRat 2 n))))
      else match norm? n g as with
        | some c => eliminate fuel c
        | none => failure

end Formulary.ClosedForm.Elimination
