import Formulary.ClosedForm.Coefficients

/-!
# Real roots

The real roots of a polynomial with rational coefficients, each found to within a fraction `2 ^
-70` of its size. Roots are counted exactly: the number of sign changes in the chain of remainders
of the polynomial and its derivative drops by one at every root (`signChanges`), so halving an
interval isolates them. A root that a halving hits is exact.
-/

namespace Formulary.ClosedForm.RealRoots

/-- The chain of negated remainders that continues two polynomials. -/
def remainderChain (fuel : Nat) (p q : Coefficients Rat) : List (Coefficients Rat) :=
  match fuel with
  | 0 => [p]
  | fuel + 1 =>
    if q.isEmpty then [p] else
      let r := Coefficients.neg (Coefficients.remainder p q)
      -- A positive factor keeps the signs and the numbers small.
      let size := let a := Coefficients.leading r; if a < 0 then -a else a
      p :: remainderChain fuel q (r.map fun a => a / size)

/-- The chain of a polynomial and its derivative. -/
def chain (p : Coefficients Rat) : List (Coefficients Rat) :=
  remainderChain p.length p (Coefficients.trim (Coefficients.derivative p))

/-- The number of sign changes in a row of numbers; zeros do not count. -/
def changes : List Rat → Nat
  | [] | [_] => 0
  | a :: b :: rest =>
    if b = 0 then changes (a :: rest)
    else (if (a < 0) != (b < 0) && a != 0 then 1 else 0) + changes (b :: rest)
termination_by l => l.length

/-- The number of sign changes of a chain at a point. -/
def signChanges (ps : List (Coefficients Rat)) (x : Rat) : Nat :=
  changes (ps.map fun p => Coefficients.value p x)

/-- The size of a number. -/
def magnitude (q : Rat) : Rat := if q < 0 then -q else q

/-- The larger one of two numbers. -/
def larger (q r : Rat) : Rat := if q < r then r else q

/-- A power of two above the size of every root. -/
def bound (p : Coefficients Rat) : Rat :=
  let a := Coefficients.leading p
  let size := p.foldl (fun m c => larger m (magnitude (c / a))) 0
  (Nat.pow 2 (((size + 1).num.toNat / (size + 1).den).log2 + 1) : Nat)

/-- How many halvings a search takes at most. -/
def maxHalvings : Nat := 5000

/-- Whether an interval is small against its ends. -/
def isNarrow (lo hi : Rat) : Bool :=
  (hi - lo) * (Nat.pow 2 70 : Nat) ≤ larger (magnitude lo) (magnitude hi)

/-- The root of a polynomial in an interval that is open below and holds one. -/
def narrow (p : Coefficients Rat) (ps : List (Coefficients Rat)) :
    (fuel : Nat) → (lo hi : Rat) → (below : Nat) → Rat
  | 0, lo, hi, _ => (lo + hi) / 2
  | fuel + 1, lo, hi, below =>
    let middle := (lo + hi) / 2
    if Coefficients.value p hi == 0 then hi
    else if isNarrow lo hi || Coefficients.value p middle == 0 then middle
    else
      let here := signChanges ps middle
      if here < below then narrow p ps fuel lo middle below else narrow p ps fuel middle hi here

/--
The roots in an interval that is open below, given the numbers of sign changes at its ends: halves
without a root are dropped, and those with one are narrowed down.
-/
def isolate (p : Coefficients Rat) (ps : List (Coefficients Rat)) :
    (fuel : Nat) → (lo hi : Rat) → (below above : Nat) → List Rat
  | 0, _, _, _, _ => []
  | fuel + 1, lo, hi, below, above =>
    if below ≤ above then []
    else if below = above + 1 then [narrow p ps maxHalvings lo hi below]
    else
      let middle := (lo + hi) / 2
      let here := signChanges ps middle
      isolate p ps fuel lo middle below here ++ isolate p ps fuel middle hi here above

end RealRoots

/-- The real roots of a polynomial, each once, in increasing order. -/
def realRoots (p : Coefficients Rat) : List Rat :=
  let p := Coefficients.trim p
  if p.length ≤ 1 then []
  else
    let divisor := Coefficients.gcd p (Coefficients.trim (Coefficients.derivative p))
    let p := Coefficients.quotient p divisor
    match p with
    | [b, a] => [-b / a]
    | p =>
      let ps := RealRoots.chain p
      let m := RealRoots.bound p
      RealRoots.isolate p ps RealRoots.maxHalvings (-m) m (RealRoots.signChanges ps (-m))
        (RealRoots.signChanges ps m)

end Formulary.ClosedForm
