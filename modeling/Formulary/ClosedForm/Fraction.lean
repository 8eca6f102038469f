import Formulary.ClosedForm.Coefficients
import Formulary.ClosedForm.Construction
import Formulary.ClosedForm.Evaluation

/-!
# Fractions of combinations

Multiplied out, a combination is a quotient of two sums of products of kernels in which no sum
stands in parentheses but under a root. `Combination.simplified` brings a combination to this form,
puts numbers for its constant kernels and cancels what numerator and denominator have in common.
-/

namespace Formulary.ClosedForm

open Formulary.Formula

/-- A quotient of two combinations. -/
structure Fraction where
  num : Combination
  den : Combination
  deriving Repr

namespace Fraction

/-- A combination without a denominator. -/
def ofCombination (c : Combination) : Fraction := ⟨c, .number 1⟩

/-- A single term; negative powers of kernels with symbols make the denominator. -/
def ofTerm (m : Monomial) (a : Rat) : Making Fraction := do
  let symbolic := (← get).symbolic
  let (below, above) := m.partition fun (i, r) => r < 0 && symbolic.getD i true
  return ⟨if a = 0 then [] else [(above, a)], [(below.map fun (i, r) => (i, -r), 1)]⟩

/-- A fraction as a combination; a denominator with several terms is put into parentheses. -/
def toCombination (f : Fraction) : Making Combination :=
  match f.den.number? with
  | some d => if d = 0 then failure else return f.num.scale (1 / d)
  | none => f.num.ratio f.den

/-- The least common multiple of two monomials. -/
def lcmMonomial (m n : Monomial) : Monomial :=
  m.foldl (fun l (i, r) =>
    if Monomial.exponent l i < r then Monomial.mul (l.without i) [(i, r)] else l) n

/-- What a monomial lacks to a multiple of it. -/
def missing (m l : Monomial) : Combination := [(Monomial.mul l (Monomial.pow m (-1)), 1)]

end Fraction

/-- Up to which exponent a sum in parentheses is multiplied out. -/
def maxExpansion : Nat := 24

/-- Whether nothing in a combination is left to be multiplied out. -/
def isSettled (t : Tower) (c : Combination) : Bool :=
  let symbolic := t.symbolic
  c.all fun (m, _) => m.all fun (i, r) =>
    match t[i]? with
    | some (.group _) => 0 < r && (r < 1 || maxExpansion < r)
    | some (.number _) => r.den != 1
    | _ => 0 < r || !symbolic.getD i true

mutual

/-- A combination multiplied out. -/
def Combination.expand : (fuel : Nat) → Combination → Making Fraction
  | 0, _ => failure
  | fuel + 1, c =>
    c.foldlM (fun f (m, a) => do
      let g ← m.foldlM (fun g (i, r) => do Fraction.multiply fuel g (← expandFactor fuel i r))
        (Fraction.ofCombination (.number a))
      Fraction.sum fuel f g) (Fraction.ofCombination [])

/-- A combination that is a product of such as are multiplied out. -/
def Combination.resettle : (fuel : Nat) → Combination → Making Fraction
  | 0, c => return .ofCombination c
  | fuel + 1, c => do
    if isSettled (← get) c then return .ofCombination c else Combination.expand fuel c

/-- The quotient of two products. -/
def Fraction.quotient : (fuel : Nat) → (c d : Combination) → Making Fraction
  | 0, _, _ => failure
  | fuel + 1, c, d => do
    let f ← Combination.resettle fuel c
    let g ← Combination.resettle fuel d
    return ⟨f.num.mul g.den, f.den.mul g.num⟩

/-- The product of two fractions. -/
def Fraction.multiply : (fuel : Nat) → (f g : Fraction) → Making Fraction
  | 0, _, _ => failure
  | fuel + 1, f, g => Fraction.quotient fuel (f.num.mul g.num) (f.den.mul g.den)

/-- The sum of two fractions. -/
def Fraction.sum : (fuel : Nat) → (f g : Fraction) → Making Fraction
  | 0, _, _ => failure
  | fuel + 1, f, g =>
    if f.num.isEmpty then return g
    else if g.num.isEmpty then return f
    else if f.den = g.den then Fraction.quotient fuel (f.num.add g.num) f.den
    else match f.den, g.den with
      | [(m, a)], [(n, b)] =>
        let l := Fraction.lcmMonomial m n
        let first := (f.num.mul (Fraction.missing m l)).scale b
        let second := (g.num.mul (Fraction.missing n l)).scale a
        Fraction.quotient fuel (first.add second) [(l, a * b)]
      | d, e => Fraction.quotient fuel ((f.num.mul e).add (g.num.mul d)) (d.mul e)

/-- A power of a kernel, multiplied out. -/
def expandFactor : (fuel : Nat) → (i : Nat) → (r : Rat) → Making Fraction
  | 0, _, _ => failure
  | fuel + 1, i, r => do
    match ← kernelAt i with
    | .group c => Fraction.expandPower fuel (← Combination.expand fuel c) r
    | .apply f args =>
      let args ← args.mapM fun u => do (← Combination.expand fuel u).toCombination
      match ← applyFunction f args with
      | [([(j, 1)], 1)] => Fraction.ofTerm [(j, r)] 1
      | [([(j, 1)], a)] => Fraction.expandPower fuel (.ofCombination [([(j, 1)], a)]) r
      | c => Fraction.expandPower fuel (← Combination.expand fuel c) r
    | .power base m =>
      let base ← (← expandFactor fuel base 1).toCombination
      let exponent ← (← Combination.expand fuel [(m, 1)]).toCombination
      match ← base.raise exponent with
      | [(m, a)] =>
        match (← powerOfNumber a r).number? with
        | some a => Fraction.ofTerm (m.pow r) a
        | none => failure
      | c => Fraction.expandPower fuel (← Combination.expand fuel c) r
    | .number q =>
      match ← powerOfNumber q r with
      | [(m, a)] => Fraction.ofTerm m a
      | _ => failure
    | _ => Fraction.ofTerm [(i, r)] 1

/-- A power of a fraction, multiplied out. -/
def Fraction.expandPower : (fuel : Nat) → Fraction → (r : Rat) → Making Fraction
  | 0, _, _ => failure
  | fuel + 1, f, r => do
    let n := (if r < 0 then -r else r).floor.toNat
    let root := (if r < 0 then -r else r) - n
    let isLarge := maxExpansion < n && 1 < max f.num.length f.den.length
    if isLarge then return ← Fraction.ofTerm [(← enclose (← f.toCombination), r)] 1
    let whole ← Fraction.quotient fuel (f.num.powNat n) (f.den.powNat n)
    let power ←
      if root = 0 then pure whole
      else match ← numericPower (← f.toCombination) root with
        | [(m, a)] => Fraction.multiply fuel whole (← Fraction.ofTerm m a)
        | [] => pure (.ofCombination [])
        | c => Fraction.multiply fuel whole (.ofCombination c)
    if r < 0 then
      if power.num.isEmpty then failure else return ⟨power.den, power.num⟩
    else return power

end

/-- How deep the kernels of a tower can be nested. -/
def Tower.depth (t : Tower) : Nat := 4 * t.size + 20

/-- A combination multiplied out, as a quotient. -/
def Combination.expanded (c : Combination) : Making Fraction := do c.expand (← get).depth

/-- A combination in which each square of a cosine is one less the square of the sine. -/
def replaceSquares (sine cosine : Nat) (c : Combination) : Combination :=
  c.foldl (fun sum (m, a) =>
    let squares := (Monomial.exponent m cosine / 2).floor.toNat
    let rest : Combination := [(Monomial.mul m [(cosine, -2 * (squares : Rat))], a)]
    let square := (Combination.number 1).sub (.kernel sine 2)
    sum.add (rest.mul (square.powNat squares))) []

/-- The pairs of a sine and a cosine of the same argument. -/
def sinePairs (t : Tower) : List (Nat × Nat) :=
  (t.toList.zipIdx).filterMap fun (k, i) =>
    match k with
    | .apply .sin args => (t.findIdx? (· == .apply .cos args)).map (i, ·)
    | _ => none

/-- A fraction in which the squares of a cosine are expressed by the sine that stands beside it. -/
def reduceCosines (t : Tower) (f : Fraction) : Fraction :=
  (sinePairs t).foldl (fun f (s, c) =>
    let ks := f.num.kernels ++ f.den.kernels
    if ks.contains s && ks.contains c then ⟨replaceSquares s c f.num, replaceSquares s c f.den⟩
    else f) f

namespace Fraction

/-- The lesser one of two exponents. -/
def lesser (q r : Rat) : Rat := if r < q then r else q

/-- The factors that all terms of a combination have in common. -/
def content : Combination → Monomial
  | [] => []
  | (m, _) :: c =>
    m.filterMap fun (i, r) =>
      let least := c.foldl (fun r (n, _) => lesser r (Monomial.exponent n i)) r
      if least = 0 then none else some (i, least)

/-- The greatest common divisor of two monomials with positive exponents. -/
def gcdMonomial (m n : Monomial) : Monomial :=
  m.filterMap fun (i, r) =>
    let least := lesser r (Monomial.exponent n i)
    if least ≤ 0 then none else some (i, least)

/-- A combination divided by a monomial. -/
def divideBy (m : Monomial) (c : Combination) : Combination :=
  c.mul [(Monomial.pow m (-1), 1)]

/-- The common denominator of the exponents of a kernel. -/
def exponentUnit (i : Nat) (c : Combination) : Nat :=
  c.foldl (fun n (m, _) => Nat.lcm n (Monomial.exponent m i).den) 1

/-- The highest exponent, in units, with which coefficients are formed. -/
def maxDegree : Nat := 120

/--
The coefficients of a combination in the powers of one kernel, counted in fractions of a unit; all
other kernels have to be absent.
-/
def coefficients? (i unit : Nat) (c : Combination) : Option (Coefficients Rat) := do
  let terms ← c.mapM fun (m, a) =>
    let r := Monomial.exponent m i * unit
    if (m.without i).isEmpty && r.den = 1 && 0 ≤ r.num && r.num.natAbs ≤ maxDegree then
      some (r.num.natAbs, a) else none
  let degree := terms.foldl (fun n t => max n t.1) 0
  if c.isEmpty then some []
  else some ((List.range (degree + 1)).map fun n =>
    (terms.filter (·.1 == n)).foldl (fun s t => s + t.2) 0)

/-- The combination with given coefficients in the powers of a kernel. -/
def ofCoefficients (i unit : Nat) (p : Coefficients Rat) : Combination :=
  (p.zipIdx).foldl (fun c (a, n) =>
    if a = 0 then c else c.add ((Combination.kernel i (mkRat n unit)).scale a)) []

/-- A fraction without the factors that numerator and denominator have in common. -/
def cancel (f : Fraction) : Fraction :=
  let common := gcdMonomial (content f.num) (content f.den)
  let f : Fraction := ⟨divideBy common f.num, divideBy common f.den⟩
  let f : Fraction :=
    match (f.num.kernels ++ f.den.kernels).eraseDups with
    | [i] =>
      let unit := Nat.lcm (exponentUnit i f.num) (exponentUnit i f.den)
      match coefficients? i unit f.num, coefficients? i unit f.den with
      | some p, some q =>
        let d := Coefficients.gcd p q
        if d.length ≤ 1 then f
        else
          let without (c : Coefficients Rat) : Combination := ofCoefficients i unit (c.quotient d)
          ⟨without p, without q⟩
      | _, _ => f
    | _ => f
  match f.den.getLast? with
  | some (_, a) => ⟨f.num.scale (1 / a), f.den.scale (1 / a)⟩
  | none => f

end Fraction

/--
A combination as a quotient in lowest terms, with numbers for constant kernels if these are real.
-/
def Combination.reduced (c : Combination) : Making Fraction := do
  let f ← c.expanded
  let t ← get
  let f := reduceCosines t f
  match specialize t f.num, specialize t f.den with
  | some n, some d =>
    if d.isEmpty then failure
    return Fraction.cancel ⟨n, d⟩
  | _, _ => return f

/-- Whether a combination is a product of several factors without a denominator. -/
def Combination.isProduct (c : Combination) : Bool :=
  match c with
  | [(m, _)] => 1 < m.length && m.all fun (_, r) => 0 < r
  | _ => false

/--
A combination multiplied out and in lowest terms. A product whose factors have different kernels
keeps them apart, since it is zero where one of them is.
-/
def Combination.simplified (c : Combination) : Making Combination := do
  let f ← c.reduced
  if c.isProduct && 1 < f.num.kernels.length then return c else f.toCombination

end Formulary.ClosedForm
