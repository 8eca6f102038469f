import Formulary.ClosedForm.Elimination
import Formulary.ClosedForm.Lambert
import Formulary.ClosedForm.RealRoots

/-!
# Roots of equations

The real roots that an equation has in closed form. An equation is brought to a sum of products of
kernels; where a single kernel holds the unknown, the sum is a polynomial in it, whose roots are
values of the kernel, and the kernel is inverted at each of them. Sums with several kernels are
solved when they belong to one of a few families: sums with roots, two exponentials, logarithms, a
sine beside a cosine, and the unknown beside an exponential or a logarithm of it. A search fails
where the equation belongs to none.
-/

namespace Formulary.ClosedForm.Roots

open Formulary.Formula Formulary.Number

/-- A rational number as a double. -/
def toFloat (q : Rat) : Float := floatOfRat q

/-- The exact values of those doubles that are finite. -/
def ofFloats (xs : List Float) : List Rat := xs.filterMap exactValue?

/-- A function of a rational number, computed on doubles. -/
def viaFloat (f : Float → Float) (q : Rat) : Making Rat :=
  match exactValue? (f (toFloat q)) with
  | some r => return r
  | none => failure

/-- The kernel of the unknown. -/
def unknownKernel? (name : String) : Making (Option Nat) := do
  return (← get).findIdx? (· == .symbol name)

/-- Whether a sum is zero at a point up to a fraction of the size of its terms. -/
def isZeroAt (tolerance : Float) (t : Tower) (name : String) (c : Combination) (x : Rat) : Bool :=
  let zs := termValues (valuesAt t name (toFloat x)) c
  let scale := zs.foldl (fun s z => s + ComplexFloat.modulus z) 0.0
  (total zs).modulus ≤ tolerance * scale

/-- What may be left of a sum with roots or logarithms at a point where it is zero. -/
def rootTolerance : Float := 1e-6

/-- What may be left of a denominator at a point where it is zero. -/
def poleTolerance : Float := 1e-13

/-- Whether a kernel is zero, as far as doubles tell. -/
def kernelVanishes (t : Tower) (values : Array ComplexFloat) (i : Nat) : Bool :=
  match t[i]? with
  | some (.group c) =>
    let zs := termValues values c
    let scale := zs.foldl (fun s z => s + ComplexFloat.modulus z) 0.0
    (total zs).modulus ≤ poleTolerance * scale
  | some (.symbol _) => (values.getD i .undefined).modulus == 0
  | _ => (values.getD i .undefined).modulus ≤ poleTolerance

/-- Whether a denominator in a combination is zero at a point. -/
def isPole (t : Tower) (name : String) (c : Combination) (x : Rat) : Bool :=
  let values := valuesAt t name (toFloat x)
  c.any fun (m, _) => m.any fun (i, r) => r < 0 && kernelVanishes t values i

/-- For every kernel whether a function of the unknown occurs in it that has no inverse. -/
def obstructed (t : Tower) (name : String) : Array Bool :=
  let depends := t.dependsOn name
  t.foldl (fun seen k =>
    let here := match k with
      | .apply .abs _ | .apply .atan2 _ => k.parts.any fun i => depends.getD i false
      | _ => false
    seen.push (here || k.parts.any fun i => seen.getD i false)) #[]

/-- The growth rate `k` of a kernel that is `e ^ (k · x)` for the unknown `x`. -/
def growthRate? (t : Tower) (unknown : Nat) : Kernel → Option Float
  | .power base m =>
    let values := constantValues t
    let symbolic := t.symbolic
    let (constants, rest) := splitConstant symbolic m
    if symbolic.getD base true || rest != [(unknown, 1)] then none
    else do
      let b ← (values.getD base .undefined).real?
      let factor ← (monomialValue values constants).real?
      if b > 0 then some (b.log * factor) else none
  | _ => none

/-- The argument of a logarithm as `p · x + q`. -/
def linearLogarithm? (unknown : Nat) (k : Kernel) : Making (Option (Float × Float)) := do
  match k with
  | .apply .log [u] =>
    let f ← u.reduced
    match f.den.number?, Fraction.coefficients? unknown 1 f.num with
    | some 1, some [q, p] => return some (toFloat p, toFloat q)
    | _, _ => return none
  | _ => return none

/-- A combination as `a + b · kernel ^ r` with `a` and `b` free of the kernel. -/
def twoParts? (i : Nat) (c : Combination) : Option (Combination × Combination × Rat) := do
  let powers := (c.map fun (m, _) => Monomial.exponent m i).filter (· != 0)
  let r ← powers.head?
  if powers.any (· != r) then none
  else
    let without := c.filter fun (m, _) => Monomial.exponent m i = 0
    let factor := c.foldl (fun d (m, a) =>
      if Monomial.exponent m i = 0 then d else Combination.insert (m.without i) a d) []
    some (without, factor, r)

/-- A single power of the unknown with its coefficient: `(a, n)` for `a · x ^ n`. -/
def singlePower? (unknown : Nat) : Combination → Option (Float × Float)
  | [([(i, n)], a)] => if i = unknown then some (toFloat a, toFloat n) else none
  | _ => none

/-- The roots of an equation in the unknown and one exponential of it. -/
def withExponential (unknown : Nat) (rate : Float) (a b : Combination) : Option (List Float) :=
  match Fraction.coefficients? unknown 1 a, Fraction.coefficients? unknown 1 b with
  | some [a₀, a₁], some [c] =>
    some (Lambert.linearWithExponential (toFloat a₁) (toFloat a₀) (toFloat c) rate)
  | some [c], some [b₀, b₁] =>
    some (Lambert.productWithExponential (toFloat b₁) (toFloat b₀) (toFloat c) rate)
  | _, _ =>
    match singlePower? unknown a, a.number?, singlePower? unknown b, b.number? with
    | none, some c, some (b, n), none => some (Lambert.powerWithExponential b n (toFloat c) rate)
    | some (a, n), none, none, some c => some (Lambert.powerWithExponential a n (toFloat c) (-rate))
    | _, _, _, _ => none

/-- The roots of an equation `a + b · log (p · x + q) = 0`. -/
def withLogarithm (unknown : Nat) (p q : Float) (a b : Combination) : Option (List Float) :=
  -- For `y = log (p · x + q)` the unknown is `(e ^ y - q) / p`.
  let back (ys : List Float) : List Float := ys.map fun y => (y.exp - q) / p
  match Fraction.coefficients? unknown 1 a, Fraction.coefficients? unknown 1 b with
  | some [a₀, a₁], some [b₀] =>
    let (a₀, a₁, b₀) := (toFloat a₀, toFloat a₁, toFloat b₀)
    some (back (Lambert.linearWithExponential b₀ (a₀ - a₁ * q / p) (a₁ / p) 1.0))
  | some [a₀, a₁], some [0, b₁] =>
    if q == 0 then
      some (back (Lambert.productWithExponential (toFloat b₁) (toFloat a₁) (toFloat a₀ * p) 1.0))
    else none
  | some [a₀], _ =>
    -- For `b · x ^ n · log (p · x)` the exponential of `n · y` stands beside `y`.
    match singlePower? unknown b with
    | some (b₁, n) =>
      if q == 0 then
        some (back (Lambert.productWithExponential (b₁ / p.pow n) 0.0 (toFloat a₀) n))
      else none
    | none => none
  | _, some [b₀] =>
    match singlePower? unknown (a.filter fun (m, _) => !m.isEmpty), (a.lookup []).getD 0 with
    | some (a₁, n), a₀ =>
      if q == 0 then
        some (back (Lambert.linearWithExponential (toFloat b₀) (toFloat a₀) (a₁ / p.pow n) n))
      else none
    | none, _ => none
  | _, _ => none

/-- The logarithm of a product of exponentials of constants, as a combination. -/
def logarithmOfProduct (m : Monomial) : Making Combination := do
  let t ← get
  let values := constantValues t
  m.foldlM (fun sum (i, r) => do
    match ← kernelAt i with
    | .power base n =>
      match ((values.getD base .undefined).real?).filter (· > 0) with
      | some b => return sum.add [(n, r * (← viaFloat Float.log ((exactValue? b).getD 1)))]
      | none => failure
    | _ => failure) []

/--
The polynomial in `t = tan (u / 2)` that a polynomial in `sin u` and `cos u` is a multiple of.
-/
def halfAngle (sine cosine : Nat) (c : Combination) : Coefficients Rat :=
  let terms := c.map fun (m, a) =>
    ((Monomial.exponent m sine).num.natAbs, (Monomial.exponent m cosine).num.natAbs, a)
  let top := terms.foldl (fun n (i, j, _) => max n (i + j)) 0
  terms.foldl (fun p (i, j, a) =>
    let sines := Coefficients.pow [0, 2] i
    let cosines := Coefficients.pow [1, 0, -1] j
    let filling := Coefficients.pow [1, 0, 1] (top - i - j)
    p.add (Coefficients.scale a (sines.mul (cosines.mul filling)))) []

mutual

/-- The points at which a combination is zero. -/
def ofCombination (name : String) : (fuel : Nat) → Combination → Making (List Rat)
  | 0, _ => failure
  | fuel + 1, c => do
    let t ← get
    let depends := t.dependsOn name
    if !Tower.occurs depends c then return []
    if Tower.occurs (obstructed t name) c then failure
    let candidates ←
      match c with
      | [(m, _)] => ofFactors name fuel (m.filter fun (i, _) => depends.getD i false)
      | c => ofFraction name fuel (← c.reduced)
    let t ← get
    return candidates.filter fun x => !isPole t name c x

/-- The points at which one of some factors is zero. -/
def ofFactors (name : String) : (fuel : Nat) → Monomial → Making (List Rat)
  | 0, _ => failure
  | fuel + 1, m =>
    m.foldlM (fun roots (i, r) => do
      if r < 0 then return roots
      else match ← kernelAt i with
        | .symbol s => return if s = name then roots ++ [0] else roots
        | .group c => return roots ++ (← ofCombination name fuel c)
        | .power _ _ => return roots
        | _ => return roots ++ (← ofKernel name fuel i 0)) []

/-- The points at which a fraction is zero. -/
def ofFraction (name : String) : (fuel : Nat) → Fraction → Making (List Rat)
  | 0, _ => failure
  | fuel + 1, f => do
    let t ← get
    let depends := t.dependsOn name
    let common := Fraction.content f.num
    let shared ← ofFactors name fuel (common.filter fun (i, _) => depends.getD i false)
    let rest := Fraction.divideBy common f.num
    let isOther (i : Nat) : Bool := !depends.getD i false
    -- Roots that depend on other symbols, or that are complex, are no numbers.
    let more ← if rest.kernels.any isOther then pure [] else ofSum name fuel rest
    let t ← get
    let roots := shared ++ more
    return if f.den.number?.isSome then roots
      else roots.filter fun x => !isZeroAt poleTolerance t name f.den x

/-- The points at which a sum of products of kernels is zero. -/
def ofSum (name : String) : (fuel : Nat) → Combination → Making (List Rat)
  | 0, _ => failure
  | fuel + 1, c => do
    match c.kernels with
    | [] => return []
    | [i] =>
      let unit := Fraction.exponentUnit i c
      let isPower := (← kernelAt i) matches .power _ _
      if unit = 1 || isPower then
        match Fraction.coefficients? i unit c with
        | some p =>
          let values := (realRoots p).filter fun v => unit = 1 || 0 < v
          values.foldlM (fun roots v => do return roots ++ (← ofKernel name fuel i (v ^ unit))) []
        | none => failure
      else withRoots name fuel c
    | is =>
      if is.any fun i => Fraction.exponentUnit i c != 1 then withRoots name fuel c
      else ofFamily name fuel is c

/-- The points at which a sum with roots is zero. -/
def withRoots (name : String) : (fuel : Nat) → Combination → Making (List Rat)
  | 0, _ => failure
  | fuel + 1, c => do
    let d ← Elimination.eliminate 12 c
    let roots ← ofFraction name fuel (.ofCombination d)
    let t ← get
    return roots.filter (isZeroAt rootTolerance t name c)

/-- The points at which a sum of products of several kernels is zero. -/
def ofFamily (name : String) : (fuel : Nat) → List Nat → Combination → Making (List Rat)
  | 0, _, _ => failure
  | fuel + 1, is, c => do
    let t ← get
    let kernels := is.filterMap fun i => t[i]?
    let isExponential (k : Kernel) : Bool := match k with
      | .power base _ => !t.symbolic.getD base true
      | _ => false
    match c with
    | [(m, a), (n, b)] =>
      if kernels.all isExponential then
        -- The quotient of the two products is a number.
        let v := -b / a
        if v ≤ 0 then return []
        let l := (← logarithmOfProduct m).sub (← logarithmOfProduct n)
        return ← ofCombination name fuel (l.sub (.number (← viaFloat Float.log v)))
    | _ => pure ()
    if kernels.all fun k => k matches .apply .log _ then ofLogarithms name fuel c
    else match is, kernels with
      | [i, j], [.apply .sin u, .apply .cos v] =>
        if u = v then ofAngle name fuel i j u c else failure
      | [i, j], [.apply .cos u, .apply .sin v] =>
        if u = v then ofAngle name fuel j i u c else failure
      | [i, j], [.symbol _, k] => besideUnknown i j k c
      | [i, j], [k, .symbol _] => besideUnknown j i k c
      | _, _ => failure
where
  /-- The roots of a sum of products of the unknown and one kernel that holds it. -/
  besideUnknown (unknown i : Nat) (k : Kernel) (c : Combination) : Making (List Rat) := do
    let t ← get
    match twoParts? i c with
    | none => failure
    | some (a, b, r) =>
      match growthRate? t unknown k, ← linearLogarithm? unknown k with
      | some rate, _ =>
        match withExponential unknown (rate * toFloat r) a b with
        | some xs => return ofFloats xs
        | none => failure
      | none, some (p, q) =>
        match if r = 1 then withLogarithm unknown p q a b else none with
        | some xs => return ofFloats xs
        | none => failure
      | none, none => failure

/-- The points at which a sum of multiples of logarithms is zero. -/
def ofLogarithms (name : String) : (fuel : Nat) → Combination → Making (List Rat)
  | 0, _ => failure
  | fuel + 1, c => do
    let constant := (c.lookup []).getD 0
    let logarithms := c.filter fun (m, _) => !m.isEmpty
    match logarithms with
    | [] => return []
    | (_, a) :: rest =>
      -- All other coefficients are multiples of the least one: the logarithm of a product stays.
      let first := rest.foldl (fun b (_, a) => if a * a < b * b then a else b) a
      let product ← logarithms.foldlM (fun p (m, a) => do
        match m with
        | [(i, 1)] =>
          match ← kernelAt i with
          | .apply .log [u] =>
            let r := a / first
            if r.den = 1 ∧ r.num.natAbs ≤ 20 then p.product (← numericPower u r) else failure
          | _ => failure
        | _ => failure) (Combination.number 1)
      let v ← viaFloat Float.exp (-constant / first)
      let roots ← ofCombination name fuel (product.sub (.number v))
      let t ← get
      return roots.filter (isZeroAt rootTolerance t name c)

/-- The points at which a polynomial in the sine and the cosine of one angle is zero. -/
def ofAngle (name : String) :
    (fuel : Nat) → (sine cosine : Nat) → List Combination → Combination → Making (List Rat)
  | 0, _, _, _, _ => failure
  | fuel + 1, s, k, args, c => do
    match args with
    | [u] =>
      match c with
      | [([(i, 1)], a), ([(j, 1)], b)] =>
        if i = s ∧ j = k then ofTangent name fuel u (-b / a)
        else if i = k ∧ j = s then ofTangent name fuel u (-a / b)
        else failure
      | c =>
        (realRoots (halfAngle s k c)).foldlM (fun roots v => do
          let angle ← viaFloat (fun x => 2.0 * x.atan) v
          return roots ++ (← ofCombination name fuel (u.sub (.number angle)))) []
    | _ => failure

/-- The points at which the tangent of an angle has a value. -/
def ofTangent (name : String) : (fuel : Nat) → (u : Combination) → Rat → Making (List Rat)
  | 0, _, _ => failure
  | fuel + 1, u, v => do ofCombination name fuel (u.sub (.number (← viaFloat Float.atan v)))

/-- The points at which a kernel has a value. -/
def ofKernel (name : String) : (fuel : Nat) → (i : Nat) → Rat → Making (List Rat)
  | 0, _, _ => failure
  | fuel + 1, i, v => do
    let equals (u : Combination) (values : List Rat) : Making (List Rat) :=
      values.foldlM (fun roots w => do
        return roots ++ (← ofCombination name fuel (u.sub (.number w)))) []
    match ← kernelAt i with
    | .symbol s => return if s = name then [v] else []
    | .group c => equals c [v]
    | .apply .log [u] => equals u [← viaFloat Float.exp v]
    | .apply .sin [u] =>
      if v < -1 ∨ 1 < v then return []
      else equals u [← viaFloat Float.asin v, ← viaFloat (fun x => 3.141592653589793 - x.asin) v]
    | .apply .cos [u] =>
      if v < -1 ∨ 1 < v then return []
      else
        equals u [← viaFloat Float.acos v, ← viaFloat (fun x => 2.0 * 3.141592653589793 - x.acos) v]
    | .apply .tan [u] => ofTangent name fuel u v
    | .apply .asin [u] =>
      if v < -1570796326794897 / 10 ^ 15 ∨ 1570796326794897 / 10 ^ 15 < v then return []
      else equals u [← viaFloat Float.sin v]
    | .apply .acos [u] =>
      if v < 0 ∨ 3141592653589794 / 10 ^ 15 < v then return []
      else equals u [← viaFloat Float.cos v]
    | .apply .atan [u] =>
      if v ≤ -1570796326794897 / 10 ^ 15 ∨ 1570796326794897 / 10 ^ 15 ≤ v then return []
      else equals u [← viaFloat Float.tan v]
    | .power base m =>
      let t ← get
      if t.symbolic.getD base true then
        match ← unknownKernel? name with
        | some x =>
          -- The equation `x ^ (k · x) = v` is `y · e ^ y = log v / k` for `y = log x`.
          let (constants, rest) := splitConstant t.symbolic m
          match (monomialValue (constantValues t) constants).real? with
          | some k =>
            if base = x ∧ rest = [(x, 1)] then
              if v ≤ 0 then return []
              else return ofFloats ((Lambert.solutions ((toFloat v).log / k)).map Float.exp)
            else failure
          | none => failure
        | none => failure
      else
        if v ≤ 0 then return []
        else
          let l ← logarithmOfProduct [(i, 1)]
          equals l [← viaFloat Float.log v]
    | _ => failure

end

end Formulary.ClosedForm.Roots
