import Formulary.ClosedForm.Combination

/-!
# Building combinations

Sums, products, powers and functions of combinations, simplified as far as it goes without
multiplying out: like terms and powers of the same kernel are collected, a number is distributed
over a sum, powers of numbers are worked out, and functions of special arguments have their values.
A construction fails where there is no finite value, such as for a quotient by zero.
-/

namespace Formulary.ClosedForm

open Formulary.Formula

/-- How large a power of a number may become, in binary digits, before it stays a power. -/
def maxPowerSize : Nat := 20000

/-- The size of a number in binary digits. -/
def sizeOf (q : Rat) : Nat := q.num.natAbs.log2 + q.den.log2 + 1

/-- The natural number whose power with exponent `k` is `n`, searched for between two bounds. -/
def searchRoot (n k : Nat) : (fuel lo hi : Nat) → Option Nat
  | 0, lo, _ => if Nat.pow lo k = n then some lo else none
  | fuel + 1, lo, hi =>
    let middle := (lo + hi) / 2
    if Nat.pow middle k = n then some middle
    else if Nat.pow middle k < n then searchRoot n k fuel middle hi
    else searchRoot n k fuel lo middle

/-- The exact root of a natural number. -/
def exactRootNat (n k : Nat) : Option Nat :=
  if k = 0 ∨ 64 < k then none
  else if n ≤ 1 then some n
  else searchRoot n k (n.log2 / k + 2) 0 (Nat.pow 2 (n.log2 / k + 1))

/-- The exact root of a non-negative number. -/
def exactRoot (q : Rat) (k : Nat) : Option Rat := do
  let n ← exactRootNat q.num.natAbs k
  let d ← exactRootNat q.den k
  return mkRat n d

/-- A whole power of a number other than zero. -/
def wholePower (q : Rat) (n : Int) : Rat := if n < 0 then (1 / q) ^ n.natAbs else q ^ n.natAbs

/-- A power of a number. -/
def powerOfNumber (q r : Rat) : Making Combination := do
  if q = 0 then
    if 0 < r then return [] else failure
  else if q = 1 then return .number 1
  else
    let n := r.floor
    if maxPowerSize < n.natAbs * sizeOf q then return .kernel (← intern (.number q)) r
    else
      let whole := wholePower q n
      let f := r - n
      if f = 0 then return .number whole
      else match if 0 < q then exactRoot q f.den else none with
        | some root => return .number (whole * wholePower root f.num)
        | none => return .scale whole (.kernel (← intern (.number q)) f)

/--
A kernel with its exponent as a combination; numbers and sums in parentheses lose their kernel.
-/
def powerOfKernel (i : Nat) (r : Rat) : Making Combination := do
  match ← kernelAt i with
  | .number q => powerOfNumber q r
  | .group c => if r = 1 then return c else return .kernel i r
  | _ => return .kernel i r

/-- The kernel of a combination as a whole. -/
def enclose (c : Combination) : Making Nat :=
  match c with
  | [([(i, 1)], 1)] => return i
  | c => match c.number? with
    | some q => intern (.number q)
    | none => intern (.group c)

/-- A combination as a single term; a sum is put into parentheses. -/
def asTerm (c : Combination) : Making (Monomial × Rat) := do
  match c with
  | [t] => return t
  | c => return ([(← enclose c, 1)], 1)

/-- A term whose powers of numbers have been worked out; a lone sum loses its parentheses. -/
def settle (m : Monomial) (a : Rat) : Making Combination := do
  let t ← get
  let isNumber (f : Nat × Rat) : Bool :=
    match t[f.1]? with
    | some (.number q) => f.2.den = 1 && f.2.num.natAbs * sizeOf q ≤ maxPowerSize
    | _ => false
  let numbers := m.filter isNumber
  let rest := m.filter fun f => !isNumber f
  let mut a := a
  for (i, r) in numbers do
    if let some (.number q) := t[i]? then a := a * wholePower q r.num
  match rest with
  | [(i, 1)] => return .scale a (← powerOfKernel i 1)
  | rest => return if a = 0 then [] else [(rest, a)]

/-- The product of two combinations, where sums stay in parentheses. -/
def Combination.product (c d : Combination) : Making Combination := do
  match c.number?, d.number? with
  | some q, _ => return d.scale q
  | _, some q => return c.scale q
  | none, none =>
    let (m, a) ← asTerm c
    let (n, b) ← asTerm d
    settle (Monomial.mul m n) (a * b)

/-- Whether a kernel stands for a positive number whatever the symbols are. -/
def isPositive : Kernel → Bool
  | .pi | .e => true
  | .number q => 0 < q
  | _ => false

/-- A power of a combination with a numeric exponent. -/
def numericPower (c : Combination) (r : Rat) : Making Combination := do
  if r = 0 then return .number 1
  else if r = 1 then return c
  else match c with
    | [] => powerOfNumber 0 r
    | [(m, a)] =>
      if r.den = 1 then (← powerOfNumber a r).product (← settle (Monomial.pow m r) 1)
      else
        -- Positive factors leave the root, the others stay together.
        let t ← get
        let outer := m.filter fun (i, _) => (t[i]?).any isPositive
        let inner := m.filter fun (i, _) => !(t[i]?).any isPositive
        let sign : Rat := if a < 0 then -1 else 1
        let outside ←
          (← powerOfNumber (a * sign) r).product (← settle (Monomial.pow outer r) 1)
        let inside ←
          match inner, sign with
          | [], sign => powerOfNumber sign r
          | [(i, p)], 1 =>
            if -1 < p ∧ p ≤ 1 then settle [(i, p * r)] 1
            else pure (.kernel (← enclose [([(i, p)], 1)]) r)
          | inner, sign => pure (.kernel (← enclose [(inner, sign)]) r)
        outside.product inside
    | c => return .kernel (← enclose c) r

/-- The quotient of two combinations. -/
def Combination.ratio (c d : Combination) : Making Combination := do
  c.product (← numericPower d (-1))

/-- The kernels that a function, or the constant one, is the outermost part of. -/
def appliedTo? (f : Function) (c : Combination) : Making (Option Combination) := do
  match c with
  | [([(i, 1)], 1)] =>
    match ← kernelAt i with
    | .apply g [u] => return if f = g then some u else none
    | _ => return none
  | _ => return none

/-- The highest exponent that is tried to write a number as a power of another. -/
def maxBaseExponent : Nat := 12

/-- A positive number other than one as a power of the least possible number above one. -/
def primitiveBase (q : Rat) : Rat × Rat :=
  let (p, sign) : Rat × Rat := if q < 1 then (1 / q, -1) else (q, 1)
  let root (k : Nat) : Option (Rat × Nat) := (exactRoot p (k + 1)).map (·, k + 1)
  match (List.range maxBaseExponent).reverse.findSome? root with
  | some (r, k) => (r, sign * k)
  | none => (p, sign)

/-- The kernel of a base and a factor of its exponents. -/
def enclosedBase (c : Combination) : Making (Nat × Rat) := do
  match c.number? with
  | some q =>
    if 0 < q then
      let (r, k) := primitiveBase q
      return (← intern (.number r), k)
    else return (← enclose c, 1)
  | none => return (← enclose c, 1)

/-- A power of a combination. -/
def Combination.raise (c u : Combination) : Making Combination := do
  match u.number? with
  | some r => numericPower c r
  | none =>
    if c.number? = some 1 then return .number 1
    let (base, factor) ← enclosedBase c
    let mut result := Combination.number 1
    for (m, a) in u do
      let next ←
        if m.isEmpty then numericPower c a
        else match ← kernelAt base, ← appliedTo? .log [(m, 1)] with
          | .e, some v => numericPower v a
          | _, _ => pure (.kernel (← intern (.power base m)) (a * factor))
      result ← result.product next
    return result

/-- The constant `e` as a combination. -/
def eulerNumber : Making Combination := return .kernel (← intern .e) 1

/-- The constant `π` as a combination. -/
def circleNumber : Making Combination := return .kernel (← intern .pi) 1

/-- The exponential of a combination. -/
def exponential (u : Combination) : Making Combination := do (← eulerNumber).raise u

/-- The multiple of `π` that a combination is. -/
def multipleOfPi? (c : Combination) : Making (Option Rat) := do
  match c with
  | [] => return some 0
  | [([(i, 1)], q)] => return if (← kernelAt i) == .pi then some q else none
  | _ => return none

/-- The sine of a multiple of `π`, where it is a rational number. -/
def sineOfMultiple? (q : Rat) : Option Rat :=
  let r := q - 2 * (q / 2).floor
  [(0, 0), (1 / 6, 1 / 2), (1 / 2, 1), (5 / 6, 1 / 2), (1, 0), (7 / 6, -1 / 2), (3 / 2, -1),
    (11 / 6, -1 / 2)].lookup r

/-- The degree of a monomial in kernels with symbols. -/
def degree (symbolic : Array Bool) (m : Monomial) : Rat :=
  m.foldl (fun n (i, p) => if symbolic.getD i false then n + p else n) 0

/--
Whether a combination counts as negative: most of its terms are, or as many as not and its first
term of highest degree is.
-/
def isNegative (c : Combination) : Making Bool := do
  let symbolic := (← get).symbolic
  let negatives := (c.filter fun (_, a) => a < 0).length
  if c.length < 2 * negatives then return true
  else if 2 * negatives < c.length then return false
  else
    let top := c.foldl (fun best t =>
      match best with
      | none => some t
      | some b => if degree symbolic b.1 < degree symbolic t.1 then some t else some b) none
    return top.any fun (_, a) => a < 0

/-- A function with a kernel of its own. -/
def opaqueValue (f : Function) (args : List Combination) : Making Combination := do
  return .kernel (← intern (.apply f args)) 1

/-- An odd function, applied to an argument that does not count as negative. -/
def oddValue (f : Function) (u : Combination) : Making Combination := do
  if ← isNegative u then return (← opaqueValue f [u.neg]).neg
  else opaqueValue f [u]

/-- The sine of a combination. -/
def sine (u : Combination) : Making Combination := do
  match (← multipleOfPi? u).bind sineOfMultiple?, ← appliedTo? .asin u with
  | some q, _ => return .number q
  | none, some v => return v
  | none, none => oddValue .sin u

/-- The cosine of a combination. -/
def cosine (u : Combination) : Making Combination := do
  match (← multipleOfPi? u).bind fun q => sineOfMultiple? (q + 1 / 2), ← appliedTo? .acos u with
  | some q, _ => return .number q
  | none, some v => return v
  | none, none => if ← isNegative u then opaqueValue .cos [u.neg] else opaqueValue .cos [u]

/-- The tangent of a combination. -/
def tangent (u : Combination) : Making Combination := do
  match ← multipleOfPi? u, ← appliedTo? .atan u with
  | some q, _ =>
    if q.den = 1 then return []
    else if q.den = 2 then failure
    else if q.den = 4 then return .number (if (q - q.floor) = 1 / 4 then 1 else -1)
    else oddValue .tan u
  | none, some v => return v
  | none, none => oddValue .tan u

/-- The natural logarithm of a combination. -/
def logarithm (u : Combination) : Making Combination := do
  match u with
  | [] => failure
  | [([], 1)] => return []
  | [([(i, p)], 1)] =>
    if (← kernelAt i) == .e then return .number p else opaqueValue .log [u]
  | u => opaqueValue .log [u]

/-- The magnitude of a combination. -/
def magnitude (u : Combination) : Making Combination :=
  match u.number? with
  | some q => return .number (if q < 0 then -q else q)
  | none => opaqueValue .abs [u]

/-- The value of a function; a function of the wrong number of arguments has none. -/
def applyFunction (f : Function) (args : List Combination) : Making Combination := do
  match f, args with
  | .sin, [u] => sine u
  | .cos, [u] => cosine u
  | .tan, [u] => tangent u
  | .asin, [u] | .atan, [u] => if u.isEmpty then return [] else oddValue f u
  | .acos, [u] => if u.number? = some 1 then return [] else opaqueValue .acos [u]
  | .sqrt, [u] => numericPower u (1 / 2)
  | .abs, [u] => magnitude u
  | .log, [u] | .ln, [u] => logarithm u
  | .log, [u, b] | .ln, [u, b] => do (← logarithm u).ratio (← logarithm b)
  | .exp, [u] => exponential u
  | .atan2, [[], []] => failure
  | .atan2, [v, u] => opaqueValue .atan2 [v, u]
  | _, _ => failure

end Formulary.ClosedForm
