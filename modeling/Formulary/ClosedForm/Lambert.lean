/-!
# The Lambert function

The solutions `w` of `w · e ^ w = z` for real `z`: the upper branch has one from `-1 / e` on, and
the lower branch has another between `-1 / e` and zero. With them equations are solved in which the
unknown stands both inside and outside of an exponential (`linearWithExponential`,
`productWithExponential`).
-/

namespace Formulary.ClosedForm.Lambert

/--
Steps towards the solution of `w · e ^ w = z` from a first approximation, each of third order.
-/
def refine (z : Float) : (fuel : Nat) → Float → Float
  | 0, w => w
  | fuel + 1, w =>
    let e := w.exp
    let f := w * e - z
    if f == 0 || w == -1.0 then w
    else
      let next := w - f / (e * (w + 1.0) - (w + 2.0) * f / (2.0 * w + 2.0))
      if next == w || !next.isFinite then w else refine z fuel next

/-- How far `z` is above `-1 / e`, on a scale where the branches are linear near that point. -/
def distance (z : Float) : Float := (2.0 * (2.718281828459045 * z + 1.0)).sqrt

/-- The first terms of the power series of a branch near `-1 / e`. -/
def nearBranchPoint (p : Float) : Float := -1.0 + p - p * p / 3.0 + 11.0 / 72.0 * p * p * p

/-- Whether `z` is so close to `-1 / e` that the branches meet. -/
def isBranchPoint (z : Float) : Bool := (2.718281828459045 * z + 1.0).abs < 1e-14

/-- The number of steps of a refinement. -/
def steps : Nat := 60

/-- The upper branch. -/
def upper (z : Float) : Option Float :=
  if isBranchPoint z then some (-1.0)
  else if !(2.718281828459045 * z + 1.0 > 0) then none
  else if z < -0.25 then some (refine z steps (nearBranchPoint (distance z)))
  else if z > 3.0 then some (refine z steps (z.log - z.log.log))
  else some (refine z steps (z / (1.0 + z)))

/-- The lower branch. -/
def lower (z : Float) : Option Float :=
  if isBranchPoint z || !(2.718281828459045 * z + 1.0 > 0 && z < 0) then none
  else if z < -0.25 then some (refine z steps (nearBranchPoint (-(distance z))))
  else
    let l := (-z).log
    some (refine z steps (l - (-l).log))

/-- All real solutions of `w · e ^ w = z`. -/
def solutions (z : Float) : List Float := (upper z).toList ++ (lower z).toList

/-- The real solutions of `a · x + b + c · e ^ (k · x) = 0`. -/
def linearWithExponential (a b c k : Float) : List Float :=
  (solutions (c * k / a * (-k * b / a).exp)).map fun w => -w / k - b / a

/-- The real solutions of `(a · x + b) · e ^ (k · x) + c = 0`. -/
def productWithExponential (a b c k : Float) : List Float :=
  (solutions (-c * k / a * (k * b / a).exp)).map fun w => w / k - b / a

/-- The real solutions of `a · x ^ n · e ^ (k · x) + c = 0` for a positive or negative `n`. -/
def powerWithExponential (a n c k : Float) : List Float :=
  let size := (c / a).abs.pow (1.0 / n)
  -- Both signs of the root are tried, and the equation decides.
  let candidates := [-size, size].flatMap fun c => productWithExponential 1.0 0.0 c (k / n)
  candidates.filter fun x =>
    let v := a * x.pow n * (k * x).exp
    (v + c).abs ≤ 1e-8 * c.abs

end Formulary.ClosedForm.Lambert
