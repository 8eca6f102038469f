import Formulary.Numeric.Settings

/-!
# Bisection

An interval at whose ends the function has different signs is halved until it is short enough or the
function is small enough. If there is no change of sign, the side with the smaller value is moved
outwards once; if there is none then either, the end with the smaller value is the best answer.
-/

namespace Formulary.Numeric

open Arithmetic

variable {α : Type} [Arithmetic α] {m : Type → Type} [Monad m]

/-- What the root finders answer. -/
inductive Outcome (α : Type) where
  /-- a root that a descent from a starting point found -/
  | newton (guess value : α)
  /-- a root that bisection found -/
  | bisection (value : α)
  /-- no root: the best of the points that were tried -/
  | bestEffort (value : α)
  deriving Repr, DecidableEq

namespace Outcome

/-- The point that is answered. -/
def value : Outcome α → α
  | newton _ v => v
  | bisection v => v
  | bestEffort v => v

/-- Whether the answer is a root. -/
def converged : Outcome α → Bool
  | bestEffort _ => false
  | _ => true

end Outcome

/-- Why the root finders have no answer. -/
inductive SearchFailure where
  | undefinedInterval
  | notFinite
  | zeroSlope
  deriving Repr, DecidableEq

/-- Whether two values do not differ in sign; what is no number differs from nothing. -/
def sameSign (fa fb : α) : Bool := !le (mul fa fb) zero

/-- The middle of an interval. -/
def middle (a b : α) : α := div (add a b) (ofRat 2)

/-- The halvings of an interval, given the value at its lower end. -/
def halve (s : Settings α) (f : α → m α) : (steps : Nat) → (a b fa : α) → m (Outcome α)
  | 0, a, b, _ => return .bisection (middle a b)
  | steps + 1, a, b, fa => do
    let c := middle a b
    let fc ← f c
    if lt (abs fc) s.tolerance || lt (sub b a) s.tolerance then return .bisection c
    else if lt (mul fa fc) zero then halve s f steps a c fa
    else halve s f steps c b fc

/-- An interval with the values at its ends. -/
structure Bracket (α : Type) where
  lower : α
  upper : α
  atLower : α
  atUpper : α

/--
The interval with one side moved outwards, the one with the smaller value, the upper on a tie.
-/
def widen (s : Settings α) (f : α → m α) (i : Bracket α) : m (Bracket α) := do
  if lessMagnitude (magnitude i.atLower) (magnitude i.atUpper) then
    let a := sub i.lower s.expansion
    return { i with lower := a, atLower := ← f a }
  else
    let b := add i.upper s.expansion
    return { i with upper := b, atUpper := ← f b }

/-- The end with the smaller value, if the function is finite at either end. -/
def bestEnd (i : Bracket α) : Except SearchFailure (Outcome α) :=
  if (magnitude i.atLower).isNone && (magnitude i.atUpper).isNone then .error .undefinedInterval
  else if lessMagnitude (magnitude i.atLower) (magnitude i.atUpper) then .ok (.bestEffort i.lower)
  else .ok (.bestEffort i.upper)

/-- The search on the interval of the settings. -/
def bisection (s : Settings α) (f : α → m α) : m (Except SearchFailure (Outcome α)) := do
  let (a, b) := s.bracket
  let fa ← f a
  let fb ← f b
  if eq fa zero then return .ok (.bisection a)
  else if eq fb zero then return .ok (.bisection b)
  else
    let halvings (i : Bracket α) : m (Except SearchFailure (Outcome α)) := do
      return .ok (← halve s f s.bisectionCap.toNat i.lower i.upper i.atLower)
    let i : Bracket α := ⟨a, b, fa, fb⟩
    if sameSign fa fb then
      let i ← widen s f i
      if sameSign i.atLower i.atUpper then return bestEnd i else halvings i
    else halvings i

end Formulary.Numeric
