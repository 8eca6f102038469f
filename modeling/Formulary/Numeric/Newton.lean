import Formulary.Numeric.Settings

/-!
# Newton's method

A descent follows the tangent from a starting point, with the slope taken as a forward difference.
It ends at a point where the function is below the tolerance, or at one that the last step moved by
less than that; it fails where the function or the slope is not finite, where the slope is flat,
and when the steps run out. The function is evaluated in a monad, so that its evaluations can be
watched.
-/

namespace Formulary.Numeric

open Arithmetic

variable {α : Type} [Arithmetic α] {m : Type → Type} [Monad m]

/-- How a descent ends. -/
inductive Descent (α : Type) where
  | root (x : α)
  | failed
  /-- the slope is zero although the settings do not count that as flat -/
  | zeroSlope
  deriving Repr, DecidableEq

/-- The step of the forward difference at a point. -/
def differenceStep (x : α) : α :=
  let least := ofRat (1 / 100000000)
  let relative := mul (abs x) (ofRat (1 / 1000000))
  if lt least relative then relative else least

/-- The slope between a point and one a step away, given the values at both. -/
def slope (h fx fxh : α) : α := div (sub fxh fx) h

/-- A descent from a point with a number of steps left. -/
def descend (s : Settings α) (f : α → m α) : (steps : Nat) → α → m (Descent α)
  | 0, _ => return .failed
  | steps + 1, x => do
    let fx ← f x
    if !isFinite fx then return .failed
    else if lt (abs fx) s.tolerance then return .root x
    else
      let h := differenceStep x
      let fxh ← f (add x h)
      let d := slope h fx fxh
      if !isFinite d || lt (abs d) s.flatSlope then return .failed
      else if eq d zero then return .zeroSlope
      else
        let next := sub x (div fx d)
        if lt (abs (sub next x)) s.tolerance then return .root next
        else descend s f steps next

/-- A descent from a point with as many steps as the settings allow. -/
def newton (s : Settings α) (f : α → m α) (start : α) : m (Descent α) :=
  descend s f s.newtonCap.toNat start

end Formulary.Numeric
