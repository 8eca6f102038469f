import Formulary.Numeric.Arithmetic

/-!
# Choosing among roots

When an equation has several roots, the one that a user most likely means is chosen: quantities are
seldom negative, and small ones are more likely than large ones. Two rules say so.
`onlyNonNegative` is the rule for the two roots of a quadratic equation, `leastNonNegative` the one
for any list of roots.
-/

namespace Formulary.ClosedForm

variable {α : Type} [Arithmetic α]

open Arithmetic

/-- The first element of a list than which no later one has a lesser key. -/
def firstLeast (key : α → α) : List α → Option α
  | [] => none
  | r :: rs => some (rs.foldl (fun best r => if lt (key r) (key best) then r else best) r)

/-- The roots that are not negative. -/
def nonNegative (roots : List α) : List α := roots.filter fun r => le zero r

/-- The only root that is not negative, or else the one nearest to zero. -/
def onlyNonNegative (roots : List α) : Option α :=
  match nonNegative roots with
  | [r] => some r
  | _ => firstLeast abs roots

/-- The least root that is not negative, or else the one nearest to zero. -/
def leastNonNegative (roots : List α) : Option α :=
  match nonNegative roots with
  | [] => firstLeast abs roots
  | rs => firstLeast (fun r => r) rs

end Formulary.ClosedForm
