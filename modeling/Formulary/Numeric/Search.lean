import Formulary.Numeric.Bisection
import Formulary.Numeric.Newton

/-!
# Searching for a root

Newton's method is tried from each starting point in turn, and bisection if no descent ends. The
descents that failed are reported with the answer.
-/

namespace Formulary.Numeric

open Arithmetic

variable {α : Type} [Arithmetic α] {m : Type → Type} [Monad m]

/-- A search: the starting points whose descents failed, and the answer. -/
structure Search (α : Type) where
  failedGuesses : List α
  result : Except SearchFailure (Outcome α)

/-- The search from the starting points that are left. -/
def searchFrom (s : Settings α) (f : α → m α) : List α → m (Search α)
  | [] => do
    match ← bisection s f with
    | .ok o => return ⟨[], if isFinite o.value then .ok o else .error .notFinite⟩
    | .error e => return ⟨[], .error e⟩
  | guess :: guesses => do
    let failed : m (Search α) := do
      let rest ← searchFrom s f guesses
      return { rest with failedGuesses := guess :: rest.failedGuesses }
    match ← newton s f guess with
    | .root x => if isFinite x then return ⟨[], .ok (.newton guess x)⟩ else failed
    | .failed => failed
    | .zeroSlope => return ⟨[], .error .zeroSlope⟩

/-- The search for a root of a function. -/
def search (s : Settings α) (f : α → m α) : m (Search α) := searchFrom s f s.guesses

end Formulary.Numeric
