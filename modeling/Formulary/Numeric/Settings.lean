import Formulary.Numeric.Arithmetic

/-!
# Settings of the root finders
-/

namespace Formulary.Numeric

/-- Iteration caps, tolerances, starting points and the search interval. -/
structure Settings (α : Type) where
  /-- the most steps of one descent; a negative cap allows none -/
  newtonCap : Int
  /-- the most halvings of the interval; a negative cap allows none -/
  bisectionCap : Int
  tolerance : α
  /-- slopes of lesser magnitude end a descent -/
  flatSlope : α
  guesses : List α
  bracket : α × α
  /-- by how much one side of the interval is widened -/
  expansion : α

/-- The settings that hold unless others are given. -/
def Settings.standard {α : Type} [Arithmetic α] : Settings α where
  newtonCap := 50
  bisectionCap := 30
  tolerance := Arithmetic.ofRat (1 / 10000000000)
  flatSlope := Arithmetic.ofRat (1 / 10000000000)
  guesses := [Arithmetic.ofRat 1, Arithmetic.ofRat 0]
  bracket := (Arithmetic.ofRat (-100), Arithmetic.ofRat 100)
  expansion := Arithmetic.ofRat 900

end Formulary.Numeric
