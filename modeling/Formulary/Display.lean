import Formulary.Number.Notation

/-!
# Displayed values

A value is shown to the user as zero, in fixed form with at most five places, or in scientific form
with two. `Shown.of` takes a double apart and decides which, on exact values; `Shown.text` writes
it and `Shown.value` is the number that the text denotes.
-/

namespace Formulary

open Formulary.Number

/-- How a finite value is shown. -/
inductive Shown where
  | zero
  /-- a number of units of `10 ^ -5` -/
  | fixed (negative : Bool) (units : Nat)
  /-- a number of three digits, and the exponent of the first of them -/
  | scientific (negative : Bool) (digits : Nat) (exponent : Int)
  deriving Repr, DecidableEq

/-- Below this magnitude, the double nearest to `0.0005`, small values are shown as zero. -/
def zeroBelow : Rat := mkRat 0x10624DD2F1A9FC (Nat.pow 2 63)

/-- From this magnitude on, the double nearest to `0.001`, values are shown in fixed form. -/
def fixedFrom : Rat := mkRat 0x10624DD2F1A9FC (Nat.pow 2 62)

/-- Below this magnitude values are shown in fixed form. -/
def fixedBelow : Rat := 10000

namespace Shown

/-- How many places are shown in fixed and in scientific form. -/
def fixedPlaces : Nat := 5

/-- How many places are shown in scientific form. -/
def scientificPlaces : Nat := 2

/-- How the value `± m · 2 ^ q` is shown, with small values rounded to zero on demand. -/
def of (roundSmall negative : Bool) (m : Nat) (q : Int) : Shown :=
  let (num, den) := Double.fraction m q
  let magnitude := mkRat num den
  if m = 0 ∨ (roundSmall ∧ magnitude < zeroBelow) then .zero
  else if magnitude < fixedFrom ∨ fixedBelow ≤ magnitude then
    let (n, e) := scientificUnits scientificPlaces m q
    .scientific negative n e
  else .fixed negative (fixedUnits fixedPlaces m q)

/-- The number that is shown. -/
def value : Shown → Rat
  | .zero => 0
  | .fixed negative n =>
    let v := mkRat n (Nat.pow 10 fixedPlaces)
    if negative then -v else v
  | .scientific negative n e =>
    let (num, den) :=
      if 0 ≤ e - scientificPlaces then (n * Nat.pow 10 (e - scientificPlaces).toNat, 1)
      else (n, Nat.pow 10 (scientificPlaces - e).toNat)
    let v := mkRat num den
    if negative then -v else v

/-- Decimals without zeros at their end, and without a point at their end. -/
def dropTrailing (s : List Char) : List Char :=
  ((s.reverse.dropWhile (· == '0')).dropWhile (· == '.')).reverse

/-- The text of a shown value. -/
def text : Shown → List Char
  | .zero => ['0']
  | .fixed negative n =>
    (if negative then ['-'] else []) ++ dropTrailing (fixedText fixedPlaces n)
  | .scientific negative n e =>
    (if negative then ['-'] else []) ++ scientificText scientificPlaces n e

end Shown

/-- The text that a value is displayed as. -/
def displayText (roundSmall : Bool) (x : Float) : String :=
  String.ofList <| match Double.ofFloat x with
    | .finite negative m q => (Shown.of roundSmall negative m q).text
    | special => specialText special

/-- The value with small magnitudes rounded to zero. -/
def roundSmall (x : Float) : Float :=
  match exactValue? x with
  | some v => if -zeroBelow < v ∧ v < zeroBelow then 0.0 else x
  | none => x

end Formulary
