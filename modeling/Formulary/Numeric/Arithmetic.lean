import Formulary.Number.Double

/-!
# Arithmetic for root finding

The operations that the root finders need, so that they run on doubles and can be reasoned about on
exact numbers. Comparisons are Boolean: on doubles all of them fail on what is no number.
-/

namespace Formulary

/-- Numbers that can be added, multiplied, divided and compared. -/
class Arithmetic (α : Type) where
  /-- the number nearest to a rational one -/
  ofRat : Rat → α
  add : α → α → α
  sub : α → α → α
  mul : α → α → α
  div : α → α → α
  neg : α → α
  abs : α → α
  lt : α → α → Bool
  le : α → α → Bool
  eq : α → α → Bool
  isFinite : α → Bool

namespace Arithmetic

variable {α : Type} [Arithmetic α]

/-- The number zero. -/
def zero : α := ofRat 0

/-- The number one. -/
def one : α := ofRat 1

/-- The magnitude of a number; nothing stands for an infinite one. -/
def magnitude (v : α) : Option α := if isFinite v then some (abs v) else none

/-- Whether one magnitude is less than another; an infinite one is less than none. -/
def lessMagnitude : Option α → Option α → Bool
  | some a, some b => lt a b
  | some _, none => true
  | none, _ => false

end Arithmetic

/-- Numbers with square roots. -/
class RadicalArithmetic (α : Type) extends Arithmetic α where
  sqrt : α → α

/-- Doubles with their own comparisons. -/
instance : Arithmetic Float where
  ofRat := Number.floatOfRat
  add := (· + ·)
  sub := (· - ·)
  mul := (· * ·)
  div := (· / ·)
  neg := (- ·)
  abs := Float.abs
  lt x y := x < y
  le x y := x ≤ y
  eq x y := x == y
  isFinite := Float.isFinite

instance : RadicalArithmetic Float where
  sqrt := Float.sqrt

/-- Exact rational numbers, all of which are finite. -/
instance : Arithmetic Rat where
  ofRat q := q
  add := (· + ·)
  sub := (· - ·)
  mul := (· * ·)
  div := (· / ·)
  neg := (- ·)
  abs q := if q < 0 then -q else q
  lt p q := p < q
  le p q := p ≤ q
  eq p q := p = q
  isFinite _ := true

end Formulary
