import Mathlib
import Formulary.Numeric.Arithmetic

/-!
# Arithmetic without rounding

The root finders and the strategies are written for any arithmetic. Where its operations are those
of an ordered field and all numbers are finite (`ExactArithmetic`), as they are for rational and for
real numbers, what is worked out is what is meant.
-/

namespace Formulary

open Arithmetic

/-- Arithmetic whose operations are those of an ordered field. -/
class ExactArithmetic (α : Type) [Field α] [LinearOrder α] [Arithmetic α] : Prop where
  ofRat_eq (q : ℚ) : (ofRat q : α) = q
  add_eq (a b : α) : Arithmetic.add a b = a + b
  sub_eq (a b : α) : Arithmetic.sub a b = a - b
  mul_eq (a b : α) : Arithmetic.mul a b = a * b
  div_eq (a b : α) : Arithmetic.div a b = a / b
  neg_eq (a : α) : Arithmetic.neg a = -a
  abs_eq (a : α) : Arithmetic.abs a = |a|
  lt_iff (a b : α) : lt a b = true ↔ a < b
  le_iff (a b : α) : le a b = true ↔ a ≤ b
  eq_iff (a b : α) : eq a b = true ↔ a = b
  isFinite_eq (a : α) : isFinite a = true

attribute [simp] ExactArithmetic.ofRat_eq ExactArithmetic.add_eq ExactArithmetic.sub_eq
  ExactArithmetic.mul_eq ExactArithmetic.div_eq ExactArithmetic.neg_eq ExactArithmetic.abs_eq
  ExactArithmetic.lt_iff ExactArithmetic.le_iff ExactArithmetic.eq_iff ExactArithmetic.isFinite_eq

namespace ExactArithmetic

variable {α : Type} [Field α] [LinearOrder α] [Arithmetic α] [ExactArithmetic α]

/-- In exact arithmetic, zero is zero. -/
@[simp] lemma zero_eq : (zero : α) = 0 := by simp [zero]

/-- In exact arithmetic, one is one. -/
@[simp] lemma one_eq : (one : α) = 1 := by simp [one]

/-- In exact arithmetic, what is not at most as large is larger. -/
@[simp] lemma le_eq_false {a b : α} : le a b = false ↔ b < a := by
  rw [Bool.eq_false_iff, ne_eq, le_iff, not_le]

/-- In exact arithmetic, what does not compare as equal is different. -/
@[simp] lemma eq_eq_false {a b : α} : eq a b = false ↔ a ≠ b := by
  rw [Bool.eq_false_iff, ne_eq, eq_iff]

end ExactArithmetic

/-- Rational numbers are exact. -/
instance : ExactArithmetic ℚ where
  ofRat_eq _ := rfl
  add_eq _ _ := rfl
  sub_eq _ _ := rfl
  mul_eq _ _ := rfl
  div_eq _ _ := rfl
  neg_eq _ := rfl
  abs_eq q := by
    show (if q < 0 then -q else q) = |q|
    split
    · exact (abs_of_neg ‹_›).symm
    · exact (abs_of_nonneg (not_lt.1 ‹_›)).symm
  lt_iff _ _ := decide_eq_true_iff
  le_iff _ _ := decide_eq_true_iff
  eq_iff _ _ := decide_eq_true_iff
  isFinite_eq _ := rfl

/-- Exact real numbers, all of which are finite. -/
noncomputable instance : RadicalArithmetic ℝ where
  ofRat q := q
  add := (· + ·)
  sub := (· - ·)
  mul := (· * ·)
  div := (· / ·)
  neg := (- ·)
  abs r := |r|
  lt r t := decide (r < t)
  le r t := decide (r ≤ t)
  eq r t := decide (r = t)
  isFinite _ := true
  sqrt := Real.sqrt

/-- The square root of the reals is the square root. -/
@[simp] lemma sqrt_eq (r : ℝ) : RadicalArithmetic.sqrt r = √r := rfl

/-- Real numbers are exact. -/
instance : ExactArithmetic ℝ where
  ofRat_eq _ := rfl
  add_eq _ _ := rfl
  sub_eq _ _ := rfl
  mul_eq _ _ := rfl
  div_eq _ _ := rfl
  neg_eq _ := rfl
  abs_eq _ := rfl
  lt_iff _ _ := decide_eq_true_iff
  le_iff _ _ := decide_eq_true_iff
  eq_iff _ _ := decide_eq_true_iff
  isFinite_eq _ := rfl

end Formulary
