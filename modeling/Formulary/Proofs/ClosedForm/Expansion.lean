import Formulary.ClosedForm.Polynomial
import Formulary.Proofs.Numeric.Arithmetic

/-!
# Polynomial expressions multiplied out

A list of coefficients and a polynomial expression both denote a polynomial. Without rounding,
multiplying an expression out keeps the polynomial (`Polynomial.denote_coefficients`), and so do the
operations on lists that it is made of.
-/

open scoped Polynomial

namespace Formulary.ClosedForm

open Arithmetic

namespace Coefficients

variable {α : Type} [Field α]

/-- The polynomial that coefficients denote. -/
noncomputable def denote : Coefficients α → α[X]
  | [] => 0
  | a :: p => .C a + .X * denote p

/-- The coefficients of the polynomial that a list denotes are those of the list. -/
lemma coeff_denote (p : Coefficients α) (n : ℕ) : p.denote.coeff n = p.getD n 0 := by
  induction p generalizing n with
  | nil => simp [denote]
  | cons a p ih =>
    cases n with
    | zero => simp [denote]
    | succ n => simp [denote, Polynomial.coeff_C_succ, ih]

/-- Lists of one length that denote the same polynomial are the same. -/
lemma eq_of_denote_eq {p q : Coefficients α} (hlength : p.length = q.length)
    (h : p.denote = q.denote) : p = q := by
  refine List.ext_getElem hlength fun n hp hq => ?_
  have hn := congrArg (Polynomial.coeff · n) h
  simpa [coeff_denote, hp, hq] using hn

/-- Zeros at the end do not change what coefficients denote. -/
lemma denote_append_zeros (p : Coefficients α) (n : ℕ) :
    denote (p ++ List.replicate n 0) = p.denote := by
  ext k
  rw [coeff_denote, coeff_denote]
  by_cases hk : k < p.length
  · rw [List.getD_append _ _ _ _ hk]
  · rw [List.getD_append_right _ _ _ _ (not_lt.1 hk), List.getD_eq_default _ _ (not_lt.1 hk)]
    simp

variable [LinearOrder α] [Arithmetic α] [ExactArithmetic α]

/-- Coefficients are added as polynomials are. -/
lemma denote_add (p q : Coefficients α) : (p.add q).denote = p.denote + q.denote := by
  induction p, q using add.induct with
  | case1 q => simp [add, denote]
  | case2 p hp => cases p <;> simp_all [add, denote]
  | case3 a p b q ih =>
    simp only [add, denote, ih, ExactArithmetic.add_eq, map_add]
    ring

/-- Coefficients are multiplied by a number as polynomials are. -/
lemma denote_scale (c : α) (p : Coefficients α) : (p.scale c).denote = .C c * p.denote := by
  induction p with
  | nil => simp [scale, denote]
  | cons a p ih =>
    rw [scale, List.map_cons, denote, ← scale, ih, denote, ExactArithmetic.mul_eq, map_mul]
    ring

/-- Coefficients change their signs as polynomials do. -/
lemma denote_neg (p : Coefficients α) : p.neg.denote = -p.denote := by
  induction p with
  | nil => simp [neg, denote]
  | cons a p ih =>
    rw [neg, List.map_cons, denote, ← neg, ih, denote, ExactArithmetic.neg_eq, map_neg]
    ring

/-- Coefficients are subtracted as polynomials are. -/
lemma denote_sub (p q : Coefficients α) : (p.sub q).denote = p.denote - q.denote := by
  rw [sub, denote_add, denote_neg, sub_eq_add_neg]

/-- Coefficients are multiplied as polynomials are. -/
lemma denote_mul (p q : Coefficients α) : (p.mul q).denote = p.denote * q.denote := by
  induction p with
  | nil => simp [mul, denote]
  | cons a p ih =>
    rw [mul, denote_add, denote_scale, denote, ih, denote, ExactArithmetic.zero_eq, map_zero]
    ring

/-- Coefficients are raised to powers as polynomials are. -/
lemma denote_pow (p : Coefficients α) (n : ℕ) : (p.pow n).denote = p.denote ^ n := by
  induction n with
  | zero => simp [pow, denote]
  | succ n ih => rw [pow, denote_mul, ih, pow_succ']

/-- Leaving out zeros at the end does not change what coefficients denote. -/
lemma denote_trim (p : Coefficients α) : p.trim.denote = p.denote := by
  induction p with
  | nil => rfl
  | cons a p ih =>
    rw [denote, ← ih, trim]
    split
    · rename_i hnil
      rw [hnil]
      split
      · rename_i ha
        rw [ExactArithmetic.eq_iff, ExactArithmetic.zero_eq] at ha
        simp [denote, ha]
      · rfl
    · rfl

end Coefficients

namespace Polynomial

/-- The polynomial that a polynomial expression denotes. -/
noncomputable def denote {α : Type} [Field α] : Polynomial α → α[X]
  | .number c => .C c
  | .unknown => .X
  | .add p q => p.denote + q.denote
  | .sub p q => p.denote - q.denote
  | .mul p q => p.denote * q.denote
  | .pow p n => p.denote ^ n

variable {α : Type} [Field α] [LinearOrder α] [Arithmetic α] [ExactArithmetic α]

/-- A repeated product is a power. -/
lemma powNat_eq (c : α) (n : ℕ) : powNat c n = c ^ n := by
  induction n with
  | zero => simp [powNat]
  | succ n ih => rw [powNat, ih, ExactArithmetic.mul_eq, pow_succ']

/-- The value of an expression is that of its polynomial. -/
theorem eval_denote (p : Polynomial α) (x : α) : p.denote.eval x = p.value x := by
  induction p with
  | number c => simp [denote, value]
  | unknown => simp [denote, value]
  | add p q hp hq => simp [denote, value, hp, hq]
  | sub p q hp hq => simp [denote, value, hp, hq]
  | mul p q hp hq => simp [denote, value, hp, hq]
  | pow p n hp => simp [denote, value, hp, powNat_eq]

/-- Multiplying out does not change what an expression denotes. -/
lemma denote_expand (p : Polynomial α) : p.expand.denote = p.denote := by
  induction p with
  | number c => simp [expand, denote, Coefficients.denote]
  | unknown => simp [expand, denote, Coefficients.denote]
  | add p q hp hq => rw [expand, Coefficients.denote_add, hp, hq, denote]
  | sub p q hp hq => rw [expand, Coefficients.denote_sub, hp, hq, denote]
  | mul p q hp hq => rw [expand, Coefficients.denote_mul, hp, hq, denote]
  | pow p n hp => rw [expand, Coefficients.denote_pow, hp, denote]

/-- The coefficients of an expression denote its polynomial. -/
theorem denote_coefficients (p : Polynomial α) : p.coefficients.denote = p.denote := by
  rw [coefficients, Coefficients.denote_trim, denote_expand]

end Polynomial
end Formulary.ClosedForm
