import Formulary.ClosedForm.Polynomial
import Formulary.Proofs.Number.Order

/-!
# How near the roots come

The root of a linear equation and those of a quadratic one are worked out in doubles. What the
equation is at such a root is not zero, but it is small against the size of the coefficients
(`abs_linear_le`, `abs_quadratic_le`).
-/

namespace Formulary.ClosedForm

open Number Arithmetic

/-- The quotient that is the root of a linear equation. -/
lemma abs_linear_le {a b v : ℝ} (ha : a ≠ 0)
    (hv : |v - -b / a| ≤ roundoff * |-b / a| + underflow) :
    |a * v + b| ≤ roundoff * |b| + |a| * underflow := by
  have hvalue : a * v + b = a * (v - -b / a) := by
    field_simp
    ring
  have hsize : |a| * |-b / a| = |b| := by rw [← abs_mul, mul_div_cancel₀ _ ha, abs_neg]
  rw [hvalue, abs_mul]
  calc |a| * |v - -b / a| ≤ |a| * (roundoff * |-b / a| + underflow) :=
        mul_le_mul_of_nonneg_left hv (abs_nonneg a)
    _ = roundoff * (|a| * |-b / a|) + |a| * underflow := by ring
    _ = roundoff * |b| + |a| * underflow := by rw [hsize]

/-- Two approximations in a row. -/
lemma abs_sub_le_add {x y z d e : ℝ} (h : |x - y| ≤ d) (h' : |y - z| ≤ e) : |x - z| ≤ d + e :=
  (abs_sub_le x y z).trans (add_le_add h h')

/-- What is near something small is small. -/
lemma abs_le_add {x y d e : ℝ} (h : |x - y| ≤ d) (h' : |y| ≤ e) : |x| ≤ d + e := by
  simpa using abs_sub_le_add h (z := 0) (by simpa using h')

section
-- The errors of an operation, relative and absolute, and a number above the coefficients.
variable {u w q : ℝ} (hu : 0 < u) (hu1 : u ≤ 1 / 1000) (hq : 0 < q) (hw : w ≤ u * q)
  (hw2 : w ≤ u * q ^ 2)

variable {a b c B A P D S M N d v : ℝ}

include hu hu1 hw2 in
/-- The discriminant. -/
lemma abs_discriminant_sub_le (hwc : w * |c| ≤ u * q ^ 2) (hsize : b ^ 2 + 4 * |a * c| ≤ q ^ 2)
    (hB : |B - b * b| ≤ u * |b * b| + w) (hA : |A - 4 * a| ≤ u * |4 * a| + w)
    (hP : |P - A * c| ≤ u * |A * c| + w) (hD : |D - (B - P)| ≤ u * |B - P| + w) :
    |D - (b ^ 2 - 4 * a * c)| ≤ 10 * (u * q ^ 2) := by
  have hq : 0 ≤ q ^ 2 := sq_nonneg q
  have hbb : |b * b| ≤ q ^ 2 := by
    rw [abs_mul_self]
    nlinarith [abs_nonneg (a * c)]
  have hac : |4 * a| * |c| ≤ q ^ 2 := by
    rw [abs_mul, mul_assoc, ← abs_mul, abs_of_pos (by norm_num : (0 : ℝ) < 4)]
    nlinarith [sq_nonneg b]
  have hdisc : |b * b - 4 * a * c| ≤ q ^ 2 := by
    have h4 : |4 * a * c| = 4 * |a * c| := by
      rw [mul_assoc, abs_mul, abs_of_pos (by norm_num : (0 : ℝ) < 4)]
    calc |b * b - 4 * a * c| ≤ |b * b| + |4 * a * c| := abs_sub _ _
      _ = b ^ 2 + 4 * |a * c| := by rw [abs_mul_self, h4, sq]
      _ ≤ q ^ 2 := hsize
  -- Each of the four operations adds a few times `u * q ^ 2`: first `b * b`, then `4 * a * c` with
  -- its two products, then their difference.
  have hx : u * q ^ 2 ≤ q ^ 2 / 1000 := by nlinarith
  have hB : |B - b * b| ≤ 2 * (u * q ^ 2) := by nlinarith
  have hAc : |A * c - 4 * a * c| ≤ 2 * (u * q ^ 2) := by
    rw [← sub_mul, abs_mul]
    calc |A - 4 * a| * |c| ≤ (u * |4 * a| + w) * |c| := mul_le_mul_of_nonneg_right hA (abs_nonneg c)
      _ = u * (|4 * a| * |c|) + w * |c| := by ring
      _ ≤ 2 * (u * q ^ 2) := by nlinarith
  have hAc' : |A * c| ≤ 2 * q ^ 2 := by
    have : |4 * a * c| ≤ q ^ 2 := by rwa [abs_mul]
    exact (abs_le_add hAc this).trans (by linarith)
  have hP : |P - 4 * a * c| ≤ 5 * (u * q ^ 2) := by
    refine (abs_sub_le_add hP hAc).trans ?_
    nlinarith
  have hBP : |B - P - (b * b - 4 * a * c)| ≤ 7 * (u * q ^ 2) := by
    have : B - P - (b * b - 4 * a * c) = (B - b * b) - (P - 4 * a * c) := by ring
    rw [this]
    exact (abs_sub _ _).trans (by linarith)
  have hBP' : |B - P| ≤ 2 * q ^ 2 := (abs_le_add hBP hdisc).trans (by linarith)
  rw [sq b]
  refine (abs_sub_le_add hD hBP).trans ?_
  nlinarith

include hu hu1 hq hw in
/-- The square of its root. -/
lemma abs_root_sub_le {D₀ : ℝ} (h0 : 0 ≤ D) (hD : |D - D₀| ≤ 10 * (u * q ^ 2)) (hD₀ : D₀ ≤ q ^ 2)
    (hS : |S - √D| ≤ u * |√D| + w) : |S| ≤ 2 * q ∧ |S ^ 2 - D₀| ≤ 21 * (u * q ^ 2) := by
  have hx : u * q ^ 2 ≤ q ^ 2 / 1000 := by nlinarith [sq_nonneg q]
  have hroot : √D ≤ 3 / 2 * q := by
    rw [Real.sqrt_le_left (by positivity)]
    have := (abs_le.1 hD).2
    nlinarith
  have hroot0 := Real.sqrt_nonneg D
  rw [abs_of_nonneg hroot0] at hS
  have hS : |S - √D| ≤ 3 * (u * q) := by nlinarith
  have huq : u * q ≤ q / 1000 := by nlinarith
  have hS2 : |S| ≤ 2 * q := by
    refine (abs_le_add hS (abs_of_nonneg hroot0).le).trans ?_
    linarith
  refine ⟨hS2, ?_⟩
  have hsum : |S + √D| ≤ 7 / 2 * q := by
    refine (abs_add_le _ _).trans ?_
    rw [abs_of_nonneg hroot0]
    linarith
  have hsquare : |S ^ 2 - D| ≤ 11 * (u * q ^ 2) := by
    -- an error of `u * q` in the root is one of `u * q ^ 2` in its square
    have hfactor : S ^ 2 - D = (S - √D) * (S + √D) := by
      nlinarith [Real.sq_sqrt h0]
    rw [hfactor, abs_mul]
    calc |S - √D| * |S + √D| ≤ 3 * (u * q) * (7 / 2 * q) :=
          mul_le_mul hS hsum (abs_nonneg _) (by positivity)
      _ ≤ 11 * (u * q ^ 2) := by nlinarith [mul_pos hu (pow_pos hq 2)]
  exact (abs_sub_le_add hsquare hD).trans (by linarith)

include hu hu1 in
/-- Twice the leading coefficient. -/
lemma abs_double_le (ha : a ≠ 0) (hwa : w ≤ u * |2 * a|) (hd : |d - 2 * a| ≤ u * |2 * a| + w) :
    d ≠ 0 ∧ |2 * a / d| ≤ 2 ∧ |2 * a / d - 1| ≤ 4 * u := by
  have ha2 : 0 < |2 * a| := abs_pos.2 (mul_ne_zero two_ne_zero ha)
  have hd : |d - 2 * a| ≤ 2 * u * |2 * a| := by linarith
  have hd2 : |2 * a| ≤ 2 * |d| := by
    have hd' : |2 * a - d| ≤ 2 * u * |2 * a| := by rwa [abs_sub_comm]
    have := abs_le_add hd' le_rfl
    nlinarith
  have hd0 : 0 < |d| := by linarith
  refine ⟨abs_pos.1 hd0, ?_, ?_⟩
  · rw [abs_div, div_le_iff₀ hd0]
    exact hd2
  · have : 2 * a / d - 1 = -(d - 2 * a) / d := by
      field_simp [abs_pos.1 hd0]
      ring
    rw [this, abs_div, abs_neg, div_le_iff₀ hd0]
    nlinarith

include hu hu1 hq hw in
/-- The quotient that is a root, times twice the leading coefficient. -/
lemma abs_twice_root_sub_le (hd : d ≠ 0) (hratio : |2 * a / d| ≤ 2)
    (hratio1 : |2 * a / d - 1| ≤ 4 * u) (hwa : |2 * a| * w ≤ u * q) (hM : |M| ≤ 3 * q)
    (hN : |N - M| ≤ u * |M| + w) (hv : |v - N / d| ≤ u * |N / d| + w) : |2 * a * v - M| ≤ 29 * (u * q) := by
  have huq : u * q ≤ q / 1000 := by nlinarith
  have hN' : |N - M| ≤ 4 * (u * q) := by nlinarith
  have hN4 : |N| ≤ 4 * q := (abs_le_add hN' hM).trans (by linarith)
  -- Two errors: the denominator `d` is not `2 * a`, and the quotient `N / d` is rounded to `v`.
  have hsplit : 2 * a * v - N = N * (2 * a / d - 1) + 2 * a * (v - N / d) := by
    field_simp
    ring
  have hfirst : |N * (2 * a / d - 1)| ≤ 16 * (u * q) := by
    rw [abs_mul]
    calc |N| * |2 * a / d - 1| ≤ 4 * q * (4 * u) :=
          mul_le_mul hN4 hratio1 (abs_nonneg _) (by positivity)
      _ = 16 * (u * q) := by ring
  have hsecond : |2 * a * (v - N / d)| ≤ 9 * (u * q) := by
    rw [abs_mul]
    calc |2 * a| * |v - N / d| ≤ |2 * a| * (u * |N / d| + w) :=
          mul_le_mul_of_nonneg_left hv (abs_nonneg _)
      _ = u * (|N| * |2 * a / d|) + |2 * a| * w := by
          rw [abs_div, abs_div]
          ring
      _ ≤ u * (4 * q * 2) + u * q := by
          gcongr
      _ = 9 * (u * q) := by ring
  have hsum : |2 * a * v - N| ≤ 25 * (u * q) := by
    rw [hsplit]
    exact (abs_add_le _ _).trans (by linarith)
  exact (abs_sub_le_add hsum hN').trans (by linarith)

include hu hu1 in
/-- What a quadratic equation is at a value that is near a root of it. -/
lemma abs_quadratic_le (hM : (M + b) ^ 2 = S ^ 2) (hS : |S| ≤ 2 * q)
    (hS2 : |S ^ 2 - (b ^ 2 - 4 * a * c)| ≤ 21 * (u * q ^ 2)) (hv : |2 * a * v - M| ≤ 29 * (u * q)) :
    |a| * |a * v ^ 2 + b * v + c| ≤ 35 * (u * q ^ 2) := by
  -- Completing the square: with `M + b = ± S` the error of the discriminant and that of `2 * a * v`
  -- are all that is left.
  have hcomplete : 4 * (a * (a * v ^ 2 + b * v + c)) =
      S ^ 2 - (b ^ 2 - 4 * a * c) + (2 * (M + b) * (2 * a * v - M) + (2 * a * v - M) ^ 2) := by
    rw [← hM]
    ring
  have hMb : |M + b| ≤ 2 * q := by
    rwa [← (sq_eq_sq_iff_abs_eq_abs _ _).1 hM] at hS
  have hlinear : |2 * (M + b) * (2 * a * v - M)| ≤ 116 * (u * q ^ 2) := by
    rw [abs_mul, abs_mul, abs_of_pos (by norm_num : (0 : ℝ) < 2)]
    calc 2 * |M + b| * |2 * a * v - M| ≤ 2 * (2 * q) * (29 * (u * q)) :=
          mul_le_mul (by linarith) hv (abs_nonneg _) (by linarith [abs_nonneg (M + b)])
      _ = 116 * (u * q ^ 2) := by ring
  have hsquare : |(2 * a * v - M) ^ 2| ≤ u * q ^ 2 := by
    rw [abs_pow]
    calc |2 * a * v - M| ^ 2 ≤ (29 * (u * q)) ^ 2 := pow_le_pow_left₀ (abs_nonneg _) hv 2
      _ = 841 * u * (u * q ^ 2) := by ring
      _ ≤ u * q ^ 2 := by nlinarith [mul_nonneg hu.le (sq_nonneg q)]
  have hsum : |4 * (a * (a * v ^ 2 + b * v + c))| ≤ 140 * (u * q ^ 2) := by
    rw [hcomplete]
    refine (abs_add_le _ _).trans ((add_le_add_right (abs_add_le _ _) _).trans ?_)
    nlinarith [mul_nonneg hu.le (sq_nonneg q)]
  rw [abs_mul, abs_mul, abs_of_pos (by norm_num : (0 : ℝ) < 4)] at hsum
  linarith

end

/-- The root of a linear equation with finite coefficients. -/
lemma linear_near {a b : Float} (ha : a.isFinite) (hb : b.isFinite) (ha0 : toReal a ≠ 0)
    (hv : (-b / a).isFinite) :
    |toReal a * toReal (-b / a) + toReal b| ≤ roundoff * |toReal b| + |toReal a| * underflow := by
  obtain ⟨hneg, hvalue⟩ := toReal_neg hb
  have h := (rounds_div hneg ha ha0).near hv
  rw [hvalue] at h
  exact abs_linear_le ha0 h

/-- A roundoff of a power of two is a power of two. -/
lemma roundoff_mul (k : ℤ) : roundoff * 2 ^ k = 2 ^ (k - 53) := by
  rw [roundoff, ← zpow_add₀ two_ne_zero, neg_add_eq_sub]

/-- An underflow of a power of two is a power of two. -/
lemma underflow_mul (k : ℤ) : underflow * 2 ^ k = 2 ^ (k - 1075) := by
  rw [underflow, ← zpow_add₀ two_ne_zero, neg_add_eq_sub]

/-- Powers of two increase with their exponents. -/
lemma two_zpow_le_of_le {j k : ℤ} (h : j ≤ k) : (2 : ℝ) ^ j ≤ 2 ^ k :=
  zpow_le_zpow_right₀ one_le_two h

/-- The coefficients of a quadratic equation whose root is not too far from its place. -/
structure Balanced (a b c : ℝ) : Prop where
  low : 2 ^ (-300 : ℤ) ≤ |a|
  high : |a| ≤ 2 ^ (300 : ℤ)
  size : b ^ 2 + 4 * |a * c| ≤ 2 ^ (25 : ℤ) * |a|

/-- That a number bounds the coefficients and is not too close to zero. -/
structure Dominates (q a b c : ℝ) : Prop where
  pos : 0 < q
  sq_eq : q ^ 2 = b ^ 2 + 4 * |a * c| + 2 ^ (-500 : ℤ)

/-- Some number dominates three coefficients. -/
lemma exists_dominates (a b c : ℝ) : ∃ q, Dominates q a b c :=
  ⟨√(b ^ 2 + 4 * |a * c| + 2 ^ (-500 : ℤ)), Real.sqrt_pos.2 (by positivity),
    Real.sq_sqrt (by positivity)⟩

variable {q a b c : ℝ}

namespace Dominates

variable (hq : Dominates q a b c)
include hq

/-- The square of a dominating number is not too small. -/
lemma le_sq : (2 : ℝ) ^ (-500 : ℤ) ≤ q ^ 2 := by
  rw [hq.sq_eq]
  exact le_add_of_nonneg_left (by positivity)

/-- A dominating number is not too small. -/
lemma le : (2 : ℝ) ^ (-250 : ℤ) ≤ q := by
  refine (sq_le_sq₀ (by positivity) hq.pos.le).1 ?_
  rw [← zpow_natCast, ← zpow_mul]
  exact hq.le_sq

/-- A dominating number is at least as large as the coefficient in the middle. -/
lemma abs_middle_le : |b| ≤ q := by
  refine abs_le_of_sq_le_sq ?_ hq.pos.le
  rw [hq.sq_eq, add_assoc]
  exact le_add_of_nonneg_right (by positivity)

/-- An underflow is less than the roundoff of a dominating number. -/
lemma underflow_le : underflow ≤ roundoff * q :=
  calc underflow = 2 ^ (-1075 : ℤ) := rfl
    _ ≤ 2 ^ (-250 - 53 : ℤ) := two_zpow_le_of_le (by decide)
    _ = roundoff * 2 ^ (-250 : ℤ) := (roundoff_mul _).symm
    _ ≤ roundoff * q := mul_le_mul_of_nonneg_left hq.le roundoff_pos.le

/-- An underflow is less than the roundoff of the square of a dominating number. -/
lemma underflow_le_sq : underflow ≤ roundoff * q ^ 2 :=
  calc underflow = 2 ^ (-1075 : ℤ) := rfl
    _ ≤ 2 ^ (-500 - 53 : ℤ) := two_zpow_le_of_le (by decide)
    _ = roundoff * 2 ^ (-500 : ℤ) := (roundoff_mul _).symm
    _ ≤ roundoff * q ^ 2 := mul_le_mul_of_nonneg_left hq.le_sq roundoff_pos.le

end Dominates

namespace Balanced

section
variable (h : Balanced a b c)
include h

/-- The leading coefficient of a balanced equation is not zero, in absolute value. -/
lemma pos : 0 < |a| := (zpow_pos two_pos _).trans_le h.low

/-- The leading coefficient of a balanced equation is not zero. -/
lemma ne_zero : a ≠ 0 := abs_pos.1 h.pos

/-- The last coefficient of a balanced equation is bounded. -/
lemma abs_last_le : |c| ≤ 2 ^ (25 : ℤ) := by
  have hsize := h.size
  rw [abs_mul] at hsize
  refine le_of_mul_le_mul_left ?_ h.pos
  nlinarith [sq_nonneg b, mul_nonneg h.pos.le (abs_nonneg c)]

/-- The middle coefficient of a balanced equation is bounded. -/
lemma abs_middle_le : |b| ≤ 2 ^ 163 := by
  refine abs_le_of_sq_le_sq ?_ (by positivity)
  calc b ^ 2 ≤ b ^ 2 + 4 * |a * c| := le_add_of_nonneg_right (by positivity)
    _ ≤ 2 ^ (25 : ℤ) * |a| := h.size
    _ ≤ 2 ^ (25 : ℤ) * 2 ^ (300 : ℤ) := mul_le_mul_of_nonneg_left h.high (by positivity)
    _ = 2 ^ (25 + 300 : ℤ) := (zpow_add₀ two_ne_zero _ _).symm
    _ ≤ 2 ^ ((163 * 2 : ℕ) : ℤ) := two_zpow_le_of_le (by decide)
    _ = (2 ^ 163) ^ 2 := by rw [zpow_natCast, pow_mul]

/-- An underflow times the last coefficient is less than the roundoff of the square. -/
lemma underflow_mul_le (hq : Dominates q a b c) : underflow * |c| ≤ roundoff * q ^ 2 :=
  calc underflow * |c| ≤ underflow * 2 ^ (25 : ℤ) :=
        mul_le_mul_of_nonneg_left h.abs_last_le underflow_pos.le
    _ = 2 ^ (25 - 1075 : ℤ) := underflow_mul _
    _ ≤ 2 ^ (-500 - 53 : ℤ) := two_zpow_le_of_le (by decide)
    _ = roundoff * 2 ^ (-500 : ℤ) := (roundoff_mul _).symm
    _ ≤ roundoff * q ^ 2 := mul_le_mul_of_nonneg_left hq.le_sq roundoff_pos.le

/-- An underflow times twice the leading coefficient is less than the roundoff. -/
lemma leading_mul_underflow_le (hq : Dominates q a b c) : |2 * a| * underflow ≤ roundoff * q := by
  rw [abs_mul, abs_of_pos (two_pos : (0 : ℝ) < 2), mul_comm]
  calc underflow * (2 * |a|) ≤ underflow * (2 * 2 ^ (300 : ℤ)) :=
        mul_le_mul_of_nonneg_left (mul_le_mul_of_nonneg_left h.high two_pos.le) underflow_pos.le
    _ = underflow * 2 ^ (1 + 300 : ℤ) := by rw [zpow_add₀ two_ne_zero, zpow_one]
    _ = 2 ^ (1 + 300 - 1075 : ℤ) := underflow_mul _
    _ ≤ 2 ^ (-250 - 53 : ℤ) := two_zpow_le_of_le (by decide)
    _ = roundoff * 2 ^ (-250 : ℤ) := (roundoff_mul _).symm
    _ ≤ roundoff * q := mul_le_mul_of_nonneg_left hq.le roundoff_pos.le

/-- An underflow is less than the roundoff of twice the leading coefficient. -/
lemma underflow_le_leading : underflow ≤ roundoff * |2 * a| := by
  rw [abs_mul, abs_of_pos (two_pos : (0 : ℝ) < 2)]
  calc underflow = 2 ^ (-1075 : ℤ) := rfl
    _ ≤ 2 ^ (-300 - 53 : ℤ) := two_zpow_le_of_le (by decide)
    _ = roundoff * 2 ^ (-300 : ℤ) := (roundoff_mul _).symm
    _ ≤ roundoff * (2 * |a|) :=
        mul_le_mul_of_nonneg_left (h.low.trans (by linarith [h.pos])) roundoff_pos.le

end

/-- The square of a dominating number is not too large, compared with the leading coefficient. -/
lemma sq_le (h : Balanced a b c) (hq : Dominates q a b c) : q ^ 2 ≤ 2 ^ (26 : ℤ) * |a| := by
  have hsmall : (2 : ℝ) ^ (-500 : ℤ) ≤ 2 ^ (25 : ℤ) * |a| :=
    calc (2 : ℝ) ^ (-500 : ℤ) ≤ 2 ^ (25 + -300 : ℤ) := two_zpow_le_of_le (by decide)
      _ = 2 ^ (25 : ℤ) * 2 ^ (-300 : ℤ) := zpow_add₀ two_ne_zero _ _
      _ ≤ 2 ^ (25 : ℤ) * |a| := mul_le_mul_of_nonneg_left h.low (by positivity)
  have hdouble : (2 : ℝ) ^ (26 : ℤ) * |a| = 2 ^ (25 : ℤ) * |a| + 2 ^ (25 : ℤ) * |a| := by
    norm_num
    ring
  rw [hq.sq_eq, hdouble]
  exact add_le_add h.size hsmall

end Balanced

/-- The discriminant of a quadratic equation, in doubles. -/
def discriminant (a b c : Float) : Float := b * b - floatOfRat 4 * a * c

/-- A double that is not less than zero denotes a number that is not negative. -/
lemma nonneg_of_not_lt {x : Float} (hx : x.isFinite) (h : decide (x < floatOfRat 0) = false) :
    0 ≤ toReal x := by
  obtain ⟨hzero, hvalue⟩ := bounded_floatOfRat_zero
  have hnot : ¬ x < floatOfRat 0 := of_decide_eq_false h
  rwa [lt_iff hx hzero.isFinite, hvalue, not_lt] at hnot

section
variable {a b c : Float} (ha : a.isFinite) (hb : b.isFinite) (hc : c.isFinite)
  (h : Balanced (toReal a) (toReal b) (toReal c))

include ha hb hc h

/-- The coefficients of a balanced equation are bounded by powers of two. -/
lemma bounded_coefficients : Bounded a 300 ∧ Bounded b 163 ∧ Bounded c 25 :=
  ⟨⟨ha, h.high⟩, ⟨hb, h.abs_middle_le⟩, hc, h.abs_last_le⟩

/-- The discriminant is not far from that of the exact coefficients. -/
lemma discriminant_near (hq : Dominates q (toReal a) (toReal b) (toReal c)) :
    Bounded (discriminant a b c) 332 ∧
    |toReal (discriminant a b c) - (toReal b ^ 2 - 4 * toReal a * toReal c)| ≤
      10 * (roundoff * q ^ 2) := by
  obtain ⟨hba, hbb, hbc⟩ := bounded_coefficients ha hb hc h
  obtain ⟨hb4, h4⟩ := bounded_floatOfRat_four
  have hB : Bounded (b * b) 327 := hbb.mul hbb (by decide)
  have hA : Bounded (floatOfRat 4 * a) 303 := hb4.mul hba (by decide)
  have hP : Bounded (floatOfRat 4 * a * c) 329 := hA.mul hbc (by decide)
  have hD : Bounded (b * b - floatOfRat 4 * a * c) 331 :=
    (hB.mono (by decide)).sub hP (by decide)
  have hA' := (rounds_mul hb4.isFinite ha).near hA.isFinite
  rw [h4] at hA'
  refine ⟨hD.mono (by decide), ?_⟩
  refine abs_discriminant_sub_le roundoff_pos roundoff_le hq.underflow_le_sq (h.underflow_mul_le hq) ?_
    ((rounds_mul hb hb).near hB.isFinite) hA' ((rounds_mul hA.isFinite hc).near hP.isFinite)
    ((rounds_sub hB.isFinite hP.isFinite).near hD.isFinite)
  rw [hq.sq_eq]
  exact le_add_of_nonneg_right (by positivity)

/-- The square root of the discriminant. -/
lemma sqrt_discriminant_near (hq : Dominates q (toReal a) (toReal b) (toReal c))
    (hD : decide (discriminant a b c < floatOfRat 0) = false) :
    Bounded (discriminant a b c).sqrt 167 ∧
    |toReal (discriminant a b c).sqrt| ≤ 2 * q ∧
    |toReal (discriminant a b c).sqrt ^ 2 - (toReal b ^ 2 - 4 * toReal a * toReal c)| ≤
      21 * (roundoff * q ^ 2) := by
  obtain ⟨hbound, hnear⟩ := discriminant_near ha hb hc h hq
  have h0 := nonneg_of_not_lt hbound.isFinite hD
  have hS : Bounded (discriminant a b c).sqrt 167 := Bounded.sqrt hbound h0 (by decide)
  have hsize : toReal b ^ 2 - 4 * toReal a * toReal c ≤ q ^ 2 := by
    have := neg_abs_le (toReal a * toReal c)
    have : (0 : ℝ) < 2 ^ (-500 : ℤ) := by positivity
    rw [hq.sq_eq]
    linarith
  exact ⟨hS, abs_root_sub_le roundoff_pos roundoff_le hq.pos hq.underflow_le h0 hnear
    hsize ((rounds_sqrt hbound.isFinite h0).near hS.isFinite)⟩

/-- The quotient that is a root, from its numerator. -/
lemma quotient_near (hD : decide (discriminant a b c < floatOfRat 0) = false) {n : Float} {m : ℝ}
    (hm : (m + toReal b) ^ 2 = toReal (discriminant a b c).sqrt ^ 2) (hn : Rounds n m)
    (hfinite : n.isFinite) (hv : (n / (floatOfRat 2 * a)).isFinite) :
    |toReal a * toReal (n / (floatOfRat 2 * a)) ^ 2 + toReal b * toReal (n / (floatOfRat 2 * a)) +
      toReal c| ≤ 35 * 2 ^ (-27 : ℤ) := by
  obtain ⟨q, hq⟩ := exists_dominates (toReal a) (toReal b) (toReal c)
  obtain ⟨-, hS, hS2⟩ := sqrt_discriminant_near ha hb hc h hq hD
  obtain ⟨hb2, h2⟩ := bounded_floatOfRat_two
  have hd : Bounded (floatOfRat 2 * a) 302 := hb2.mul (bounded_coefficients ha hb hc h).1 (by decide)
  have hd' := (rounds_mul hb2.isFinite ha).near hd.isFinite
  rw [h2] at hd'
  have hmb : |m + toReal b| ≤ 2 * q := by
    rwa [(sq_eq_sq_iff_abs_eq_abs _ _).1 hm]
  have hm3 : |m| ≤ 3 * q := by
    have hmiddle := hq.abs_middle_le
    calc |m| = |m + toReal b - toReal b| := by rw [add_sub_cancel_right]
      _ ≤ |m + toReal b| + |toReal b| := abs_sub _ _
      _ ≤ _ := by linarith
  obtain ⟨hd0, hratio, hratio1⟩ :=
    abs_double_le roundoff_pos roundoff_le h.ne_zero h.underflow_le_leading hd'
  have htwice := abs_twice_root_sub_le roundoff_pos roundoff_le hq.pos hq.underflow_le hd0 hratio
    hratio1 (h.leading_mul_underflow_le hq) hm3 (hn.near hfinite)
    ((rounds_div hfinite hd.isFinite hd0).near hv)
  have hproduct := abs_quadratic_le roundoff_pos roundoff_le hm hS hS2 htwice
  -- The bound is one on `|a|` times the value, and `q ^ 2` is no larger than `2 ^ 26 * |a|`.
  refine le_of_mul_le_mul_left (hproduct.trans ?_) h.pos
  calc 35 * (roundoff * q ^ 2) ≤ 35 * (roundoff * (2 ^ (26 : ℤ) * |toReal a|)) := by
        gcongr
        · exact roundoff_pos.le
        · exact h.sq_le hq
    _ = |toReal a| * (35 * (roundoff * 2 ^ (26 : ℤ))) := by ring
    _ = |toReal a| * (35 * 2 ^ (-27 : ℤ)) := by rw [roundoff_mul]; norm_num

/-- Both roots of a quadratic equation. -/
theorem quadratic_near (hD : decide (discriminant a b c < floatOfRat 0) = false) {v : Float}
    (hroot : v = (-b + (discriminant a b c).sqrt) / (floatOfRat 2 * a) ∨
      v = (-b - (discriminant a b c).sqrt) / (floatOfRat 2 * a)) (hv : v.isFinite) :
    |toReal a * toReal v ^ 2 + toReal b * toReal v + toReal c| ≤ 35 * 2 ^ (-27 : ℤ) := by
  obtain ⟨q, hq⟩ := exists_dominates (toReal a) (toReal b) (toReal c)
  have hS := (sqrt_discriminant_near ha hb hc h hq hD).1
  have hbb := (bounded_coefficients ha hb hc h).2.1
  have hneg := hbb.neg.mono (by decide : 163 ≤ 167)
  obtain ⟨hnegfinite, hvalue⟩ := toReal_neg hb
  obtain rfl | rfl := hroot
  · refine quotient_near ha hb hc h hD (m := -toReal b + toReal (discriminant a b c).sqrt) ?_ ?_
      (hneg.add hS (by decide)).isFinite hv
    · ring
    · rw [← hvalue]
      exact rounds_add hnegfinite hS.isFinite
  · refine quotient_near ha hb hc h hD (m := -toReal b - toReal (discriminant a b c).sqrt) ?_ ?_
      (hneg.sub hS (by decide)).isFinite hv
    · ring
    · rw [← hvalue]
      exact rounds_sub hnegfinite hS.isFinite

end

end Formulary.ClosedForm
