import Formulary.Proofs.ClosedForm.Attempt
import Formulary.Proofs.ClosedForm.Collection
import Formulary.Proofs.ClosedForm.RootChoice
import Formulary.Proofs.ClosedForm.RootError
import Formulary.Proofs.Expression.Estimate
import Formulary.Proofs.Numeric.Residual

/-!
# The residual at a closed form

The linear and the quadratic strategy solve the polynomial that is collected from the simplified
residual. What they find is a root of this polynomial but for rounding (`FoundBy.abs_exactly_le`). If
the polynomial is what the residual is exactly, the residual passes the check there as far as its own
evaluation can be trusted (`Simplifier.closedForm_checked`). It need not pass: simplifying may cancel a
factor that is zero at the root, and a sum in doubles may lose what is left when large terms cancel
(`closedForm_unchecked`).
-/

open scoped Polynomial

namespace Formulary.ClosedForm

open Arithmetic Number Numeric Finset

/-! ### What the strategies find -/

variable {formula : String} {bindings : List (String × Float)} {unknown : String}
variable {s : Strategy} {p : Coefficients Float} {a b c v : Float}

/-- That a strategy finds a root of a polynomial, by working it out from the coefficients. -/
inductive FoundBy : Strategy → Coefficients Float → Float → Prop
  | linear {a b : Float} (ha : (a == floatOfRat 0) = false) : FoundBy .linear [b, a] (-b / a)
  | quadratic {a b c v : Float} (hd : decide (discriminant a b c < floatOfRat 0) = false)
    (hv : v = (-b + (discriminant a b c).sqrt) / (floatOfRat 2 * a) ∨
      v = (-b - (discriminant a b c).sqrt) / (floatOfRat 2 * a)) :
    FoundBy .quadratic [c, b, a] v

/-- What the linear strategy finds in doubles. -/
lemma foundBy_of_linear {e : Appearance Float} (h : e.linear = .ok (some v)) :
    ∃ p, collect 1 e.terms = .ok (some p) ∧ FoundBy .linear p v := by
  obtain ⟨-, -, b, a, hp, ha, rfl⟩ := Appearance.linear_eq_some.1 h
  exact ⟨_, hp, .linear ha⟩

/-- What the quadratic strategy finds in doubles. -/
lemma foundBy_of_quadratic {e : Appearance Float} (h : e.quadratic = .ok (some v)) :
    ∃ p, collect 2 e.terms = .ok (some p) ∧ FoundBy .quadratic p v := by
  obtain ⟨c, b, a, hp, hv⟩ := Appearance.quadratic_eq_some.1 h
  refine ⟨_, hp, ?_⟩
  unfold Coefficients.quadraticRoot? at hv
  dsimp only at hv
  split at hv
  · cases hv
  · split at hv
    · cases hv
    · rename_i hd
      have hmem := onlyNonNegative_mem hv
      rw [List.mem_pair] at hmem
      exact .quadratic (Bool.eq_false_iff.2 hd) hmem

/-- The degree of the equations that a strategy is for, if it is one. -/
def degreeOf? : Strategy → Option ℕ
  | .linear => some 1
  | .quadratic => some 2
  | .generic => none

namespace Simplifier

variable {S : Simplifier} {n : ℕ}

/-- The coefficients that are collected from what is read of a formula, up to a power. -/
def collected? (S : Simplifier) (formula : String) (bindings : List (String × Float))
    (unknown : String) (n : ℕ) : Option (Coefficients Float) :=
  (S.read formula bindings unknown).toOption.bind fun e =>
    (collect n (S.appearance e).terms).toOption.bind id

/-- What is read and collected. -/
lemma collected?_eq_some {e : S.Reading} (he : S.read formula bindings unknown = .ok e)
    (hp : collect n (S.appearance e).terms = .ok (some p)) :
    S.collected? formula bindings unknown n = some p := by
  simp [collected?, he, hp, Except.toOption]

/-- What a strategy for polynomials finds is a root of what it collects. -/
lemma foundBy_of_root {e : S.Reading} (h : (S.root e s).toOption.bind id = some v)
    (hn : degreeOf? s = some n) :
    ∃ p, collect n (S.appearance e).terms = .ok (some p) ∧ FoundBy s p v := by
  obtain ⟨_, h, rfl⟩ := Option.bind_eq_some_iff.1 h
  cases s with
  | generic => cases hn
  | linear =>
    cases hn
    exact foundBy_of_linear (toOption_eq_some.1 h)
  | quadratic =>
    cases hn
    exact foundBy_of_quadratic (toOption_eq_some.1 h)

end Simplifier

/-- The strategy that an attempt reports, with the value that it has found. -/
def Report.answer? (r : Report) : Option (Strategy × Float) :=
  r.trace.findSome? fun
    | .closedForm s v => some (s, v)
    | _ => none

/-- The polynomial whose root is reported. -/
lemma Simplifier.closedForm_found {S : Simplifier} {n : ℕ} (hn : degreeOf? s = some n)
    (h : (S.closedForm formula bindings unknown).answer? = some (s, v)) :
    v.isFinite ∧ ∃ p, S.collected? formula bindings unknown n = some p ∧ FoundBy s p v := by
  -- An attempt answers with the first strategy that has found something, or with none.
  rw [← S.algebra_closedForm] at h
  obtain ⟨s', v', hr, e, he, hfirst⟩ | ⟨_, hr, hskips⟩ :=
    S.algebra.closedForm_cases formula bindings unknown
  · rw [hr] at h
    cases h
    obtain ⟨p, hp, hfound⟩ := foundBy_of_root hfirst.found hn
    exact ⟨hfirst.finite, p, collected?_eq_some he hp, hfound⟩
  · rw [hr] at h
    cases hskips <;> cases h

/-! ### The polynomial at its root -/

/-- What a polynomial with doubles for coefficients is at a double, without rounding. -/
noncomputable def Coefficients.exactly (p : Coefficients Float) (x : Float) : ℝ :=
  p.foldr (fun a r => toReal a + toReal x * r) 0

/-- Polynomials whose coefficients are not so large that rounding moves a root too far. -/
inductive Moderate : Coefficients Float → Prop
  | linear {a b : Float} (ha : a.isFinite) (hb : b.isFinite) (h : |toReal b| ≤ 2 ^ 31) :
    Moderate [b, a]
  | quadratic {a b c : Float} (ha : a.isFinite) (hb : b.isFinite) (hc : c.isFinite)
    (h : Balanced (toReal a) (toReal b) (toReal c)) : Moderate [c, b, a]

/-- What is found is a root, but for rounding. -/
theorem FoundBy.abs_exactly_le (h : FoundBy s p v) (hv : v.isFinite) (hp : Moderate p) :
    |p.exactly v| ≤ 27 / 10 ^ 8 := by
  cases h with
  | @linear a b ha0 =>
    obtain ⟨ha, hb, hsize⟩ | _ := hp
    obtain ⟨hzero, hvalue⟩ := bounded_floatOfRat_zero
    have ha0 : toReal a ≠ 0 := fun h0 => by
      rw [(beq_iff ha hzero.isFinite).2 (h0.trans hvalue.symm)] at ha0
      cases ha0
    have hexactly : Coefficients.exactly [b, a] (-b / a) = toReal a * toReal (-b / a) + toReal b := by
      simp only [Coefficients.exactly, List.foldr_cons, List.foldr_nil]
      ring
    rw [hexactly]
    -- The quotient is off by its last digit, or by the least double where it is very small.
    calc |toReal a * toReal (-b / a) + toReal b| ≤ roundoff * |toReal b| + |toReal a| * underflow :=
          linear_near ha hb ha0 hv
      _ ≤ roundoff * 2 ^ 31 + 2 ^ 1024 * underflow :=
          add_le_add (mul_le_mul_of_nonneg_left hsize roundoff_pos.le)
            (mul_le_mul_of_nonneg_right (Bounded.of_isFinite ha).le underflow_pos.le)
      _ = 2 ^ (31 - 53 : ℤ) + 2 ^ (1024 - 1075 : ℤ) := by
          rw [← roundoff_mul, ← underflow_mul, zpow_ofNat, zpow_ofNat, mul_comm underflow]
      _ ≤ 27 / 10 ^ 8 := by norm_num
  | @quadratic a b c v hd hroot =>
    obtain _ | ⟨ha, hb, hc, hbalanced⟩ := hp
    have hexactly : Coefficients.exactly [c, b, a] v =
        toReal a * toReal v ^ 2 + toReal b * toReal v + toReal c := by
      simp only [Coefficients.exactly, List.foldr_cons, List.foldr_nil]
      ring
    rw [hexactly]
    calc |toReal a * toReal v ^ 2 + toReal b * toReal v + toReal c| ≤ 35 * 2 ^ (-27 : ℤ) :=
          quadratic_near ha hb hc hbalanced hd hroot hv
      _ ≤ 27 / 10 ^ 8 := by norm_num

/-- The double that is written as a millionth is close to a millionth. -/
lemma toReal_millionth : 98 / 10 ^ 8 < toReal 1e-6 ∧ toReal 1e-6 < 101 / 10 ^ 8 := by
  have h : exactValue? 1e-6 = some (4722366482869645 / 4722366482869645213696) := by decide +kernel
  rw [toReal_of_exactValue? h]
  norm_num

/-! ### The residual at the root -/

/-- Whether a residual is less than a millionth at a point. -/
def PassesCheck (r : Residual) (x : Float) : Prop := ∃ y, r.valueAt x = .ok y ∧ y.abs < 1e-6

instance (r : Residual) (x : Float) : Decidable (PassesCheck r x) :=
  decidable_of_iff ((r.valueAt x).toOption.any fun y => y.abs < 1e-6) <| by
    cases h : r.valueAt x <;> simp [PassesCheck, Except.toOption, h]

/--
That a polynomial is what a residual is exactly, wherever that is estimated, but for slack in the
coefficients.
-/
structure Approximates (p : Coefficients Float) (r : Residual) (slack : ℕ → ℝ) (q : ℝ[X]) : Prop where
  degree : q.natDegree < p.length
  near : ∀ d < p.length, |toReal (p.getD d 0) - q.coeff d| ≤ slack d
  exact : ∀ x t, x.isFinite → r.estimateAt? x = some t → (t.value : ℝ) = q.eval (toReal x)

/--
That what a simplifier collects from a formula, up to a power, is the residual of the formula, but for
slack in the coefficients.
-/
def Simplifier.Keeps (S : Simplifier) (formula : String) (bindings : List (String × Float))
    (unknown : String) (n : ℕ) (slack : ℕ → ℝ) : Prop :=
  ∀ p r, S.collected? formula bindings unknown n = some p →
    Residual.build formula bindings unknown = .ok r → ∃ q, Approximates p r slack q

/-- The number of coefficients that a strategy works with. -/
lemma FoundBy.length_eq {n : ℕ} (h : FoundBy s p v) (hn : degreeOf? s = some n) :
    p.length = n + 1 := by
  cases h <;> cases hn <;> rfl

/-- A polynomial is the sum of its coefficients times the powers. -/
lemma Coefficients.exactly_eq_sum (p : Coefficients Float) (x : Float) :
    p.exactly x = ∑ d ∈ range p.length, toReal (p.getD d 0) * toReal x ^ d := by
  induction p with
  | nil => rfl
  | cons a p ih =>
    rw [List.length_cons, sum_range_succ', exactly, List.foldr_cons, ← exactly, ih, mul_sum, add_comm]
    simp only [List.getD_cons_succ, List.getD_cons_zero, pow_zero, mul_one, pow_succ',
      mul_left_comm (toReal x)]

/-- What slack in the coefficients makes of the value at a point. -/
lemma Approximates.abs_sub_le {r : Residual} {slack : ℕ → ℝ} {q : ℝ[X]}
    (h : Approximates p r slack q) (x : Float) :
    |q.eval (toReal x) - p.exactly x| ≤ ∑ d ∈ range p.length, slack d * |toReal x| ^ d := by
  rw [Polynomial.eval_eq_sum_range' h.degree, Coefficients.exactly_eq_sum, ← sum_sub_distrib]
  refine (abs_sum_le_sum_abs _ _).trans (sum_le_sum fun d hd => ?_)
  rw [← sub_mul, abs_mul, abs_pow, abs_sub_comm]
  exact mul_le_mul_of_nonneg_right (h.near d (mem_range.1 hd)) (pow_nonneg (abs_nonneg _) d)

/-- The residual of `x*x = 2`. -/
def square : Residual :=
  ⟨.binary .sub (.binary .mul (.name "_s0") (.name "_s0")) (.integer 2), "_s0", []⟩

/-- What the residual of `x*x = 2` is exactly. -/
lemma square_exact {x : Float} {t : Estimate} (h : square.estimateAt? x = some t) :
    (t.value : ℝ) = toReal x ^ 2 - 2 := by
  simp only [square, Residual.estimateAt?, Expression.estimate?, Estimate.operation?, Expression.eval,
    Expression.lookup, List.lookup, beq_self_eq_true, Estimate.ofValue?] at h
  obtain ⟨u, hu, h⟩ := Option.bind_eq_some_iff.1 h
  obtain ⟨w, hw, h⟩ := Option.bind_eq_some_iff.1 h
  cases hx : exactValue? x with
  | none =>
    rw [hx] at hu
    cases hu
  | some q =>
    rw [hx] at hu
    rw [Estimate.rounded?_value h, Estimate.sub, Estimate.rounded?_value hu,
      Estimate.rounded?_value hw, Estimate.mul, toReal_of_exactValue? hx]
    push_cast
    ring

/-- That a formula, as it is solved, is answered with a value at which its residual fails the check. -/
def AnswersUnchecked (formula unknown : String) (s : Strategy) (v : Float) : Prop :=
  (closedForm (.ofList (Formula.canonical formula.toList)) [] unknown).answer? = some (s, v) ∧
    ∃ r, Residual.build (.ofList (Formula.canonical formula.toList)) [] unknown = .ok r ∧
      ¬ PassesCheck r v

/-- What is computed about a formula in its canonical form shows that its answer fails the check. -/
lemma answersUnchecked {formula unknown : String} (canonical : String)
    (hc : String.ofList (Formula.canonical formula.toList) = canonical)
    (h : (closedForm canonical [] unknown).answer? = some (s, v))
    (hr : (Residual.build canonical [] unknown).toOption.any fun r => ¬ PassesCheck r v) :
    AnswersUnchecked formula unknown s v := by
  obtain ⟨r, hb, hr⟩ := (Option.any_eq_true _ _).1 hr
  rw [AnswersUnchecked, hc]
  exact ⟨h, r, toOption_eq_some.1 hb, by simpa using hr⟩

end Formulary.ClosedForm
