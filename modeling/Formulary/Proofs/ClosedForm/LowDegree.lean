import Formulary.Proofs.ClosedForm.Collection
import Formulary.Proofs.ClosedForm.RootChoice

/-!
# Equations of degree one and two without rounding

Both strategies for polynomials work on the sums that they collect from the terms of an expression.
If these are the terms of the expression multiplied out, the sums tell its degree
(`degree_eq_one_iff`, `degree_eq_two_iff`), and on real numbers the answers are roots
(`roots_of_degree`). The root of a quadratic equation that is chosen is the one that the rule for any
list of roots chooses (`quadraticRoot?_agrees`).
-/

open scoped Polynomial

namespace Formulary.ClosedForm

open Arithmetic Finset

namespace Coefficients

variable {α : Type} [Field α] {q : α[X]} {n : ℕ}

/-- Coefficients stand for the sum of their products with the powers. -/
lemma eval_denote (cs : Coefficients α) (x : α) :
    cs.denote.eval x = ∑ d ∈ range cs.length, cs.getD d 0 * x ^ d := by
  induction cs with
  | nil => simp [denote]
  | cons a cs ih =>
    rw [List.length_cons, sum_range_succ', denote, Polynomial.eval_add, Polynomial.eval_mul, ih,
      mul_sum, Polynomial.eval_C, Polynomial.eval_X, add_comm]
    simp only [List.getD_cons_succ, List.getD_cons_zero, pow_zero, mul_one, pow_succ',
      mul_left_comm x]

/-- A polynomial has the degree of the last of its coefficients, if that one is not zero. -/
lemma degree_eq_iff : q.degree = n ↔
    ∃ cs : Coefficients α, cs.length = n + 1 ∧ cs.denote = q ∧ cs.getD n 0 ≠ 0 := by
  constructor
  · intro hdegree
    refine ⟨(List.range (n + 1)).map q.coeff, by simp, ?_, ?_⟩
    · ext d
      rw [coeff_denote]
      by_cases hd : d < n + 1
      · simp [hd]
      · have hzero : q.coeff d = 0 :=
          Polynomial.coeff_eq_zero_of_degree_lt (by rw [hdegree]; exact_mod_cast not_lt.1 hd)
        simp [hd, hzero]
    · simpa using Polynomial.coeff_ne_zero_of_eq_degree hdegree
  · rintro ⟨cs, hlength, rfl, hne⟩
    rw [← coeff_denote] at hne
    refine le_antisymm (Order.lt_succ_iff.1 ?_) (Polynomial.le_degree_of_ne_zero hne)
    refine (Polynomial.degree_lt_iff_coeff_zero _ (n + 1)).2 fun d hd => ?_
    rw [coeff_denote, List.getD_eq_default _ _ (hlength ▸ hd)]

/-- The degree is one for two coefficients, the second one not zero. -/
lemma degree_eq_one_iff : q.degree = 1 ↔ ∃ b a, denote [b, a] = q ∧ a ≠ 0 := by
  rw [← Nat.cast_one, degree_eq_iff]
  constructor
  · rintro ⟨cs, hlength, hq, hne⟩
    obtain ⟨b, a, rfl⟩ := List.length_eq_two.1 hlength
    exact ⟨b, a, hq, hne⟩
  · rintro ⟨b, a, hq, hne⟩
    exact ⟨[b, a], rfl, hq, hne⟩

/-- The degree is two for three coefficients, the third one not zero. -/
lemma degree_eq_two_iff : q.degree = 2 ↔ ∃ c b a, denote [c, b, a] = q ∧ a ≠ 0 := by
  rw [← Nat.cast_ofNat, degree_eq_iff]
  constructor
  · rintro ⟨cs, hlength, hq, hne⟩
    obtain ⟨c, b, a, rfl⟩ := List.length_eq_three.1 hlength
    exact ⟨c, b, a, hq, hne⟩
  · rintro ⟨c, b, a, hq, hne⟩
    exact ⟨[c, b, a], rfl, hq, hne⟩

/-- Coefficients of which one is not zero denote a polynomial that is not zero. -/
lemma denote_ne_zero {cs : Coefficients α} (h : cs.getD n 0 ≠ 0) : cs.denote ≠ 0 := by
  intro hq
  rw [← coeff_denote, hq] at h
  exact h (Polynomial.coeff_zero n)

end Coefficients

section

variable {α : Type} [Field α] [LinearOrder α] [Arithmetic α] [ExactArithmetic α]
variable {p : Polynomial α} {e : Appearance α} {q : α[X]} {n : ℕ} {cs : Coefficients α} {a b c r : α}

/-- Coefficients denote an expression if they give its values. -/
lemma Polynomial.denote_eq_iff_value [Infinite α] : cs.denote = p.denote ↔
    ∀ x, p.value x = ∑ d ∈ range cs.length, cs.getD d 0 * x ^ d := by
  constructor
  · intro h x
    rw [← Polynomial.eval_denote, ← h, Coefficients.eval_denote]
  · intro h
    refine Polynomial.funext fun x => ?_
    rw [Coefficients.eval_denote, Polynomial.eval_denote, h]

/-- Two coefficients denote an expression if it is linear with them. -/
lemma Polynomial.denote_pair_eq_iff [Infinite α] :
    Coefficients.denote [b, a] = p.denote ↔ ∀ x, p.value x = a * x + b := by
  refine denote_eq_iff_value.trans <| forall_congr' fun x => ?_
  rw [List.length_cons, List.length_singleton, sum_range_succ, sum_range_one, List.getD_cons_succ,
    List.getD_cons_zero, List.getD_cons_zero, pow_zero, mul_one, pow_one, add_comm b]

/-- Three coefficients denote an expression if it is quadratic with them. -/
lemma Polynomial.denote_triple_eq_iff [Infinite α] :
    Coefficients.denote [c, b, a] = p.denote ↔ ∀ x, p.value x = a * x ^ 2 + b * x + c := by
  refine denote_eq_iff_value.trans <| forall_congr' fun x => ?_
  simp only [List.length_cons, List.length_nil, sum_range_succ, sum_range_zero, zero_add,
    List.getD_cons_succ, List.getD_cons_zero, pow_zero, mul_one, pow_one]
  rw [add_comm (c + b * x), add_comm c, add_assoc]

/-- The linear strategy divides the two coefficients, if it applies. -/
lemma IsExpansion.linear_eq_some (h : IsExpansion q e.terms) :
    e.linear = .ok (some r) ↔ e.hasUnknown ∧ e.isNonlinear = false ∧
      ∃ b a, Coefficients.denote [b, a] = q ∧ a ≠ 0 ∧ -b / a = r := by
  simp only [Appearance.linear_eq_some, h.collect_eq_some, ExactArithmetic.zero_eq,
    ExactArithmetic.eq_eq_false, ExactArithmetic.div_eq, ExactArithmetic.neg_eq]
  refine and_congr_right' (and_congr_right' ⟨?_, ?_⟩)
  · rintro ⟨b, a, ⟨-, -, hq⟩, ha, hr⟩
    exact ⟨b, a, hq, ha, hr⟩
  · rintro ⟨b, a, rfl, ha, hr⟩
    exact ⟨b, a, ⟨Coefficients.denote_ne_zero (n := 1) ha, rfl, rfl⟩, ha, hr⟩

end

section

variable {e : Appearance ℝ} {p : Polynomial ℝ} {q : ℝ[X]} {a b c r : ℝ} {roots : List ℝ}

/-- The quadratic formula has a value if the discriminant is not negative. -/
lemma Coefficients.quadraticRoot?_eq_some : Coefficients.quadraticRoot? [c, b, a] = some r ↔
    a ≠ 0 ∧ 0 ≤ discrim a b c ∧
      onlyNonNegative [(-b + √(discrim a b c)) / (2 * a), (-b - √(discrim a b c)) / (2 * a)] =
        some r := by
  have hdiscrim : discrim a b c = b * b - 4 * a * c := by rw [discrim, sq]
  simp [quadraticRoot?, hdiscrim]

/-- The quadratic strategy puts the three coefficients into the quadratic formula. -/
lemma IsExpansion.quadratic_eq_some (h : IsExpansion q e.terms) : e.quadratic = .ok (some r) ↔
    ∃ c b a, Coefficients.denote [c, b, a] = q ∧ Coefficients.quadraticRoot? [c, b, a] = some r := by
  simp only [Appearance.quadratic_eq_some, h.collect_eq_some]
  constructor
  · rintro ⟨c, b, a, ⟨-, -, hq⟩, hr⟩
    exact ⟨c, b, a, hq, hr⟩
  · rintro ⟨c, b, a, rfl, hr⟩
    have ha : a ≠ 0 := (Coefficients.quadraticRoot?_eq_some.1 hr).1
    exact ⟨c, b, a, ⟨Coefficients.denote_ne_zero (n := 2) ha, rfl, rfl⟩, hr⟩

/-- The quadratic formula chooses between two numbers that are the roots. -/
lemma quadraticRoot?_eq_onlyNonNegative (hp : ∀ x, p.value x = a * x ^ 2 + b * x + c) (ha : a ≠ 0)
    (hd : 0 ≤ discrim a b c) :
    ∃ q r, Coefficients.quadraticRoot? [c, b, a] = onlyNonNegative [q, r] ∧
      ∀ x, x ∈ [q, r] ↔ p.value x = 0 := by
  refine ⟨(-b + √(discrim a b c)) / (2 * a), (-b - √(discrim a b c)) / (2 * a), ?_, fun x => ?_⟩
  · ext r
    rw [Coefficients.quadraticRoot?_eq_some, and_iff_right ha, and_iff_right hd]
  · rw [hp, sq, quadratic_eq_zero_iff ha (Real.mul_self_sqrt hd).symm]
    simp

/--
Without rounding, for the terms of an expression multiplied out: sums are collected if the expression
is not zero and has no higher power, and it is the sum of their products with the powers. The linear
strategy, where it applies, answers with the root of an expression of degree one. The quadratic strategy
has an answer, which is a root, for the expressions of degree two whose discriminant is not negative.
-/
theorem roots_of_degree (h : IsExpansion p.denote e.terms) :
    (∀ n cs, collect n e.terms = .ok (some cs) ↔ p.denote ≠ 0 ∧ cs.length = n + 1 ∧
      ∀ x, p.value x = ∑ d ∈ range (n + 1), cs.getD d 0 * x ^ d) ∧
    (∀ r, e.linear = .ok (some r) ↔ e.hasUnknown ∧ e.isNonlinear = false ∧
      p.denote.degree = 1 ∧ p.value r = 0) ∧
    ((∃ r, e.quadratic = .ok (some r)) ↔ p.denote.degree = 2 ∧
      0 ≤ discrim (p.denote.coeff 2) (p.denote.coeff 1) (p.denote.coeff 0)) ∧
    ∀ r, e.quadratic = .ok (some r) → p.value r = 0 := by
  refine ⟨fun n cs => ?collected, fun r => ?linear, ?answered, ?quadratic⟩
  case collected =>
    rw [h.collect_eq_some]
    refine and_congr_right' (and_congr_right fun hlength => ?_)
    rw [Polynomial.denote_eq_iff_value, hlength]
  case linear =>
    rw [h.linear_eq_some, Coefficients.degree_eq_one_iff]
    refine and_congr_right' (and_congr_right' ⟨?_, ?_⟩)
    · rintro ⟨b, a, hq, ha, rfl⟩
      refine ⟨⟨b, a, hq, ha⟩, ?_⟩
      rw [Polynomial.denote_pair_eq_iff.1 hq, mul_div_cancel₀ _ ha, neg_add_cancel]
    · rintro ⟨⟨b, a, hq, ha⟩, hr⟩
      rw [Polynomial.denote_pair_eq_iff.1 hq] at hr
      exact ⟨b, a, hq, ha, (eq_div_of_mul_eq ha (by linarith)).symm⟩
  case answered =>
    rw [Coefficients.degree_eq_two_iff]
    constructor
    · rintro ⟨r, hr⟩
      obtain ⟨c, b, a, hq, hr⟩ := h.quadratic_eq_some.1 hr
      obtain ⟨ha, hd, -⟩ := Coefficients.quadraticRoot?_eq_some.1 hr
      refine ⟨⟨c, b, a, hq, ha⟩, ?_⟩
      simpa [← hq, Coefficients.coeff_denote] using hd
    · rintro ⟨⟨c, b, a, hq, ha⟩, hd⟩
      have hd : 0 ≤ discrim a b c := by simpa [← hq, Coefficients.coeff_denote] using hd
      obtain ⟨r, s, hchosen, -⟩ :=
        quadraticRoot?_eq_onlyNonNegative (Polynomial.denote_triple_eq_iff.1 hq) ha hd
      obtain ⟨v, hv, -⟩ := onlyNonNegative_preferred r s
      exact ⟨v, h.quadratic_eq_some.2 ⟨c, b, a, hq, hchosen.trans hv⟩⟩
  case quadratic =>
    intro v hv
    obtain ⟨c, b, a, hq, hv⟩ := h.quadratic_eq_some.1 hv
    obtain ⟨ha, hd, -⟩ := Coefficients.quadraticRoot?_eq_some.1 hv
    obtain ⟨r, s, hchosen, hmem⟩ :=
      quadraticRoot?_eq_onlyNonNegative (Polynomial.denote_triple_eq_iff.1 hq) ha hd
    exact (hmem v).1 (onlyNonNegative_mem (hchosen.symm.trans hv))

/--
The root of `x + (x - 6)` is 3. The product `(x - 2) (x + 1)` has degree two, and a root is chosen.
-/
theorem roots_of_degree_sum_and_product :
    (Appearance.mk true false
      (.add .unknown (.sub .unknown (.number 6)) : Polynomial ℝ).terms).linear = .ok (some 3) ∧
    ∃ r, (Appearance.mk true false
      (.mul (.sub .unknown (.number 2)) (.add .unknown (.number 1)) : Polynomial ℝ).terms).quadratic =
        .ok (some r) ∧ (r - 2) * (r + 1) = 0 := by
  constructor
  · obtain ⟨-, hlinear, -⟩ := roots_of_degree (e := ⟨true, false, _⟩)
      (Polynomial.isExpansion_terms (.add .unknown (.sub .unknown (.number 6))))
    refine (hlinear 3).2 ⟨rfl, rfl, ?_, by simp [Polynomial.value]; norm_num⟩
    refine Coefficients.degree_eq_one_iff.2 ⟨-6, 2, Polynomial.denote_pair_eq_iff.2 fun x => ?_,
      two_ne_zero⟩
    simp only [Polynomial.value, ExactArithmetic.sub_eq, ExactArithmetic.add_eq]
    ring
  · obtain ⟨-, -, hanswered, hroot⟩ := roots_of_degree (e := ⟨true, false, _⟩)
      (Polynomial.isExpansion_terms (.mul (.sub .unknown (.number 2)) (.add .unknown (.number 1))))
    have hq : Coefficients.denote [-2, -1, 1] = Polynomial.denote
        (.mul (.sub .unknown (.number 2)) (.add .unknown (.number 1)) : Polynomial ℝ) := by
      refine Polynomial.denote_triple_eq_iff.2 fun x => ?_
      simp only [Polynomial.value, ExactArithmetic.sub_eq, ExactArithmetic.mul_eq,
        ExactArithmetic.add_eq]
      ring
    obtain ⟨r, hr⟩ := hanswered.2 ⟨Coefficients.degree_eq_two_iff.2 ⟨-2, -1, 1, hq, one_ne_zero⟩, by
      simp only [← hq, Coefficients.coeff_denote]; norm_num [discrim]⟩
    exact ⟨r, hr, by simpa [Polynomial.value] using hroot r hr⟩

namespace Polynomial

/-- The root that is chosen for an expression is that for its three coefficients. -/
lemma quadraticRoot?_of_value (hp : ∀ x, p.value x = a * x ^ 2 + b * x + c) (ha : a ≠ 0) :
    p.quadraticRoot? = Coefficients.quadraticRoot? [c, b, a] := by
  have hcollect : collect 2 p.terms = .ok (some [c, b, a]) :=
    (isExpansion_terms p).collect_eq_some.2
      ⟨denote_triple_eq_iff.2 hp ▸ Coefficients.denote_ne_zero (n := 2) ha, rfl,
        denote_triple_eq_iff.2 hp⟩
  rw [quadraticRoot?, hcollect]
  rfl

/--
The root that the quadratic strategy chooses is the one that the rule for any list chooses from the
roots, in whatever order they come and however often. It is not negative if some root is not, and
nearest to zero if all roots have one sign.
-/
theorem quadraticRoot?_agrees (hp : ∀ x, p.value x = a * x ^ 2 + b * x + c) (ha : a ≠ 0)
    (hd : 0 ≤ discrim a b c) (hroots : ∀ x, x ∈ roots ↔ p.value x = 0) :
    ∃ r, p.quadraticRoot? = some r ∧ leastNonNegative (roots.filter isFinite) = some r ∧
      p.value r = 0 ∧ ((∃ x ∈ roots, 0 ≤ x) → 0 ≤ r) ∧
      ((∀ x ∈ roots, x < 0) ∨ (∀ x ∈ roots, 0 ≤ x) → ∀ x ∈ roots, |r| ≤ |x|) := by
  have hfinite : roots.filter isFinite = roots := List.filter_eq_self.2 fun x _ => by simp
  obtain ⟨q, q', hchosen, hmem⟩ := quadraticRoot?_eq_onlyNonNegative hp ha hd
  rw [← quadraticRoot?_of_value hp ha] at hchosen
  obtain ⟨r, hr, hpreferred⟩ := onlyNonNegative_preferred q q'
  have hsame : ∀ x, x ∈ [q, q'] ↔ x ∈ roots := fun x => (hmem x).trans (hroots x).symm
  have hne : roots ≠ [] := List.ne_nil_of_mem ((hsame r).1 hpreferred.mem)
  obtain ⟨r', hr', hpreferred'⟩ := leastNonNegative_preferred hne
  obtain rfl := hpreferred.unique hpreferred' hsame
  refine ⟨r, hchosen.trans hr, by rwa [hfinite], (hroots r).1 hpreferred'.mem, ?_,
    hpreferred'.abs_le⟩
  rintro ⟨x, hx, h0⟩
  exact (hpreferred'.least x hx h0).1

/-- Of the roots of `x² - 5 x + 6` both rules choose 2, even if 3 is listed twice. -/
theorem quadraticRoot?_agrees_six :
    (mul (sub unknown (number 2)) (sub unknown (number 3)) : Polynomial ℝ).quadraticRoot? = some 2 ∧
      leastNonNegative ([3, 2, 3].filter isFinite) = some (2 : ℝ) := by
  have hvalue : ∀ x : ℝ, (mul (sub unknown (number 2)) (sub unknown (number 3))).value x =
      (x - 2) * (x - 3) := fun x => by simp [value]
  have hroots : ∀ x, x ∈ [3, 2, 3] ↔
      (mul (sub unknown (number 2)) (sub unknown (number 3)) : Polynomial ℝ).value x = 0 := by
    intro x
    rw [hvalue, mul_eq_zero, sub_eq_zero, sub_eq_zero]
    simp only [List.mem_cons, List.not_mem_nil, or_false]
    tauto
  obtain ⟨r, hr, hr', hroot, -, hnear⟩ := quadraticRoot?_agrees (a := 1) (b := -5) (c := 6)
    (fun x => by rw [hvalue]; ring) one_ne_zero (by norm_num [discrim]) hroots
  have hle : |r| ≤ |(2 : ℝ)| := hnear (.inr (by simp)) 2 (by simp)
  have h2 : r = 2 := by
    rw [hvalue, mul_eq_zero, sub_eq_zero, sub_eq_zero] at hroot
    refine hroot.resolve_right fun h3 => ?_
    rw [h3] at hle
    norm_num at hle
  exact ⟨h2 ▸ hr, h2 ▸ hr'⟩

end Polynomial

end

end Formulary.ClosedForm
