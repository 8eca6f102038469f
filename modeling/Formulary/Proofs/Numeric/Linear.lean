import Formulary.Numeric.Search
import Formulary.Proofs.ClosedForm.LowDegree
import Formulary.Proofs.Numeric.Descent

/-!
# Linear equations without rounding

The forward difference of a linear function is its slope at every point, whatever the step
(`forwardSlope_linear`). So a descent that goes on comes to the root at once, and a search is over
after two steps from the first starting point (`search_linear`), with the root that the strategy for
linear equations answers (`linear_of_expansion`).
-/

namespace Formulary.Numeric

open Arithmetic ClosedForm

variable {s : Settings ℚ} {f : ℚ → ℚ} {a b x guess : ℚ} {guesses : List ℚ} {steps : ℕ}

/-- One step of a descent finds a root, fails, divides by zero, or goes on from the next point. -/
lemma descend_succ : Id.run (descend s f (steps + 1) x) =
    if |f x| < s.tolerance then .root x
    else if |forwardSlope f x| < s.flatSlope then .failed
    else if forwardSlope f x = 0 then .zeroSlope
    else if |follow f x - x| < s.tolerance then .root (follow f x)
    else Id.run (descend s f steps (follow f x)) := by
  simp [descend, forwardSlope, follow, bind, pure, Id.run]

/-- The step of a difference is not zero. -/
lemma differenceStep_ne_zero : differenceStep x ≠ 0 := by
  simp only [differenceStep, ExactArithmetic.lt_iff, ExactArithmetic.ofRat_eq]
  split
  · rename_i h
    exact (lt_trans (by norm_num) h).ne'
  · norm_num

/-- The forward difference of a linear function is exact. -/
lemma forwardSlope_linear : forwardSlope (fun x => a * x + b) x = a := by
  simp only [forwardSlope, slope, ExactArithmetic.div_eq, ExactArithmetic.sub_eq,
    ExactArithmetic.add_eq]
  rw [div_eq_iff differenceStep_ne_zero]
  ring

/-- The tangent of a linear function meets zero at its root. -/
lemma follow_linear (ha : a ≠ 0) : follow (fun x => a * x + b) x = -b / a := by
  simp only [follow, forwardSlope_linear, ExactArithmetic.sub_eq, ExactArithmetic.div_eq]
  field_simp
  ring

/-- Two steps of a descent are enough for a linear function. -/
lemma descend_linear (htol : 0 < s.tolerance) (ha : a ≠ 0) (hsteep : s.flatSlope ≤ |a|) (steps : ℕ)
    (b x : ℚ) :
    ∃ v, Id.run (descend s (fun x => a * x + b) (steps + 2) x) = .root v ∧
      |a * v + b| < s.tolerance ∧ (v = x ∨ v = -b / a) := by
  have hroot : |a * (-b / a) + b| < s.tolerance := by
    rwa [mul_div_cancel₀ _ ha, neg_add_cancel, abs_zero]
  rw [descend_succ, forwardSlope_linear, follow_linear ha]
  split
  · rename_i hsmall
    exact ⟨x, rfl, hsmall, .inl rfl⟩
  · rw [if_neg (not_lt.2 hsteep)]
    split
    · exact ⟨_, rfl, hroot, .inr rfl⟩
    · -- the next point is the root, where the function is below any tolerance
      rw [descend_succ, if_pos hroot]
      exact ⟨_, rfl, hroot, .inr rfl⟩

/-- The linear strategy answers with the root of a linear function, where it applies. -/
lemma linear_of_expansion {e : Appearance ℚ} (hunknown : e.hasUnknown)
    (hlinear : e.isNonlinear = false) (h : IsExpansion (.C a * .X + .C b) e.terms) (ha : a ≠ 0) :
    e.linear = .ok (some (-b / a)) := by
  refine h.linear_eq_some.2 ⟨hunknown, hlinear, b, a, ?_, ha, rfl⟩
  simp only [Coefficients.denote]
  ring

/--
A search for the root of a linear function ends with the descent from the first starting point. It
answers with that point, if the function is below the tolerance there, or else with the root, which
is the one that the strategy for linear equations has.
-/
theorem search_linear (htol : 0 < s.tolerance) (hflat : 0 < s.flatSlope)
    (hsteep : s.flatSlope ≤ |a|) (hcap : 2 ≤ s.newtonCap)
    (hguesses : s.guesses = guess :: guesses) :
    ∃ o, Id.run (search s fun x => a * x + b) = ⟨[], .ok o⟩ ∧ o = .newton guess o.value ∧
      o.converged ∧ |a * o.value + b| < s.tolerance ∧ (o.value = guess ∨ o.value = -b / a) ∧
      ∀ e : Appearance ℚ, e.hasUnknown → e.isNonlinear = false →
        IsExpansion (.C a * .X + .C b) e.terms → e.linear = .ok (some (-b / a)) := by
  have ha : a ≠ 0 := abs_pos.1 (hflat.trans_le hsteep)
  obtain ⟨steps, hsteps⟩ : ∃ steps, s.newtonCap.toNat = steps + 2 :=
    Nat.exists_eq_add_of_le' (by omega)
  obtain ⟨v, hv, hsmall, hvalue⟩ := descend_linear htol ha hsteep steps b guess
  refine ⟨.newton guess v, ?_, rfl, rfl, hsmall, hvalue,
    fun _ hunknown hlinear h => linear_of_expansion hunknown hlinear h ha⟩
  rw [← hsteps] at hv
  simp only [Id.run] at hv
  simp only [search, hguesses, searchFrom, newton, bind, Id.run, hv]
  exact if_pos rfl

/-- From 1, the search for the root of `x + x - 6` goes to 3, where the linear strategy finds it. -/
theorem search_linear_three :
    (∃ o, Id.run (search .standard fun x : ℚ => 2 * x + -6) = ⟨[], .ok o⟩ ∧ o.value = 3) ∧
      (Appearance.mk true false
        (.sub (.add .unknown .unknown) (.number 6) : ClosedForm.Polynomial ℚ).terms).linear =
          .ok (some 3) := by
  have hguesses : (Settings.standard : Settings ℚ).guesses = 1 :: [0] := rfl
  obtain ⟨o, ho, -, -, hsmall, hvalue, hlinear⟩ := search_linear (a := 2) (b := -6)
    (by decide +kernel) (by decide +kernel) (by decide +kernel) (by decide) hguesses
  have hroot : (-(-6) / 2 : ℚ) = 3 := by norm_num
  have hdenote : (.sub (.add .unknown .unknown) (.number 6) : ClosedForm.Polynomial ℚ).denote =
      .C 2 * .X + .C (-6) := by
    simp only [ClosedForm.Polynomial.denote, map_neg, map_ofNat]
    ring
  rw [hroot, ← hdenote] at hlinear
  rw [hroot] at hvalue
  refine ⟨⟨o, ho, hvalue.resolve_left fun h1 => ?_⟩,
    hlinear _ rfl rfl (ClosedForm.Polynomial.isExpansion_terms _)⟩
  -- the value at the starting point is not small
  rw [h1] at hsmall
  exact absurd hsmall (by decide +kernel)

end Formulary.Numeric
