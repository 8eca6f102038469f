import Formulary.Proofs.ClosedForm.Expansion
import Formulary.Proofs.Sequence

/-!
# Collected terms

What the strategies for polynomials find is worked out from the sums that they collect
(`Appearance.linear_eq_some`, `Appearance.quadratic_eq_some`). Terms are those of a polynomial that is
multiplied out if there is one for each of its coefficients that are not zero, in whatever order
(`IsExpansion`). Such are the terms of a polynomial expression (`isExpansion_terms`). Without
rounding, the sums that are collected from them are the only coefficients up to a power that denote
the polynomial (`IsExpansion.collect_eq_some`).
-/

open scoped Polynomial

namespace Formulary.ClosedForm

open Arithmetic

/-- What is worked out from two sums. -/
lemma Coefficients.linearRoot?_eq_some {α : Type} [Arithmetic α] {cs : Coefficients α} {r : α} :
    cs.linearRoot? = some r ↔
      ∃ b a, cs = [b, a] ∧ eq a zero = false ∧ div (Arithmetic.neg b) a = r := by
  constructor
  · intro h
    unfold linearRoot? at h
    split at h
    · rename_i b a
      split at h
      · cases h
      · rename_i ha
        exact ⟨b, a, rfl, Bool.eq_false_iff.2 ha, Option.some.inj h⟩
    · cases h
  · rintro ⟨b, a, rfl, ha, rfl⟩
    simp [linearRoot?, ha]

/-- The quadratic formula is for three sums. -/
lemma Coefficients.eq_of_quadraticRoot? {α : Type} [RadicalArithmetic α] {cs : Coefficients α} {r : α}
    (h : cs.quadraticRoot? = some r) : ∃ c b a, cs = [c, b, a] := by
  unfold quadraticRoot? at h
  split at h
  · exact ⟨_, _, _, rfl⟩
  · cases h

namespace Appearance

/-- What the linear strategy finds: the root for the two sums that it collects, if it applies. -/
lemma linear_eq_some {α : Type} [Arithmetic α] {e : Appearance α} {r : α} :
    e.linear = .ok (some r) ↔ e.hasUnknown ∧ e.isNonlinear = false ∧
      ∃ b a, collect 1 e.terms = .ok (some [b, a]) ∧ eq a zero = false ∧ div (neg b) a = r := by
  simp only [linear, Bool.or_eq_true, Bool.not_eq_true', pure, Except.pure]
  split
  · rename_i hguard
    refine ⟨nofun, fun ⟨hunknown, hnonlinear, _⟩ => ?_⟩
    rw [hunknown, hnonlinear] at hguard
    cases hguard <;> contradiction
  · rename_i hguard
    obtain ⟨hunknown, hnonlinear⟩ : e.hasUnknown = true ∧ e.isNonlinear = false := by
      simpa using hguard
    simp only [hunknown, hnonlinear, true_and, bind_eq_ok, Except.ok.injEq]
    constructor
    · rintro ⟨sums, hsums, hr⟩
      obtain ⟨cs, rfl, hr⟩ := Option.bind_eq_some_iff.1 hr
      obtain ⟨b, a, rfl, ha, hr⟩ := Coefficients.linearRoot?_eq_some.1 hr
      exact ⟨b, a, hsums, ha, hr⟩
    · rintro ⟨b, a, hsums, ha, hr⟩
      exact ⟨_, hsums, Coefficients.linearRoot?_eq_some.2 ⟨b, a, rfl, ha, hr⟩⟩

/-- What the quadratic strategy finds: one of the two roots for the three sums that it collects. -/
lemma quadratic_eq_some {α : Type} [RadicalArithmetic α] {e : Appearance α} {r : α} :
    e.quadratic = .ok (some r) ↔
      ∃ c b a, collect 2 e.terms = .ok (some [c, b, a]) ∧
        Coefficients.quadraticRoot? [c, b, a] = some r := by
  simp only [quadratic, pure, Except.pure, bind_eq_ok, Except.ok.injEq]
  constructor
  · rintro ⟨sums, hsums, hr⟩
    obtain ⟨cs, rfl, hr⟩ := Option.bind_eq_some_iff.1 hr
    obtain ⟨c, b, a, rfl⟩ := Coefficients.eq_of_quadraticRoot? hr
    exact ⟨c, b, a, hsums, hr⟩
  · rintro ⟨c, b, a, hsums, hr⟩
    exact ⟨_, hsums, hr⟩

end Appearance

variable {α : Type} [Field α] {q : α[X]} {terms : List (Term α)} {n : ℕ} {cs sums : Coefficients α}

/--
That terms are those of a polynomial that is multiplied out: zero alone, which is no power, or one
term for each coefficient that is not zero.
-/
inductive IsExpansion (q : α[X]) : List (Term α) → Prop
  | zero (hq : q = 0) : IsExpansion q [⟨some 0, none⟩]
  | sum {powers : List ℕ} (hq : q ≠ 0) (hnodup : powers.Nodup)
    (hmem : ∀ d, d ∈ powers ↔ q.coeff d ≠ 0) :
    IsExpansion q (powers.map fun d => ⟨some (q.coeff d), some d⟩)

namespace Coefficients

/-- A list of zeros denotes zero. -/
lemma denote_replicate_zero (n : ℕ) : denote (List.replicate n (0 : α)) = 0 := by
  simpa [denote] using denote_append_zeros ([] : Coefficients α) n

/-- Adding to one of the coefficients adds a monomial. -/
lemma denote_modify {c : α} {d : ℕ} (hd : d < cs.length) :
    denote (cs.modify d fun sum => sum + c) = cs.denote + .monomial d c := by
  induction cs generalizing d with
  | nil => cases hd
  | cons a cs ih =>
    cases d with
    | zero =>
      rw [List.modify_zero_cons, denote, denote, map_add, Polynomial.monomial_zero_left]
      ring
    | succ d =>
      rw [List.modify_succ_cons, denote, denote, ih (Nat.lt_of_succ_lt_succ hd), mul_add,
        Polynomial.X_mul_monomial, add_assoc]

end Coefficients

/-- The terms of a polynomial sum up to it. -/
lemma sum_monomials {powers : List ℕ} (hnodup : powers.Nodup)
    (hmem : ∀ d, d ∈ powers ↔ q.coeff d ≠ 0) :
    (powers.map fun d => Polynomial.monomial d (q.coeff d)).sum = q := by
  have hsupport : powers.toFinset = q.support := by
    ext d
    rw [List.mem_toFinset, hmem, Polynomial.mem_support_iff]
  rw [← List.sum_toFinset _ hnodup, hsupport]
  exact q.as_sum_support.symm

variable [LinearOrder α] [Arithmetic α] [ExactArithmetic α]

/-- Terms are collected if and only if all their powers have a place among the sums. -/
lemma collectFrom_eq_some (coefficient : ℕ → α) (powers : List ℕ) :
    collectFrom sums (powers.map fun d => ⟨some (coefficient d), some d⟩) = .ok (some cs) ↔
      (∀ d ∈ powers, d < sums.length) ∧ cs.length = sums.length ∧
        cs.denote = sums.denote + (powers.map fun d => .monomial d (coefficient d)).sum := by
  induction powers generalizing sums with
  | nil =>
    simp only [List.map_nil, collectFrom, Except.ok.injEq, Option.some.injEq, List.not_mem_nil,
      false_imp_iff, implies_true, true_and, List.sum_nil, add_zero]
    constructor
    · rintro rfl
      exact ⟨rfl, rfl⟩
    · rintro ⟨hlength, hdenote⟩
      exact (Coefficients.eq_of_denote_eq hlength hdenote).symm
  | cons d ds ih =>
    simp only [List.map_cons, collectFrom, Option.filter_some, decide_eq_true_eq,
      List.forall_mem_cons, List.sum_cons]
    split
    · rename_i hnone
      have hd : ¬ d < sums.length := by simpa using hnone
      simp [hd]
    · rename_i hsome
      obtain ⟨hd, rfl⟩ : d < sums.length ∧ d = _ := by simpa [ite_eq_iff] using hsome
      simp only [ExactArithmetic.add_eq, ih, List.length_modify, Coefficients.denote_modify hd,
        add_assoc, hd, true_and]

/--
Sums are collected if and only if the polynomial is not zero and has no higher power. They are the
only coefficients, of that number, that denote it.
-/
theorem IsExpansion.collect_eq_some (h : IsExpansion q terms) :
    collect n terms = .ok (some cs) ↔ q ≠ 0 ∧ cs.length = n + 1 ∧ cs.denote = q := by
  cases h with
  | zero hq => simp [collect, collectFrom, hq]
  | @sum powers hq hnodup hmem =>
    rw [collect, collectFrom_eq_some, ExactArithmetic.zero_eq, Coefficients.denote_replicate_zero,
      zero_add, sum_monomials hnodup hmem, List.length_replicate, and_iff_right hq]
    refine and_iff_right_of_imp ?_
    rintro ⟨hlength, rfl⟩ d hd
    -- a coefficient that is not zero has a place in the list
    by_contra hlong
    refine (hmem d).1 hd ?_
    rw [Coefficients.coeff_denote, List.getD_eq_default _ _ (by omega)]

namespace Polynomial

/-- The coefficients that are not zero, each with its power. -/
lemma mem_filter_zipIdx {p : Polynomial α} {c : α} {d : ℕ} :
    (c, d) ∈ p.coefficients.zipIdx.filter (fun (c, _) => !eq c zero) ↔
      c = p.denote.coeff d ∧ c ≠ 0 := by
  have hcoeff : p.denote.coeff d = p.coefficients.getD d 0 := by
    rw [← denote_coefficients, Coefficients.coeff_denote]
  have hzero : eq c zero = false ↔ c ≠ 0 := by
    rw [← Bool.not_eq_true, ExactArithmetic.eq_iff, ExactArithmetic.zero_eq]
  rw [List.mem_filter, List.mk_mem_zipIdx_iff_getElem?, Bool.not_eq_true', hzero, hcoeff,
    List.getD_eq_getElem?_getD]
  refine and_congr_left fun hc => ?_
  cases p.coefficients[d]? with
  | none => simpa using hc
  | some a => simp [eq_comm]

/-- The terms of a polynomial expression are those of its polynomial, multiplied out. -/
theorem isExpansion_terms (p : Polynomial α) : IsExpansion p.denote p.terms := by
  rw [terms]
  split
  · rename_i hnil
    have hq : p.denote = 0 := by
      ext d
      rw [Polynomial.coeff_zero]
      by_contra hd
      exact List.ne_nil_of_mem (mem_filter_zipIdx.2 ⟨rfl, hd⟩) hnil
    rw [ExactArithmetic.zero_eq]
    exact .zero hq
  · rename_i hnil
    generalize hts' : p.coefficients.zipIdx.filter (fun (c, _) => !eq c zero) = ts at hnil
    have hmem : ∀ d, d ∈ ts.map Prod.snd ↔ p.denote.coeff d ≠ 0 := by
      intro d
      rw [List.mem_map, ← hts']
      constructor
      · rintro ⟨⟨c, d⟩, hc, rfl⟩
        obtain ⟨rfl, hne⟩ := mem_filter_zipIdx.1 hc
        exact hne
      · intro hne
        exact ⟨(p.denote.coeff d, d), mem_filter_zipIdx.2 ⟨rfl, hne⟩, rfl⟩
    have hnodup : (ts.map Prod.snd).Nodup := by
      rw [← hts']
      exact (List.filter_sublist.map Prod.snd).nodup (List.nodup_zipIdx_map_snd _)
    have hterms : ts.map (fun (c, d) => (⟨some c, some d⟩ : Term α)) =
        (ts.map Prod.snd).map fun d => ⟨some (p.denote.coeff d), some d⟩ := by
      rw [List.map_map]
      refine List.map_congr_left ?_
      rintro ⟨c, d⟩ hc
      rw [← hts'] at hc
      obtain ⟨rfl, -⟩ := mem_filter_zipIdx.1 hc
      rfl
    rw [hterms]
    refine .sum ?_ hnodup hmem
    rintro hq
    obtain ⟨⟨c, d⟩, hc⟩ := List.exists_mem_of_ne_nil _ hnil
    exact (hmem d).1 (List.mem_map_of_mem hc) (by rw [hq, Polynomial.coeff_zero])

end Polynomial
end Formulary.ClosedForm
