import Formulary.Numeric.Bisection
import Formulary.Proofs.Numeric.Arithmetic

/-!
# Bisection without rounding

What bisection does with exact numbers and a function that is defined everywhere is said in one
equation (`bisection_eq`). Different signs at the ends of an interval are kept by every halving
(`ChangesSign.lower`, `ChangesSign.upper`), so that the answer is a root but for the tolerance, or
lies in a short interval of this kind (`bisection_located`). An interval that was widened is
searched as if it had been given, unless the end that was moved is a root: nobody looks at that end
(`bisection_widened_iff`).
-/

namespace Formulary.Numeric

open Arithmetic

variable {s : Settings ℚ} {f : ℚ → ℚ} {l u l' u' v fl : ℚ} {n steps : ℕ}

/-! ### Halving -/

/-- The middle of an interval is the mean of its ends. -/
@[simp] lemma middle_eq : middle l u = (l + u) / 2 := by simp [middle]

/-- Without halvings, the middle of the interval is answered. -/
lemma halve_zero : Id.run (halve s f 0 l u fl) = .bisection ((l + u) / 2) := by
  simp [halve]

/-- One halving ends at the middle, or goes on with the half where the sign changes. -/
lemma halve_succ : Id.run (halve s f (steps + 1) l u fl) =
    if |f ((l + u) / 2)| < s.tolerance ∨ u - l < s.tolerance then .bisection ((l + u) / 2)
    else if fl * f ((l + u) / 2) < 0 then Id.run (halve s f steps l ((l + u) / 2) fl)
    else Id.run (halve s f steps ((l + u) / 2) u (f ((l + u) / 2))) := by
  simp [halve, bind, pure, Id.run]

/-- Halving an interval answers with a point inside of it, whatever the function is. -/
lemma halve_between (h : l < u) :
    ∃ v, Id.run (halve s f steps l u fl) = .bisection v ∧ l < v ∧ v < u := by
  induction steps generalizing l u fl with
  | zero => exact ⟨_, halve_zero, left_lt_add_div_two.2 h, add_div_two_lt_right.2 h⟩
  | succ steps ih =>
    have hl : l < (l + u) / 2 := left_lt_add_div_two.2 h
    have hu : (l + u) / 2 < u := add_div_two_lt_right.2 h
    rw [halve_succ]
    split
    · exact ⟨_, rfl, hl, hu⟩
    · split
      · obtain ⟨v, hv, hlv, hvm⟩ := ih hl
        exact ⟨v, hv, hlv, hvm.trans hu⟩
      · obtain ⟨v, hv, hmv, hvu⟩ := ih hu
        exact ⟨v, hv, hl.trans hmv, hvu⟩

/-- That a function has different signs at the ends of an interval. -/
structure ChangesSign (f : ℚ → ℚ) (l u : ℚ) : Prop where
  lt : l < u
  neg : f l * f u < 0

namespace ChangesSign

/-- The lower half is kept where the signs at its ends differ. -/
lemma lower (h : ChangesSign f l u) (hneg : f l * f ((l + u) / 2) < 0) :
    ChangesSign f l ((l + u) / 2) :=
  ⟨left_lt_add_div_two.2 h.lt, hneg⟩

/-- The upper half is kept otherwise, and has different signs unless the middle is a root. -/
lemma upper (h : ChangesSign f l u) (hne : f ((l + u) / 2) ≠ 0)
    (hnot : ¬ f l * f ((l + u) / 2) < 0) : ChangesSign f ((l + u) / 2) u := by
  refine ⟨add_div_two_lt_right.2 h.lt, ?_⟩
  have hl : f l ≠ 0 := left_ne_zero_of_mul h.neg.ne
  have hpos : 0 < f l * f ((l + u) / 2) := (not_lt.1 hnot).lt_of_ne' (mul_ne_zero hl hne)
  have hproduct : f l ^ 2 * (f ((l + u) / 2) * f u) < 0 :=
    calc f l ^ 2 * (f ((l + u) / 2) * f u) = f l * f ((l + u) / 2) * (f l * f u) := by ring
      _ < 0 := mul_neg_of_pos_of_neg hpos h.neg
  exact neg_of_mul_neg_right hproduct (sq_nonneg _)

end ChangesSign

/--
Where an answer to `n` halvings of an interval lies: at a root but for the tolerance, or between two
points at which the function has different signs, as near to each other as the tolerance or as the
halvings make them.
-/
structure Located (s : Settings ℚ) (f : ℚ → ℚ) (n : ℕ) (l u v : ℚ) : Prop where
  mem : v ∈ Set.Icc l u
  near : |f v| < s.tolerance ∨ ∃ lo hi, l ≤ lo ∧ lo ≤ v ∧ v ≤ hi ∧ hi ≤ u ∧ f lo * f hi < 0 ∧
    (hi - lo < s.tolerance ∨ hi - lo ≤ (u - l) / 2 ^ n)

/-- What lies in one half of an interval lies in the interval, with one halving more. -/
lemma Located.of_half (h : Located s f n l' u' v) (hl : l ≤ l') (hu : u' ≤ u)
    (hhalf : u' - l' = (u - l) / 2) : Located s f (n + 1) l u v := by
  refine ⟨⟨hl.trans h.mem.1, h.mem.2.trans hu⟩, h.near.imp_right ?_⟩
  rintro ⟨lo, hi, hlo, hlov, hvhi, hhi, hneg, hwidth⟩
  refine ⟨lo, hi, hl.trans hlo, hlov, hvhi, hhi.trans hu, hneg, hwidth.imp_right fun h => ?_⟩
  calc hi - lo ≤ (u' - l') / 2 ^ n := h
    _ = (u - l) / 2 ^ (n + 1) := by rw [hhalf, div_div, pow_succ']

/-- Halving an interval with different signs at its ends locates a root. -/
lemma halve_located (htol : 0 < s.tolerance) (h : ChangesSign f l u) :
    ∃ v, Id.run (halve s f steps l u (f l)) = .bisection v ∧ Located s f steps l u v := by
  -- The invariant is that the signs at the ends differ; `f l` is the value that `halve` carries.
  induction steps generalizing l u with
  | zero =>
    have hl := (left_lt_add_div_two.2 h.lt).le
    have hu := (add_div_two_lt_right.2 h.lt).le
    refine ⟨_, halve_zero, ⟨hl, hu⟩, .inr ⟨l, u, le_rfl, hl, hu, le_rfl, h.neg, .inr ?_⟩⟩
    rw [pow_zero, div_one]
  | succ steps ih =>
    have hl := (left_lt_add_div_two.2 h.lt).le
    have hu := (add_div_two_lt_right.2 h.lt).le
    rw [halve_succ]
    split
    · rename_i hend
      refine ⟨_, rfl, ⟨hl, hu⟩, hend.imp_right fun hshort => ?_⟩
      exact ⟨l, u, le_rfl, hl, hu, le_rfl, h.neg, .inl hshort⟩
    · rename_i hend
      split
      · rename_i hneg
        obtain ⟨v, hv, hlocated⟩ := ih (h.lower hneg)
        exact ⟨v, hv, hlocated.of_half le_rfl hu (by ring)⟩
      · rename_i hnot
        -- a middle that is a root has ended the search: its value is below the tolerance
        have hne : f ((l + u) / 2) ≠ 0 := fun h0 => hend (.inl (by rwa [h0, abs_zero]))
        obtain ⟨v, hv, hlocated⟩ := ih (h.upper hne hnot)
        exact ⟨v, hv, hlocated.of_half hl le_rfl (by ring)⟩

/-! ### The whole search -/

/--
The interval of the settings with one side moved outwards: the one at which the function is smaller,
the upper one on a tie.
-/
def Settings.widened (s : Settings ℚ) (f : ℚ → ℚ) : ℚ × ℚ :=
  if |f s.bracket.1| < |f s.bracket.2| then (s.bracket.1 - s.expansion, s.bracket.2)
  else (s.bracket.1, s.bracket.2 + s.expansion)

/-- Signs are the same if the product is not negative or zero. -/
lemma sameSign_iff {fa fb : ℚ} : sameSign fa fb = true ↔ ¬ fa * fb ≤ 0 := by simp [sameSign]

/-- Magnitudes are compared as absolute values are. -/
lemma lessMagnitude_iff {x y : ℚ} :
    lessMagnitude (magnitude x) (magnitude y) = true ↔ |x| < |y| := by
  simp [magnitude, lessMagnitude]

/-- Widening ends with the widened interval and the values at its ends. -/
lemma widen_eq :
    Id.run (widen s f ⟨s.bracket.1, s.bracket.2, f s.bracket.1, f s.bracket.2⟩) =
      ⟨(s.widened f).1, (s.widened f).2, f (s.widened f).1, f (s.widened f).2⟩ := by
  simp only [widen, lessMagnitude_iff, Settings.widened]
  split <;> simp [bind, pure, Id.run]

/-- The best end is the one with the smaller value, the upper one on a tie. -/
lemma bestEnd_eq {i : Bracket ℚ} : bestEnd i =
    .ok (.bestEffort (if |i.atLower| < |i.atUpper| then i.lower else i.upper)) := by
  simp only [bestEnd, lessMagnitude_iff]
  split
  · rename_i h
    simp [magnitude] at h
  · split <;> rfl

/-- The search for a root of a function that is defined everywhere. -/
theorem bisection_eq : Id.run (bisection s f) =
    if f s.bracket.1 = 0 then .ok (.bisection s.bracket.1)
    else if f s.bracket.2 = 0 then .ok (.bisection s.bracket.2)
    else if f s.bracket.1 * f s.bracket.2 ≤ 0 then .ok <|
      Id.run (halve s f s.bisectionCap.toNat s.bracket.1 s.bracket.2 (f s.bracket.1))
    else
      let i := s.widened f
      if f i.1 * f i.2 ≤ 0 then
        .ok (Id.run (halve s f s.bisectionCap.toNat i.1 i.2 (f i.1)))
      else .ok (.bestEffort (if |f i.1| < |f i.2| then i.1 else i.2)) := by
  have hwiden := widen_eq (s := s) (f := f)
  simp only [Id.run] at hwiden
  simp only [bisection, bind, pure, Id.run, hwiden, sameSign_iff, bestEnd_eq,
    ExactArithmetic.eq_iff, ExactArithmetic.zero_eq, ite_not]

/-- Bisection locates a root in an interval at whose ends the function has different signs. -/
theorem bisection_located (hab : s.bracket.1 < s.bracket.2) (htol : 0 < s.tolerance)
    (hneg : f s.bracket.1 * f s.bracket.2 < 0) :
    ∃ o, Id.run (bisection s f) = .ok o ∧ o = .bisection o.value ∧ o.converged ∧
      Located s f s.bisectionCap.toNat s.bracket.1 s.bracket.2 o.value := by
  have hl : f s.bracket.1 ≠ 0 := left_ne_zero_of_mul hneg.ne
  have hu : f s.bracket.2 ≠ 0 := right_ne_zero_of_mul hneg.ne
  obtain ⟨v, hv, hlocated⟩ := halve_located htol ⟨hab, hneg⟩
  refine ⟨.bisection v, ?_, rfl, rfl, hlocated⟩
  rw [bisection_eq, if_neg hl, if_neg hu, if_pos hneg.le, hv]

/-- With the standard settings, the root of `x = 1 / 3` is found to six places. -/
theorem bisection_located_third : ∃ o,
    Id.run (bisection .standard fun x : ℚ => x - 1 / 3) = .ok o ∧ o.converged ∧
      |o.value - 1 / 3| < 1 / 10 ^ 6 := by
  obtain ⟨o, ho, -, hconverged, -, hnear⟩ := bisection_located (s := .standard)
    (f := fun x => x - 1 / 3) (by decide) (by decide +kernel) (by decide +kernel)
  refine ⟨o, ho, hconverged, ?_⟩
  have htol : (Settings.standard : Settings ℚ).tolerance = 1 / 10 ^ 10 := by decide +kernel
  have hwidth : ((100 : ℚ) - -100) / 2 ^ 30 < 1 / 10 ^ 6 := by norm_num
  obtain hsmall | ⟨lo, hi, -, hlo, hhi, -, hneg, hshort⟩ := hnear
  · rw [htol] at hsmall
    exact hsmall.trans (by norm_num)
  · -- the root is between the two points, as the answer is
    have hnarrow : hi - lo < 1 / 10 ^ 6 := by
      obtain h | h := hshort
      · rw [htol] at h
        exact h.trans (by norm_num)
      · exact h.trans_lt hwidth
    have hbetween : lo < 1 / 3 ∧ 1 / 3 < hi := by
      obtain ⟨h1, h2⟩ | ⟨h1, h2⟩ := mul_neg_iff.1 hneg
      · linarith
      · exact ⟨by linarith, by linarith⟩
    rw [abs_lt]
    constructor <;> linarith

/-! ### Widened intervals -/

/-- Halving does not look at the interval of the settings. -/
lemma halve_on (i : ℚ × ℚ) : Id.run (halve { s with bracket := i } f steps l u fl) =
    Id.run (halve s f steps l u fl) := by
  induction steps generalizing l u fl with
  | zero => rw [halve_zero, halve_zero]
  | succ steps ih => rw [halve_succ, halve_succ, ih, ih]

/-- A search on an interval that is given looks at its ends before it halves it. -/
lemma bisection_on {i : ℚ × ℚ} (hsign : f i.1 * f i.2 ≤ 0) :
    Id.run (bisection { s with bracket := i } f) = .ok (
      if f i.1 = 0 then .bisection i.1
      else if f i.2 = 0 then .bisection i.2
      else Id.run (halve s f s.bisectionCap.toNat i.1 i.2 (f i.1))) := by
  rw [bisection_eq]
  dsimp only
  rw [if_pos hsign, halve_on]
  split
  · rfl
  · split <;> rfl

/-- A search that has widened its interval halves it without looking at the new end. -/
lemma bisection_of_widened (hsame : 0 < f s.bracket.1 * f s.bracket.2)
    (hsign : f (s.widened f).1 * f (s.widened f).2 ≤ 0) :
    Id.run (bisection s f) = .ok (Id.run (halve s f s.bisectionCap.toNat (s.widened f).1
      (s.widened f).2 (f (s.widened f).1))) := by
  have hl : f s.bracket.1 ≠ 0 := left_ne_zero_of_mul hsame.ne'
  have hu : f s.bracket.2 ≠ 0 := right_ne_zero_of_mul hsame.ne'
  rw [bisection_eq, if_neg hl, if_neg hu, if_neg (not_le.2 hsame)]
  exact if_pos hsign

/-- The widened interval has its ends in order. -/
lemma widened_lt (hab : s.bracket.1 < s.bracket.2) (hexpansion : 0 < s.expansion) :
    (s.widened f).1 < (s.widened f).2 := by
  unfold Settings.widened
  split
  · exact (sub_lt_self _ hexpansion).trans hab
  · exact hab.trans (lt_add_of_pos_right _ hexpansion)

/--
A search that has widened its interval, and then finds signs that differ, answers like one on the
wider interval if and only if neither of its ends is a root.
-/
theorem bisection_widened_iff (hab : s.bracket.1 < s.bracket.2) (hexpansion : 0 < s.expansion)
    (hsame : 0 < f s.bracket.1 * f s.bracket.2)
    (hsign : f (s.widened f).1 * f (s.widened f).2 ≤ 0) :
    Id.run (bisection s f) = Id.run (bisection { s with bracket := s.widened f } f) ↔
      f (s.widened f).1 ≠ 0 ∧ f (s.widened f).2 ≠ 0 := by
  -- An end that is a root is answered where it is looked at; halving answers with a point inside.
  obtain ⟨v, hv, hlv, hvu⟩ := @halve_between s f _ _ (f (s.widened f).1) s.bisectionCap.toNat
    (widened_lt hab hexpansion)
  rw [bisection_of_widened hsame hsign, bisection_on hsign, hv]
  split
  · rename_i hroot
    simp [hroot, hlv.ne']
  · rename_i hl
    split
    · rename_i hroot
      simp [hroot, hvu.ne]
    · rename_i hu
      simp [hl, hu]

/-- The root of `x = 500` is found in the same way. -/
theorem bisection_widened_iff_right :
    Id.run (bisection .standard fun x : ℚ => x - 500) = Id.run
      (bisection { (.standard : Settings ℚ) with bracket := (-100, 1000) } fun x => x - 500) := by
  have hwidened : Settings.standard.widened (fun x => x - 500) = (-100, 1000) := by decide +kernel
  have h := bisection_widened_iff (s := .standard) (f := fun x => x - 500) (by decide) (by decide)
    (by decide +kernel) (by rw [hwidened]; decide +kernel)
  rw [hwidened] at h
  exact h.2 ⟨by decide +kernel, by decide +kernel⟩

/--
The root of `x = -1000` is an end of the interval `[-1000, 100]`. On this interval it is answered at
once, while a search that has widened `[-100, 100]` to it goes away from the root, to the other end.
-/
theorem bisection_widened_root :
    let s : Settings ℚ := .standard
    let f : ℚ → ℚ := fun x => x + 1000
    (0 < s.tolerance ∧ s.bracket.1 < s.bracket.2 ∧ 0 < s.expansion ∧
      0 < f s.bracket.1 * f s.bracket.2 ∧ f (s.widened f).1 * f (s.widened f).2 ≤ 0) ∧
    Id.run (bisection { s with bracket := s.widened f } f) = .ok (.bisection (-1000)) ∧
    Id.run (bisection s f) = .ok (.bisection (100 - 1100 / 2 ^ 31)) := by
  decide +kernel

end Formulary.Numeric
