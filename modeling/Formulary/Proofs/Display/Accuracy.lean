import Formulary.Proofs.Display.Numeral

/-!
# What is displayed

A value is displayed as a numeral of a number that is close to it (`displayText_accurate`): up to half
a unit of the fifth place in fixed form, and up to one part in two hundred in scientific form. Which
form is taken, and what is shown as zero, is decided on the exact value.
-/

namespace Formulary

open Formulary.Number

/-- The magnitudes at which the form changes are those of doubles. -/
theorem exactValue?_thresholds : exactValue? 5e-4 = some zeroBelow ∧
    exactValue? 1e-3 = some fixedFrom ∧ exactValue? 1e4 = some fixedBelow := by
  decide +kernel

/-- There are values that are shown as zero. -/
lemma zeroBelow_pos : 0 < zeroBelow := by decide +kernel

/--
How a number is displayed that is not rounded to zero: as a numeral of a close number with the same
sign, with a minus if the number is negative.
-/
structure Displays (s : List Char) (v d : ℚ) : Prop where
  denoted : denoted? s = some d
  sign : SignType.sign d = SignType.sign v
  body : ∃ body, s = (if v < 0 then ['-'] else []) ++ body ∧
    if fixedFrom ≤ |v| ∧ |v| < fixedBelow then |d - v| ≤ 5 / 10 ^ 6 ∧ IsFixedForm 5 body
    else |d - v| ≤ 5 / 10 ^ 3 * |v| ∧ IsScientificForm 2 body

/-- A number that is closer to another one than zero is has the sign of that one. -/
lemma sign_eq_of_abs_sub_lt {d v : ℚ} (h : |d - v| < |v|) : SignType.sign d = SignType.sign v := by
  rw [abs_lt] at h
  obtain hv | rfl | hv := lt_trichotomy v 0
  · rw [abs_of_neg hv] at h
    rw [sign_neg hv, sign_neg (by linarith)]
  · simp at h
    linarith
  · rw [abs_of_pos hv] at h
    rw [sign_pos hv, sign_pos (by linarith)]

namespace Shown

open Double

variable {rounded negative : Bool} {n m : ℕ} {q e : ℤ}

/-- The form of what is shown depends on the magnitude. -/
lemma of_eq (rounded negative : Bool) (m : ℕ) (q : ℤ) : Shown.of rounded negative m q =
    if m = 0 ∨ rounded ∧ magnitude m q < zeroBelow then .zero
    else if magnitude m q < fixedFrom ∨ fixedBelow ≤ magnitude m q then
      .scientific negative (scientificUnits scientificPlaces m q).1
        (scientificUnits scientificPlaces m q).2
    else .fixed negative (fixedUnits fixedPlaces m q) := by
  rw [← mkRat_fraction]
  rfl

/-- What is shown in fixed form is worth its units of the last place. -/
lemma value_fixed : (fixed negative n).value = signed negative (n / 10 ^ fixedPlaces) := by
  simp only [value, signed, Rat.mkRat_eq_div, Int.cast_natCast, Nat.pow_eq]
  push_cast
  rfl

/-- What is shown in scientific form is worth its digits times a power of ten. -/
lemma value_scientific : (scientific negative n e).value =
    signed negative (n * 10 ^ (e - scientificPlaces)) := by
  by_cases he : 0 ≤ e - scientificPlaces
  · simp only [value, signed, if_pos he, zpow_of_nonneg he, Rat.mkRat_eq_div, Nat.pow_eq]
    push_cast
    rw [div_one]
  · simp only [value, signed, if_neg he, zpow_of_neg he, neg_sub, Rat.mkRat_eq_div, Nat.pow_eq]
    push_cast
    rfl

/-- The text of what is shown denotes the number that is shown. -/
theorem denoted?_text (rounded negative : Bool) (m : ℕ) (q : ℤ) :
    denoted? (Shown.of rounded negative m q).text = some (Shown.of rounded negative m q).value := by
  rw [of_eq]
  split
  · decide +kernel
  · rename_i hm
    split
    · obtain ⟨hlow, hhigh, -⟩ := scientificUnits_spec scientificPlaces q
        (Nat.pos_of_ne_zero fun h => hm (.inl h))
      obtain ⟨hform, hread⟩ := isScientificForm_scientificText hlow hhigh
        (scientificUnits scientificPlaces m q).2
      rw [value_scientific]
      exact denoted?_signed negative hform.begins hread
    · obtain ⟨hform, a, e, hread, hvalue⟩ :=
        isFixedForm_dropTrailing fixedPlaces (fixedUnits fixedPlaces m q)
      rw [value_fixed, ← hvalue]
      exact denoted?_signed negative hform.begins hread

/-- In fixed form the number that is shown is close to the value. -/
lemma abs_value_fixed_sub_le (negative : Bool) (m : ℕ) (q : ℤ) :
    |(fixed negative (fixedUnits fixedPlaces m q)).value - signed negative (magnitude m q)| ≤
      5 / 10 ^ 6 := by
  have herror := abs_fixedUnits_sub_le fixedPlaces m q
  have hscale : (0 : ℚ) < 10 ^ fixedPlaces := by positivity
  rw [value_fixed, signed_sub, abs_signed]
  calc |(fixedUnits fixedPlaces m q : ℚ) / 10 ^ fixedPlaces - magnitude m q|
      = |(fixedUnits fixedPlaces m q : ℚ) - magnitude m q * 10 ^ fixedPlaces| / 10 ^ fixedPlaces := by
        rw [← abs_of_pos hscale, ← abs_div, sub_div, abs_of_pos hscale,
          mul_div_cancel_right₀ _ hscale.ne']
    _ ≤ 1 / 2 / 10 ^ fixedPlaces := by gcongr
    _ = 5 / 10 ^ 6 := by norm_num [fixedPlaces]

/-- In scientific form it is close in proportion to the value. -/
lemma abs_value_scientific_sub_le (negative : Bool) (q : ℤ) (hm : 0 < m) :
    |(scientific negative (scientificUnits scientificPlaces m q).1
        (scientificUnits scientificPlaces m q).2).value - signed negative (magnitude m q)| ≤
      5 / 10 ^ 3 * magnitude m q := by
  rw [value_scientific, signed_sub, abs_signed]
  refine (scientificUnits_spec scientificPlaces q hm).2.2.trans_eq ?_
  norm_num [scientificPlaces]
  ring

/-- The text in fixed form is that of the magnitude, behind a minus for a negative value. -/
lemma text_fixed {v : ℚ} (hv : 0 < v) : (fixed negative n).text =
    (if signed negative v < 0 then ['-'] else []) ++ dropTrailing (fixedText fixedPlaces n) := by
  simp only [signed_neg_iff hv]
  rfl

/-- The text in scientific form is that of the magnitude, behind a minus for a negative value. -/
lemma text_scientific {v : ℚ} (hv : 0 < v) : (scientific negative n e).text =
    (if signed negative v < 0 then ['-'] else []) ++ scientificText scientificPlaces n e := by
  simp only [signed_neg_iff hv]
  rfl

/-- What is shown of a value that is not rounded to zero. -/
lemma displays_of (h : zeroBelow ≤ magnitude m q) (negative : Bool) :
    Displays (Shown.of true negative m q).text (signed negative (magnitude m q))
      (Shown.of true negative m q).value := by
  have hpos : 0 < magnitude m q := zeroBelow_pos.trans_le h
  have habs : |signed negative (magnitude m q)| = magnitude m q := by
    rw [abs_signed, abs_of_pos hpos]
  have hm : 0 < m := Nat.pos_of_ne_zero fun hm => hpos.ne' (magnitude_eq_zero.2 hm)
  have hshown : ¬ (m = 0 ∨ true ∧ magnitude m q < zeroBelow) := by
    rintro (hzero | ⟨-, hlt⟩)
    · exact hm.ne' hzero
    · exact absurd h (not_le.2 hlt)
  have hdenoted := denoted?_text true negative m q
  rw [of_eq, if_neg hshown] at hdenoted ⊢
  split
  · rename_i hrange
    rw [if_pos hrange] at hdenoted
    have hclose := abs_value_scientific_sub_le negative q hm
    obtain ⟨hlow, hhigh, -⟩ := scientificUnits_spec scientificPlaces q hm
    refine ⟨hdenoted, sign_eq_of_abs_sub_lt ?_, _, text_scientific hpos, ?_⟩
    · rw [habs]
      linarith
    · rw [habs, if_neg fun hfixed => hrange.elim hfixed.1.not_gt hfixed.2.not_ge]
      exact ⟨hclose, (isScientificForm_scientificText hlow hhigh _).1⟩
  · rename_i hrange
    rw [if_neg hrange] at hdenoted
    rw [not_or, not_lt, not_le] at hrange
    have hclose := abs_value_fixed_sub_le negative m q
    have hunit : 5 / 10 ^ 6 < fixedFrom := by decide +kernel
    refine ⟨hdenoted, sign_eq_of_abs_sub_lt ?_, _, text_fixed hpos, ?_⟩
    · rw [habs]
      linarith
    · rw [habs, if_pos hrange]
      exact ⟨hclose, (isFixedForm_dropTrailing _ _).1⟩

end Shown

/--
A finite value is displayed as zero exactly if its magnitude is below `0.0005`. Otherwise the text is a
numeral, with a minus exactly if the value is negative, which denotes a number with the sign of the
value. From `0.001` up to `10000` it is in fixed form and off by at most half a unit of the fifth
place, and elsewhere it is in scientific form and off by at most one part in two hundred.
-/
theorem displayText_accurate {x : Float} (hx : x.isFinite) :
    ∃ v, exactValue? x = some v ∧ (displayText true x = "0" ↔ |v| < zeroBelow) ∧
      (zeroBelow ≤ |v| → ∃ d, Displays (displayText true x).toList v d) := by
  obtain ⟨negative, m, q, hfinite⟩ := ofFloat_of_isFinite hx
  have htext : displayText true x = String.ofList (Shown.of true negative m q).text := by
    rw [displayText, hfinite]
  refine ⟨_, exactValue?_of_finite hfinite, ?_⟩
  rw [htext, String.toList_ofList, abs_signed, abs_of_nonneg magnitude_nonneg]
  have hlarge : zeroBelow ≤ Double.magnitude m q → _ := fun h => Shown.displays_of h negative
  refine ⟨⟨fun hzero => ?_, fun hsmall => ?_⟩, fun h => ⟨_, hlarge h⟩⟩
  · by_contra h
    have hpos : 0 < Double.magnitude m q := zeroBelow_pos.trans_le (not_lt.1 h)
    obtain ⟨hdenoted, hsign, -⟩ := hlarge (not_lt.1 h)
    rw [← String.toList_inj, String.toList_ofList] at hzero
    have hnone : denoted? "0".toList = some 0 := by decide +kernel
    rw [hzero, hnone, Option.some.injEq] at hdenoted
    rw [← hdenoted, sign_zero, eq_comm, sign_eq_zero_iff, ← abs_eq_zero, abs_signed, abs_of_pos hpos]
      at hsign
    exact hpos.ne' hsign
  · rw [Shown.of_eq, if_pos (.inr ⟨rfl, hsmall⟩)]
    rfl

/-- A value whose digits are rounded up to the magnitude from which on the form is fixed. -/
theorem displayText_accurate_carry :
    let v : ℚ := -1152909975391801 / 1152921504606846976
    (-0.00099999 : Float).isFinite ∧ exactValue? (-0.00099999) = some v ∧ zeroBelow ≤ |v| ∧
      displayText true (-0.00099999) ≠ "0" ∧
        ∃ d, Displays (displayText true (-0.00099999)).toList v d := by
  intro v
  have hfinite : (-0.00099999 : Float).isFinite := by decide +kernel
  have hv : exactValue? (-0.00099999) = some v := by decide +kernel
  have hlarge : zeroBelow ≤ |v| := by decide +kernel
  obtain ⟨w, hw, hzero, hdisplays⟩ := displayText_accurate hfinite
  cases hv.symm.trans hw
  exact ⟨hfinite, hv, hlarge, fun h => absurd (hzero.1 h) (not_lt.2 hlarge), hdisplays hlarge⟩

example : displayText true (-0.00099999) = "-1.00e-03" := by decide +kernel

end Formulary
