import Formulary.Proofs.Display.Accuracy
import Formulary.Proofs.Number.Order

/-!
# The order of what is displayed

A greater value is not displayed as a lesser number (`displayText_mono`). Each form keeps the order of
the magnitudes that are shown in it. The magnitudes from which on the form is another one are shown as
`0.001` and as `10000` in either form, so what is shown on one side of them stays on that side.
-/

namespace Formulary

open Formulary.Number

namespace Shown

open Double

variable {rounded : Bool} {m n : ℕ} {q e : ℤ}

/-- The number that a magnitude is shown as in scientific form. -/
def scientificValue (m : ℕ) (q : ℤ) : ℚ :=
  (scientificUnits scientificPlaces m q).1 *
    10 ^ ((scientificUnits scientificPlaces m q).2 - scientificPlaces)

/-- The number that a magnitude is shown as in fixed form. -/
def fixedValue (m : ℕ) (q : ℤ) : ℚ := fixedUnits fixedPlaces m q / 10 ^ fixedPlaces

/-- The number that a magnitude is shown as. -/
def shownMagnitude (rounded : Bool) (m : ℕ) (q : ℤ) : ℚ :=
  if m = 0 ∨ rounded ∧ magnitude m q < zeroBelow then 0
  else if magnitude m q < fixedFrom ∨ fixedBelow ≤ magnitude m q then scientificValue m q
  else fixedValue m q

/-- What is shown is the sign of the value and what its magnitude is shown as. -/
lemma value_of (rounded negative : Bool) (m : ℕ) (q : ℤ) :
    (Shown.of rounded negative m q).value = signed negative (shownMagnitude rounded m q) := by
  rw [of_eq, shownMagnitude]
  split
  · cases negative
    · rfl
    · exact neg_zero.symm
  · split
    · exact value_scientific
    · exact value_fixed

/-- What scientific form shows is not negative. -/
lemma scientificValue_nonneg : 0 ≤ scientificValue m q := by
  unfold scientificValue
  positivity

/-- What fixed form shows is not negative. -/
lemma fixedValue_nonneg : 0 ≤ fixedValue m q := by
  unfold fixedValue
  positivity

/-- What is shown of a magnitude is not negative. -/
lemma shownMagnitude_nonneg : 0 ≤ shownMagnitude rounded m q := by
  unfold shownMagnitude
  split
  · exact le_rfl
  · split
    · exact scientificValue_nonneg
    · exact fixedValue_nonneg

/-- Zero is shown as zero. -/
lemma shownMagnitude_of_magnitude_eq_zero (h : magnitude m q = 0) : shownMagnitude rounded m q = 0 :=
  if_pos (.inl (magnitude_eq_zero.1 h))

/-- In scientific form no magnitude is shown as more than a larger one. -/
lemma scientificValue_mono (hm : 0 < m) (h : magnitude m q ≤ magnitude n e) :
    scientificValue m q ≤ scientificValue n e := scientificUnits_mono scientificPlaces hm h

/-- In fixed form no magnitude is shown as more than a larger one. -/
lemma fixedValue_mono (h : magnitude m q ≤ magnitude n e) : fixedValue m q ≤ fixedValue n e := by
  have := fixedUnits_mono fixedPlaces h
  unfold fixedValue
  gcongr

/-! ### Where the form changes -/

/-- The magnitude where fixed form begins is that of a double. -/
lemma fixedFrom_eq : fixedFrom = magnitude 0x10624DD2F1A9FC (-62) := by
  rw [← mkRat_fraction]
  rfl

/-- The magnitude where fixed form ends is that of a double. -/
lemma fixedBelow_eq : fixedBelow = magnitude 10000 0 := by
  rw [← mkRat_fraction]
  decide +kernel

/-- The magnitude from which on the form is fixed is shown as the same number in either form. -/
lemma values_fixedFrom : scientificValue 0x10624DD2F1A9FC (-62) = 1 / 1000 ∧
    fixedValue 0x10624DD2F1A9FC (-62) = 1 / 1000 := by
  have hscientific : scientificUnits scientificPlaces 0x10624DD2F1A9FC (-62) = (100, -3) := by
    decide +kernel
  have hfixed : fixedUnits fixedPlaces 0x10624DD2F1A9FC (-62) = 100 := by decide +kernel
  constructor
  · rw [scientificValue, hscientific]
    norm_num [scientificPlaces]
  · rw [fixedValue, hfixed]
    norm_num [fixedPlaces]

/-- So is the one from which on it is scientific again. -/
lemma values_fixedBelow : scientificValue 10000 0 = 10000 ∧ fixedValue 10000 0 = 10000 := by
  have hscientific : scientificUnits scientificPlaces 10000 0 = (100, 4) := by decide +kernel
  have hfixed : fixedUnits fixedPlaces 10000 0 = 10 ^ 9 := by decide +kernel
  constructor
  · rw [scientificValue, hscientific]
    norm_num [scientificPlaces]
  · rw [fixedValue, hfixed]
    norm_num [fixedPlaces]

/-- What scientific form shows below the fixed forms is at most `0.001`. -/
lemma scientificValue_le_of_lt (hm : 0 < m) (h : magnitude m q < fixedFrom) :
    scientificValue m q ≤ 1 / 1000 := by
  rw [fixedFrom_eq] at h
  exact values_fixedFrom.1 ▸ scientificValue_mono hm h.le

/-- What fixed form shows is at least `0.001`. -/
lemma le_fixedValue_of_le (h : fixedFrom ≤ magnitude m q) : 1 / 1000 ≤ fixedValue m q := by
  rw [fixedFrom_eq] at h
  exact values_fixedFrom.2 ▸ fixedValue_mono h

/-- What fixed form shows is at most `10000`. -/
lemma fixedValue_le_of_lt (h : magnitude m q < fixedBelow) : fixedValue m q ≤ 10000 := by
  rw [fixedBelow_eq] at h
  exact values_fixedBelow.2 ▸ fixedValue_mono h.le

/-- What scientific form shows beyond the fixed forms is at least `10000`. -/
lemma le_scientificValue_of_le (h : fixedBelow ≤ magnitude m q) : 10000 ≤ scientificValue m q := by
  rw [fixedBelow_eq] at h
  exact values_fixedBelow.1 ▸ scientificValue_mono (by decide) h

/-! ### Order -/

/-- A value that is not shown as zero is shown on the side of the thresholds where it lies. -/
lemma mono_of_ne_zero (hm : 0 < m) (h : magnitude m q ≤ magnitude n e) :
    (if magnitude m q < fixedFrom ∨ fixedBelow ≤ magnitude m q then scientificValue m q
      else fixedValue m q) ≤
    if magnitude n e < fixedFrom ∨ fixedBelow ≤ magnitude n e then scientificValue n e
      else fixedValue n e := by
  split
  · rename_i hleft
    split
    · exact scientificValue_mono hm h
    · rename_i hright
      rw [not_or, not_lt, not_le] at hright
      have hsmall := hleft.resolve_right fun hlarge => (hlarge.trans h).not_gt hright.2
      exact (scientificValue_le_of_lt hm hsmall).trans (le_fixedValue_of_le hright.1)
  · rename_i hleft
    rw [not_or, not_lt, not_le] at hleft
    split
    · rename_i hright
      have hlarge := hright.resolve_left (hleft.1.trans h).not_gt
      exact (fixedValue_le_of_lt hleft.2).trans (le_scientificValue_of_le hlarge)
    · exact fixedValue_mono h

/-- A greater magnitude is not shown as a lesser number. -/
theorem shownMagnitude_mono (rounded : Bool) (h : magnitude m q ≤ magnitude n e) :
    shownMagnitude rounded m q ≤ shownMagnitude rounded n e := by
  rw [shownMagnitude]
  split
  · exact shownMagnitude_nonneg
  · rename_i hm
    rw [not_or] at hm
    have hn : ¬ (n = 0 ∨ rounded ∧ magnitude n e < zeroBelow) := by
      rintro (hn | ⟨hrounded, hsmall⟩)
      · rw [magnitude_eq_zero.2 hn] at h
        exact hm.1 (magnitude_eq_zero.1 (h.antisymm magnitude_nonneg))
      · exact hm.2 ⟨hrounded, h.trans_lt hsmall⟩
    rw [shownMagnitude, if_neg hn]
    exact mono_of_ne_zero (Nat.pos_of_ne_zero hm.1) h

/-- What is shown of two values is in their order, whatever their signs are. -/
theorem value_mono (rounded : Bool) {s t : Bool}
    (h : signed s (magnitude m q) ≤ signed t (magnitude n e)) :
    (Shown.of rounded s m q).value ≤ (Shown.of rounded t n e).value := by
  have hm : 0 ≤ magnitude m q := magnitude_nonneg
  have hn : 0 ≤ magnitude n e := magnitude_nonneg
  rw [value_of, value_of]
  cases s <;> cases t
  · exact shownMagnitude_mono rounded h
  · -- Only zero is at most the negative of a magnitude.
    have h : magnitude m q ≤ -magnitude n e := h
    rw [shownMagnitude_of_magnitude_eq_zero (m := m) (q := q) (by linarith),
      shownMagnitude_of_magnitude_eq_zero (m := n) (q := e) (by linarith)]
    rfl
  · exact (neg_nonpos.2 shownMagnitude_nonneg).trans shownMagnitude_nonneg
  · exact neg_le_neg (shownMagnitude_mono rounded (neg_le_neg_iff.1 h))

end Shown

/-- The text of a finite value denotes the number that is shown. -/
lemma exists_shown (rounded : Bool) {x : Float} (hx : x.isFinite) :
    ∃ negative m q, toReal x = (signed negative (Double.magnitude m q) : ℚ) ∧
      denoted? (displayText rounded x).toList = some (Shown.of rounded negative m q).value := by
  obtain ⟨negative, m, q, hfinite⟩ := ofFloat_of_isFinite hx
  refine ⟨negative, m, q, toReal_of_exactValue? (exactValue?_of_finite hfinite), ?_⟩
  rw [displayText, hfinite, String.toList_ofList]
  exact Shown.denoted?_text rounded negative m q

/-- Of two finite values the greater one is not displayed as a lesser number, in whichever forms. -/
theorem displayText_mono (rounded : Bool) {x y : Float} (hx : x.isFinite) (hy : y.isFinite)
    (h : x ≤ y) : ∃ d e, denoted? (displayText rounded x).toList = some d ∧
      denoted? (displayText rounded y).toList = some e ∧ d ≤ e := by
  obtain ⟨s, m, q, hxvalue, hxshown⟩ := exists_shown rounded hx
  obtain ⟨t, n, e, hyvalue, hyshown⟩ := exists_shown rounded hy
  rw [le_iff hx hy, hxvalue, hyvalue, Rat.cast_le] at h
  exact ⟨_, _, hxshown, hyshown, Shown.value_mono rounded h⟩

/-- A value that is shown in scientific form and a greater one that is shown in fixed form. -/
theorem displayText_mono_carry : (-10000.0 : Float).isFinite ∧ (-9999.999999 : Float).isFinite ∧
    (-10000.0 : Float) ≤ -9999.999999 ∧ ∃ d e,
      denoted? (displayText true (-10000.0)).toList = some d ∧
      denoted? (displayText true (-9999.999999)).toList = some e ∧ d ≤ e := by
  have hx : (-10000.0 : Float).isFinite := by decide +kernel
  have hy : (-9999.999999 : Float).isFinite := by decide +kernel
  have hle : (-10000.0 : Float) ≤ -9999.999999 := by decide +kernel
  exact ⟨hx, hy, hle, displayText_mono true hx hy hle⟩

example : displayText true (-10000.0) = "-1.00e+04" ∧ displayText true (-9999.999999) = "-10000" := by
  decide +kernel

end Formulary
