import Formulary.Proofs.Number.Exact

/-!
# Rounding

The operations on doubles are those on numbers, rounded: the result is off by at most a half of the
unit of its last digit, and no double lies between it and the result (`Rounds`). A number is rounded
from a mantissa with two more bits, which say what the digits are that are left out (`Represents`).
-/

namespace Formulary.Number

open Float.Model.UnpackedFloat
open Float.Model (UnpackedFloat Format totalExponent)

variable {em : ExtendedMantissa} {s : Sign} {m n k : ℕ} {e f g : ℤ} {acc : Accuracy} {y r : ℝ}

/-- That a mantissa and the bits after it are those of a number. -/
inductive Represents (em : ExtendedMantissa) (y : ℝ) : Prop
  | of (t : ℝ) (hy : y = em.mantissa + (if em.roundBit then 1 / 2 else 0) + t) (h0 : 0 ≤ t)
    (h1 : t < 1 / 2) (hsticky : em.stickyBit = true ↔ t ≠ 0)

/-- A half of a number has one digit less. -/
lemma Represents.shiftRightOne (h : Represents em y) : Represents em.shiftRightOne (y / 2) := by
  obtain ⟨t, rfl, h0, h1, hsticky⟩ := h
  obtain ⟨m, round, sticky⟩ := em
  have hm : (m : ℝ) = 2 * (m / 2 : ℕ) + (m % 2 : ℕ) := by exact_mod_cast (Nat.div_add_mod m 2).symm
  refine ⟨(if round then 1 / 4 else 0) + t / 2, ?_, by positivity, ?_, ?_⟩
  · simp only [ExtendedMantissa.shiftRightOne]
    obtain hmod | hmod := Nat.mod_two_eq_zero_or_one m
    · cases round <;> simp only [hm, hmod] <;> norm_num <;> ring
    · cases round <;> simp only [hm, hmod] <;> norm_num <;> ring
  · cases round <;> norm_num <;> linarith
  · simp only [ExtendedMantissa.shiftRightOne] at hsticky ⊢
    cases round
    · simpa using hsticky
    · have : (1 / 4 : ℝ) + t / 2 ≠ 0 := by linarith
      simpa using this

/-- A number over a power of two has as many digits less. -/
lemma Represents.shiftRight (h : Represents em y) (k : ℕ) : Represents (em >>> k) (y / 2 ^ k) := by
  induction k with
  | zero =>
    rw [pow_zero, div_one]
    exact h
  | succ k ih =>
    rw [pow_succ, ← div_div]
    exact ih.shiftRightOne

/-- Shifting drops the last digits of a mantissa. -/
lemma mantissa_shiftRight (em : ExtendedMantissa) (k : ℕ) :
    (em >>> k).mantissa = em.mantissa / 2 ^ k := by
  induction k with
  | zero => exact (Nat.div_one _).symm
  | succ k ih =>
    rw [pow_succ, ← Nat.div_div_eq_div_mul, ← ih]
    rfl

/-- The rounded mantissa is off by a half at most. -/
lemma Represents.abs_rounded_sub_le (h : Represents em y) : |(em.roundedMantissa : ℝ) - y| ≤ 1 / 2 := by
  -- The digits left out are less than a half, exactly a half, or more. Only exactly a half, a
  -- round bit and nothing after it, is rounded to the even neighbour.
  obtain ⟨t, rfl, h0, h1, hsticky⟩ := h
  obtain ⟨m, round, sticky⟩ := em
  rw [abs_le]
  cases round <;> cases sticky
  · obtain rfl : t = 0 := by simpa using hsticky
    show _ ≤ (m : ℝ) - _ ∧ (m : ℝ) - _ ≤ _
    norm_num
  · show _ ≤ (m : ℝ) - _ ∧ (m : ℝ) - _ ≤ _
    norm_num
    constructor <;> linarith
  · obtain rfl : t = 0 := by simpa using hsticky
    show _ ≤ ((m + m % 2 : ℕ) : ℝ) - _ ∧ ((m + m % 2 : ℕ) : ℝ) - _ ≤ _
    obtain hmod | hmod := Nat.mod_two_eq_zero_or_one m <;> rw [hmod] <;> norm_num
  · show _ ≤ ((m + 1 : ℕ) : ℝ) - _ ∧ ((m + 1 : ℕ) : ℝ) - _ ≤ _
    push_cast
    norm_num
    constructor <;> linarith

/-- The rounded mantissa is the one that digits are left out of, or the next one. -/
lemma roundedMantissa_bounds (em : ExtendedMantissa) :
    em.mantissa ≤ em.roundedMantissa ∧ em.roundedMantissa ≤ em.mantissa + 1 := by
  obtain ⟨m, round, sticky⟩ := em
  cases round <;> cases sticky
  · exact ⟨Nat.le_refl _, Nat.le_succ _⟩
  · exact ⟨Nat.le_refl _, Nat.le_succ _⟩
  · show m ≤ m + m % 2 ∧ m + m % 2 ≤ m + 1
    omega
  · exact ⟨Nat.le_succ _, Nat.le_refl _⟩

/-- The exponent of the last digit that a double with such a leading digit has. -/
def lastExponent (m : ℕ) (e : ℤ) : ℤ := max (m.log2 + e - 52) (-1074)

/-- The exponent of the last digit, as rounding takes it. -/
lemma targetExponent_eq : Format.binary64.targetExponent (totalExponent m e) = lastExponent m e := by
  simp only [Format.targetExponent, totalExponent, lastExponent]
  congr 1
  show (m.log2 : ℤ) + 1 + e - 53 = _
  omega

/-- A mantissa of at most 53 digits stays as it is. -/
lemma shiftToTargetExponent_small (hm : m < 2 ^ 53) (he : -1074 ≤ e) :
    shiftToTargetExponent Format.binary64 m e .exact = (⟨m, false, false⟩, e) := by
  have hlog : m.log2 ≤ 52 := by
    by_cases h : m = 0
    · simp [h]
    · have := (Nat.log2_lt h).2 hm
      omega
  have hshift : (lastExponent m e - e).toNat = 0 := by
    simp only [lastExponent]
    omega
  rw [shiftToTargetExponent, targetExponent_eq, shiftToExponent, hshift]
  simp only [Nat.cast_zero, add_zero]
  rfl

/-- A mantissa that was rounded up to the next power of two loses its last digit. -/
lemma shiftToTargetExponent_carry (he : -1074 ≤ e) :
    shiftToTargetExponent Format.binary64 (2 ^ 53) e .exact = (⟨2 ^ 52, false, false⟩, e + 1) := by
  have hshift : (lastExponent (2 ^ 53) e - e).toNat = 1 := by
    simp only [lastExponent, Nat.log2_two_pow]
    omega
  rw [shiftToTargetExponent, targetExponent_eq, shiftToExponent, hshift]
  rfl

/-- That an unpacked double is the one that a number is rounded to. -/
structure Rounded (u : UnpackedFloat) (r : ℝ) : Prop where
  form : (∃ s, u = .zero s) ∨ ∃ s m e, ∃ hm : 0 < m, u = .finite s m e hm ∧ Canonical m e ∧
    (|r| < 2 ^ 1023 → e ≤ 971)
  near : |unpackedReal u - r| ≤ roundoff * |r| + underflow
  /-- no double lies between the number and the one that it is rounded to -/
  ordered : ∀ q, IsDouble q → (q ≤ r → q ≤ unpackedReal u) ∧ (r ≤ q → unpackedReal u ≤ q)

/-- The mantissa that a number is represented with. -/
lemma mantissa_ofMantissaAndAccuracy :
    (ExtendedMantissa.ofMantissaAndAccuracy m acc).mantissa = m := by
  cases acc with
  | exact => rfl
  | inexact o => cases o <;> rfl

/-- A mantissa is at most as large as the number that it represents. -/
lemma Represents.le (h : Represents em y) : em.mantissa ≤ y := by
  obtain ⟨t, rfl, h0, -⟩ := h
  cases em.roundBit <;> norm_num <;> linarith

/-- The leading digit of a number bounds it from below. -/
lemma two_zpow_le (hm : 0 < m) (hy : m ≤ y) : (2 : ℝ) ^ ((m.log2 : ℤ) + e) ≤ y * 2 ^ e := by
  have hlog : ((2 ^ m.log2 : ℕ) : ℝ) ≤ m := by exact_mod_cast Nat.log2_self_le hm.ne'
  rw [zpow_add₀ (by norm_num), zpow_natCast]
  push_cast at hlog
  gcongr
  exact hlog.trans hy

/-- A mantissa is rounded to 53 digits, or to less at the lowest exponent. -/
lemma shifted_bounds (hk : lastExponent m e = e + k) :
    m / 2 ^ k < 2 ^ 53 ∧ (2 ^ 52 ≤ m / 2 ^ k ∨ lastExponent m e = -1074) := by
  have hlast : lastExponent m e = max (m.log2 + e - 52) (-1074) := rfl
  constructor
  · rw [Nat.div_lt_iff_lt_mul (Nat.two_pow_pos k), ← pow_add]
    exact Nat.lt_log2_self.trans_le (Nat.pow_le_pow_right (by decide) (by omega))
  · refine or_iff_not_imp_right.2 fun hne => ?_
    have hlog : m.log2 = 52 + k := by omega
    have hm : m ≠ 0 := by
      rintro rfl
      rw [Nat.log2_zero] at hlog
      omega
    rw [Nat.le_div_iff_mul_le (Nat.two_pow_pos k), ← pow_add, ← hlog]
    exact Nat.log2_self_le hm

/-- A number has 53 digits, unless it is as small as doubles get. -/
lemma unit_le (he : e ≤ lastExponent m e) (hy : (m : ℝ) ≤ y) :
    2 ^ 52 * 2 ^ lastExponent m e ≤ y * 2 ^ e ∨ lastExponent m e = -1074 := by
  have hlast : lastExponent m e = max (m.log2 + e - 52) (-1074) := rfl
  refine or_iff_not_imp_right.2 fun hmin => ?_
  have hm : 0 < m := by
    by_contra hm
    obtain rfl : m = 0 := by omega
    simp only [Nat.log2_zero] at hlast
    omega
  have hexponent : lastExponent m e + 52 = (m.log2 : ℤ) + e := by omega
  calc (2 : ℝ) ^ 52 * 2 ^ lastExponent m e = 2 ^ (lastExponent m e + 52) := by
        rw [zpow_add₀ (by norm_num), mul_comm]
        norm_num
    _ ≤ y * 2 ^ e := hexponent ▸ two_zpow_le hm hy

/-- The unit of the last digit is small against the number, or as small as it can be. -/
lemma half_unit_le (he : e ≤ lastExponent m e) (hy : (m : ℝ) ≤ y) :
    (2 : ℝ) ^ (lastExponent m e - 1) ≤ roundoff * (y * 2 ^ e) + underflow := by
  have hy0 : 0 ≤ y := m.cast_nonneg.trans hy
  obtain hunit | hmin := unit_le he hy
  · calc (2 : ℝ) ^ (lastExponent m e - 1) = roundoff * (2 ^ 52 * 2 ^ lastExponent m e) := by
          rw [roundoff, zpow_sub_one₀ (by norm_num)]
          ring
      _ ≤ roundoff * (y * 2 ^ e) := mul_le_mul_of_nonneg_left hunit roundoff_pos.le
      _ ≤ roundoff * (y * 2 ^ e) + underflow := le_add_of_nonneg_right underflow_pos.le
  · rw [hmin]
    exact le_add_of_nonneg_left (mul_nonneg roundoff_pos.le (by positivity))

/-- The exponent of a number that is not too large. -/
lemma lastExponent_lt (he : e ≤ lastExponent m e) (hy : (m : ℝ) ≤ y) (hr : y * 2 ^ e < 2 ^ 1023) :
    lastExponent m e + 1 ≤ 971 := by
  have hlast : lastExponent m e = max (m.log2 + e - 52) (-1074) := rfl
  by_cases hm : m = 0
  · subst hm
    simp only [Nat.log2_zero] at hlast
    omega
  · have hle : (2 : ℝ) ^ ((m.log2 : ℤ) + e) < 2 ^ (1023 : ℤ) :=
      (two_zpow_le (Nat.pos_of_ne_zero hm) hy).trans_lt (by rwa [← zpow_natCast] at hr)
    have := (zpow_lt_zpow_iff_right₀ (by norm_num : (1 : ℝ) < 2)).1 hle
    omega

/-- What a rounded mantissa is brought to: 53 digits, of which the last one is that of the exponent. -/
noncomputable def settled (s : Sign) (n : ℕ) (f : ℤ) : UnpackedFloat :=
  if h : n = 0 then .zero s
  else if n < 2 ^ 53 then .finite s n f (Nat.pos_of_ne_zero h)
  else .finite s (2 ^ 52) (f + 1) (by decide)

/-- What is settled denotes the rounded mantissa. -/
lemma unpackedReal_settled (hn : n ≤ 2 ^ 53) :
    unpackedReal (settled s n f) = withSignOf s (n * 2 ^ f) := by
  rw [settled]
  split
  · rename_i h0
    rw [h0, Nat.cast_zero, zero_mul, withSignOf_zero]
    rfl
  · split
    · rfl
    · obtain rfl : n = 2 ^ 53 := by omega
      refine congrArg (withSignOf s) ?_
      rw [zpow_add_one₀ (by norm_num)]
      push_cast
      ring

/-- What is settled is zero or has the form of a double. -/
lemma settled_form (hlow : -1074 ≤ f) (hn : 2 ^ 52 ≤ n ∨ f = -1074) :
    (∃ s', settled s n f = .zero s') ∨ ∃ s' m e, ∃ hm : 0 < m,
      settled s n f = .finite s' m e hm ∧ Canonical m e ∧ e ≤ f + 1 := by
  rw [settled]
  split
  · exact .inl ⟨s, rfl⟩
  · rename_i h0
    have hpos := Nat.pos_of_ne_zero h0
    split
    · exact .inr ⟨_, _, _, hpos, rfl, ⟨hpos, ‹_›, hlow, hn⟩, by omega⟩
    · exact .inr ⟨_, _, _, by decide, rfl, ⟨by decide, by decide, by omega, .inl (Nat.le_refl _)⟩,
        Int.le_refl _⟩

/-- A number is rounded to a mantissa that is settled. -/
lemma exists_settled (h : Represents (.ofMantissaAndAccuracy m acc) y) (he : e ≤ lastExponent m e) :
    ∃ n, roundWithAccuracy Format.binary64 s m e acc = settled s n (lastExponent m e) ∧ n ≤ 2 ^ 53 ∧
      (2 ^ 52 ≤ n ∨ lastExponent m e = -1074) ∧
      |(n : ℝ) * 2 ^ lastExponent m e - y * 2 ^ e| ≤ 2 ^ (lastExponent m e - 1) := by
  have hlast : lastExponent m e = max (m.log2 + e - 52) (-1074) := rfl
  obtain ⟨k, hk⟩ : ∃ k : ℕ, lastExponent m e = e + k := ⟨(lastExponent m e - e).toNat, by omega⟩
  have hshift : (lastExponent m e - e).toNat = k := by omega
  obtain ⟨hlt, hlow⟩ := shifted_bounds hk
  have hnear := (h.shiftRight k).abs_rounded_sub_le
  have hbounds := roundedMantissa_bounds (ExtendedMantissa.ofMantissaAndAccuracy m acc >>> k)
  rw [mantissa_shiftRight, mantissa_ofMantissaAndAccuracy] at hbounds
  refine ⟨_, ?_, hbounds.2.trans hlt, hlow.imp_left hbounds.1.trans', ?_⟩
  · -- The second shift moves something only if rounding has carried into a new digit.
    rw [roundWithAccuracy, shiftToTargetExponent, targetExponent_eq, shiftToExponent, hshift, ← hk]
    simp only
    generalize (ExtendedMantissa.ofMantissaAndAccuracy m acc >>> k).roundedMantissa = n at hbounds
    rw [settled]
    by_cases hn : n < 2 ^ 53
    · rw [shiftToTargetExponent_small hn (by omega)]
      by_cases h0 : n = 0
      · rw [dif_pos h0, dif_pos h0]
      · rw [dif_neg h0, dif_neg h0, if_pos hn]
    · obtain rfl : n = 2 ^ 53 := by omega
      rw [shiftToTargetExponent_carry (by omega)]
      rfl
  · have hscale : y * 2 ^ e = y / 2 ^ k * 2 ^ lastExponent m e := by
      rw [hk, zpow_add₀ (by norm_num), zpow_natCast]
      field_simp
    rw [hscale, ← sub_mul, abs_mul, abs_of_pos (by positivity : (0 : ℝ) < 2 ^ lastExponent m e),
      zpow_sub_one₀ (by norm_num), mul_comm]
    gcongr
    simpa using hnear

/-- A double whose last digit is lower than that of a rounded number is less than that number. -/
lemma Canonical.lt_of_lt (hk : Canonical k g) (hg : g < f) : (k : ℝ) * 2 ^ g < 2 ^ 52 * 2 ^ f := by
  have hlt : (k : ℝ) < 2 ^ 53 := by exact_mod_cast hk.lt
  calc (k : ℝ) * 2 ^ g ≤ k * 2 ^ (f - 1) := by gcongr <;> [norm_num; omega]
    _ < 2 ^ 53 * 2 ^ (f - 1) := by gcongr
    _ = 2 ^ 52 * 2 ^ f := by rw [zpow_sub_one₀ (by norm_num)]; ring

/-- A multiple of a power of two is one of any smaller power. -/
lemma exists_multiple (hg : f ≤ g) : ∃ j : ℕ, (k : ℝ) * 2 ^ g = j * 2 ^ f := by
  obtain ⟨i, rfl⟩ : ∃ i : ℕ, g = f + i := ⟨(g - f).toNat, by omega⟩
  refine ⟨k * 2 ^ i, ?_⟩
  rw [zpow_add₀ (by norm_num), zpow_natCast]
  push_cast
  ring

/-- What is at most half a unit above a multiple is no larger multiple. -/
lemma le_of_le_add_half (h : (k : ℝ) * 2 ^ f ≤ n * 2 ^ f + 2 ^ (f - 1)) : k ≤ n := by
  have hpos : (0 : ℝ) < 2 ^ f := by positivity
  rw [zpow_sub_one₀ (by norm_num)] at h
  have : (k : ℝ) ≤ n + 2⁻¹ := by
    rw [← mul_le_mul_iff_left₀ hpos]
    linarith
  have : (k : ℝ) < (n + 1 : ℕ) := by
    push_cast
    linarith
  exact Nat.lt_succ_iff.1 (by exact_mod_cast this)

/-- A double that is not greater than a number is not greater than what it is rounded to. -/
lemma Canonical.le_settled (hk : Canonical k g) (hn : 2 ^ 52 ≤ n ∨ f = -1074)
    (hnear : |(n : ℝ) * 2 ^ f - r| ≤ 2 ^ (f - 1)) (h : (k : ℝ) * 2 ^ g ≤ r) :
    (k : ℝ) * 2 ^ g ≤ n * 2 ^ f := by
  -- Either the double has a lower last digit, and is less than all numbers with 53 digits above
  -- `2 ^ f`, or it is a whole multiple of `2 ^ f` and cannot lie between.
  obtain hg | hg := lt_or_ge g f
  · have hn : (2 : ℝ) ^ 52 ≤ n := by
      exact_mod_cast hn.resolve_right (by have := hk.low; omega)
    exact (hk.lt_of_lt hg).le.trans (by gcongr)
  · obtain ⟨j, hj⟩ := exists_multiple (k := k) hg
    rw [hj] at h ⊢
    have := (abs_le.1 hnear).1
    have hle : j ≤ n := le_of_le_add_half (f := f) (by linarith)
    gcongr

/-- A double that is not less than a number is not less than what it is rounded to. -/
lemma Canonical.settled_le (hk : Canonical k g) (hr : 2 ^ 52 * 2 ^ f ≤ r ∨ f = -1074)
    (hnear : |(n : ℝ) * 2 ^ f - r| ≤ 2 ^ (f - 1)) (h : r ≤ (k : ℝ) * 2 ^ g) :
    n * 2 ^ f ≤ (k : ℝ) * 2 ^ g := by
  obtain hg | hg := lt_or_ge g f
  · have hr := hr.resolve_right (by have := hk.low; omega)
    exact absurd (hr.trans h) (not_le.2 (hk.lt_of_lt hg))
  · obtain ⟨j, hj⟩ := exists_multiple (k := k) hg
    rw [hj] at h ⊢
    have := (abs_le.1 hnear).2
    have hle : n ≤ j := le_of_le_add_half (f := f) (by linarith)
    gcongr

/-- A number that is not negative keeps its order with the doubles when it is rounded. -/
lemma settled_ordered (hn : 2 ^ 52 ≤ n ∨ f = -1074) (hr : 2 ^ 52 * 2 ^ f ≤ r ∨ f = -1074)
    (hr0 : 0 ≤ r) (hnear : |(n : ℝ) * 2 ^ f - r| ≤ 2 ^ (f - 1)) {q : ℝ} (hq : IsDouble q)
    (hq0 : 0 ≤ q) : (q ≤ r → q ≤ n * 2 ^ f) ∧ (r ≤ q → n * 2 ^ f ≤ q) := by
  obtain ⟨k, g, hvalue, hk⟩ := hq
  rw [abs_of_nonneg hq0] at hvalue
  obtain rfl | hk := hk
  · obtain rfl : q = 0 := by rw [hvalue, Nat.cast_zero, zero_mul]
    refine ⟨fun _ => by positivity, fun h => ?_⟩
    obtain rfl := le_antisymm h hr0
    have hle : n ≤ 0 := le_of_le_add_half (f := f) (by
      have := (abs_le.1 hnear).2
      rw [Nat.cast_zero, zero_mul]
      linarith)
    rw [Nat.le_zero.1 hle, Nat.cast_zero, zero_mul]
  · rw [hvalue]
    exact ⟨hk.le_settled hn hnear, hk.settled_le hr hnear⟩

/-- What holds of the order of numbers that are not negative holds with either sign. -/
lemma withSignOf_ordered {v : ℝ} (hv : 0 ≤ v) (hr : 0 ≤ r)
    (h : ∀ {q}, IsDouble q → 0 ≤ q → (q ≤ r → q ≤ v) ∧ (r ≤ q → v ≤ q)) (s : Sign) {q : ℝ}
    (hq : IsDouble q) :
    (q ≤ withSignOf s r → q ≤ withSignOf s v) ∧ (withSignOf s r ≤ q → withSignOf s v ≤ q) := by
  have hneg : IsDouble (-q) := by rwa [IsDouble, abs_neg]
  -- The other sign turns the order around; a double on the other side of zero is never in between.
  cases s
  · show (q ≤ -r → q ≤ -v) ∧ (-r ≤ q → -v ≤ q)
    obtain hq0 | hq0 := le_or_gt q 0
    · obtain ⟨hle, hge⟩ := h hneg (neg_nonneg.2 hq0)
      exact ⟨fun hqr => le_neg_of_le_neg (hge (le_neg_of_le_neg hqr)),
        fun hrq => neg_le_of_neg_le (hle (neg_le_of_neg_le hrq))⟩
    · exact ⟨fun hqr => absurd hqr (by linarith), fun _ => by linarith⟩
  · show (q ≤ r → q ≤ v) ∧ (r ≤ q → v ≤ q)
    obtain hq0 | hq0 := le_or_gt 0 q
    · exact h hq hq0
    · exact ⟨fun _ => by linarith, fun hrq => absurd hrq (by linarith)⟩

/-- A number is rounded from its digits. -/
theorem rounded_roundWithAccuracy (h : Represents (.ofMantissaAndAccuracy m acc) y)
    (he : e ≤ lastExponent m e) :
    Rounded (roundWithAccuracy Format.binary64 s m e acc) (withSignOf s (y * 2 ^ e)) := by
  have hmy : (m : ℝ) ≤ y := by simpa [mantissa_ofMantissaAndAccuracy] using h.le
  have hhalf := half_unit_le he hmy
  have hr : 0 ≤ y * 2 ^ e := mul_nonneg (m.cast_nonneg.trans hmy) (by positivity)
  obtain ⟨n, hu, hn, hlow, hnear⟩ := exists_settled (s := s) h he
  rw [hu]
  constructor
  · refine (settled_form (le_max_right _ _) hlow).imp_right ?_
    rintro ⟨s', m', e', hm', hsettled, hcanonical, he'⟩
    refine ⟨s', m', e', hm', hsettled, hcanonical, fun hlt => he'.trans ?_⟩
    rw [abs_withSignOf, abs_of_nonneg hr] at hlt
    exact lastExponent_lt he hmy hlt
  · rw [unpackedReal_settled hn, abs_withSignOf, abs_of_nonneg hr, ← withSignOf_sub, abs_withSignOf]
    exact hnear.trans hhalf
  · intro q hq
    rw [unpackedReal_settled hn]
    exact withSignOf_ordered (by positivity) hr
      (settled_ordered hlow (unit_le he hmy) hr hnear) s hq

end Formulary.Number
