import Formulary.Proofs.Number.Finite

/-!
# Decimal rounding

The magnitude of a double (`Double.magnitude`) rounded to decimal places is off by at most half a unit
of the last one (`abs_fixedUnits_sub_le`). In scientific form there are as many digits as are asked for,
also after a carry, and the error is relative to the magnitude (`scientificUnits_spec`). Both keep the
order of magnitudes (`fixedUnits_mono`, `scientificUnits_mono`), and a magnitude that is close enough to
digits is rounded to them (`fixedUnits_eq`, `scientificUnits_eq`). Digits are counted in any base
(`Counted`), so that the same holds of the binary digits of a double.
-/

namespace Formulary.Number

/-- A number or its negative. -/
def signed (negative : Bool) (r : ℚ) : ℚ := if negative then -r else r

/-- The magnitude of a finite double. -/
def Double.magnitude (m : ℕ) (q : ℤ) : ℚ := m * 2 ^ q

open Double

variable {num den n m places : ℕ} {q e : ℤ} {x : Float} {v : ℚ} {negative : Bool}

/-- Numbers with the same sign are subtracted under it. -/
lemma signed_sub (r t : ℚ) : signed negative r - signed negative t = signed negative (r - t) := by
  cases negative
  · rfl
  · show -r - -t = -(r - t)
    ring

/-- A sign does not change the size of a number. -/
lemma abs_signed (r : ℚ) : |signed negative r| = |r| := by
  cases negative
  · rfl
  · exact abs_neg r

/-- A positive number with a sign is negative if the sign is. -/
lemma signed_neg_iff (hv : 0 < v) : signed negative v < 0 ↔ negative := by
  cases negative
  · simpa [signed] using hv.le
  · simpa [signed] using hv

/-- Magnitudes are not negative. -/
lemma magnitude_nonneg : 0 ≤ magnitude m q := by
  unfold magnitude
  positivity

/-- A magnitude is zero if its mantissa is. -/
lemma magnitude_eq_zero : magnitude m q = 0 ↔ m = 0 := by
  have hpow : (2 : ℚ) ^ q ≠ 0 := zpow_ne_zero q (by norm_num)
  simp [magnitude, hpow]

/-- The denominator of a magnitude is positive. -/
lemma fraction_pos (m : ℕ) (q : ℤ) : 0 < (fraction m q).2 := by
  rw [fraction]
  split
  · exact Nat.one_pos
  · exact Nat.pow_pos (by decide)

/-- A power with a negative exponent is the inverse of one with a positive exponent. -/
lemma zpow_of_neg {b : ℚ} (he : ¬ 0 ≤ e) : b ^ e = (b ^ (-e).toNat)⁻¹ := by
  obtain ⟨k, hk⟩ : ∃ k : ℕ, e = -k := ⟨(-e).toNat, by omega⟩
  subst hk
  rw [zpow_neg, zpow_natCast, neg_neg, Int.toNat_natCast]

/-- A power with an exponent that is not negative is a natural power. -/
lemma zpow_of_nonneg {b : ℚ} (he : 0 ≤ e) : b ^ e = b ^ e.toNat := by
  rw [← zpow_natCast, Int.toNat_of_nonneg he]

/-- A magnitude is the quotient of its fraction. -/
lemma fraction_eq (m : ℕ) (q : ℤ) : ((fraction m q).1 : ℚ) / (fraction m q).2 = magnitude m q := by
  simp only [fraction, magnitude]
  split
  · rename_i hq
    rw [zpow_of_nonneg hq]
    simp
  · rename_i hq
    rw [zpow_of_neg hq]
    simp [div_eq_mul_inv]

/-- A magnitude is the rational number of its fraction. -/
lemma mkRat_fraction (m : ℕ) (q : ℤ) : mkRat (fraction m q).1 (fraction m q).2 = magnitude m q := by
  rw [Rat.mkRat_eq_div, Int.cast_natCast, fraction_eq]

/-- A finite double denotes its magnitude, or the negative of it. -/
lemma exactValue?_of_finite (h : Double.ofFloat x = .finite negative m q) :
    exactValue? x = some (signed negative (magnitude m q)) := by
  rw [exactValue?, h, ← mkRat_fraction]
  rfl

/-! ### Rounding a fraction -/

/-- Rounding moves a quotient by at most a half. -/
lemma abs_roundHalfEven_sub_le (num : ℕ) (hden : 0 < den) :
    |(roundHalfEven num den : ℚ) - num / den| ≤ 1 / 2 := by
  obtain ⟨hlow, hhigh⟩ := @abs_roundHalfEven_le num den hden
  have hlow : (2 * num : ℚ) ≤ (2 * roundHalfEven num den + 1) * den := by exact_mod_cast hlow
  have hhigh : (2 * roundHalfEven num den * den : ℚ) ≤ 2 * num + den := by exact_mod_cast hhigh
  have hden : (0 : ℚ) < den := by exact_mod_cast hden
  have hnum : (num / den : ℚ) * den = num := div_mul_cancel₀ _ hden.ne'
  rw [abs_le]
  constructor <;> nlinarith

/-- A quotient is rounded down, or up to the next number. -/
lemma div_le_roundHalfEven (num den : ℕ) :
    num / den ≤ roundHalfEven num den ∧ roundHalfEven num den ≤ num / den + 1 := by
  simp only [roundHalfEven]
  split
  · omega
  · split
    · omega
    · split <;> omega

/-- A quotient is rounded to no less than a number below it. -/
lemma le_roundHalfEven (hden : 0 < den) (h : den * n ≤ num) : n ≤ roundHalfEven num den := by
  have hq : n ≤ num / den := (Nat.le_div_iff_mul_le hden).2 (by rwa [Nat.mul_comm])
  exact hq.trans (div_le_roundHalfEven num den).1

/-- A number that is closer than half a unit is the one that is rounded to. -/
lemma roundHalfEven_eq (hden : 0 < den) (h : |(n : ℚ) - num / den| < 1 / 2) :
    roundHalfEven num den = n := by
  have hround := abs_roundHalfEven_sub_le num hden
  have hlt : |(roundHalfEven num den : ℚ) - n| < 1 := by
    calc |(roundHalfEven num den : ℚ) - n|
        ≤ |(roundHalfEven num den : ℚ) - num / den| + |(num / den : ℚ) - n| := abs_sub_le _ _ _
      _ < 1 := by
        rw [abs_sub_comm _ (n : ℚ)]
        linarith
  have hlt : |(roundHalfEven num den : ℤ) - n| < 1 := by exact_mod_cast hlt
  rw [Int.abs_lt_one_iff] at hlt
  omega

/-- A greater quotient is rounded to a greater number. -/
lemma roundHalfEven_mono {a b c d : ℕ} (hb : 0 < b) (hd : 0 < d) (h : (a / b : ℚ) ≤ c / d) :
    roundHalfEven a b ≤ roundHalfEven c d := by
  have h : a * d ≤ c * b := by
    rw [div_le_div_iff₀ (by exact_mod_cast hb) (by exact_mod_cast hd)] at h
    exact_mod_cast h
  have hq : a / b ≤ c / d := by
    refine (Nat.le_div_iff_mul_le hd).2 (Nat.le_of_mul_le_mul_right ?_ hb)
    calc a / b * d * b = b * (a / b) * d := by ring
      _ ≤ a * d := Nat.mul_le_mul_right d (Nat.mul_div_le a b)
      _ ≤ c * b := h
  obtain hlt | heq := hq.lt_or_eq
  · exact (div_le_roundHalfEven a b).2.trans (hlt.trans_le (div_le_roundHalfEven c d).1)
  · -- With equal quotients the remainders decide, each against half of its divisor.
    have hr : a % b * d ≤ c % d * b := by
      have ha := Nat.div_add_mod a b
      have hc := Nat.div_add_mod c d
      rw [← heq] at hc
      generalize a / b = q at ha hc
      nlinarith
    have hle : b ≤ 2 * (a % b) → d ≤ 2 * (c % d) := fun hhalf =>
      Nat.le_of_mul_le_mul_right (by nlinarith) hb
    have hlt : b < 2 * (a % b) → d < 2 * (c % d) := fun hhalf =>
      Nat.lt_of_mul_lt_mul_right (a := b) (by nlinarith)
    simp only [roundHalfEven, ← heq]
    split_ifs <;> omega

/-- The fraction of a magnitude with some more decimal places. -/
lemma fixedFraction_eq (places m : ℕ) (q : ℤ) :
    (((fraction m q).1 * Nat.pow 10 places : ℕ) : ℚ) / (fraction m q).2 =
      magnitude m q * 10 ^ places := by
  rw [← fraction_eq, Nat.pow_eq]
  push_cast
  ring

/-- Rounding to decimal places is off by at most half a unit of the last one. -/
theorem abs_fixedUnits_sub_le (places m : ℕ) (q : ℤ) :
    |(fixedUnits places m q : ℚ) - magnitude m q * 10 ^ places| ≤ 1 / 2 := by
  have h := abs_roundHalfEven_sub_le ((fraction m q).1 * Nat.pow 10 places) (fraction_pos m q)
  rwa [fixedFraction_eq] at h

/-- A magnitude close to a number of units is rounded to it. -/
lemma fixedUnits_eq (h : |(n : ℚ) - magnitude m q * 10 ^ places| < 1 / 2) :
    fixedUnits places m q = n := by
  rw [← fixedFraction_eq] at h
  exact roundHalfEven_eq (fraction_pos m q) h

/-- Rounding to decimal places keeps the order. -/
theorem fixedUnits_mono (places : ℕ) (h : magnitude m q ≤ magnitude n e) :
    fixedUnits places m q ≤ fixedUnits places n e := by
  have h : magnitude m q * 10 ^ places ≤ magnitude n e * 10 ^ places := by gcongr
  rw [← fixedFraction_eq, ← fixedFraction_eq] at h
  exact roundHalfEven_mono (fraction_pos m q) (fraction_pos n e) h

/-! ### The leading digit -/

/-- A number lies between the powers of ten that its length tells. -/
lemma decimalLength_spec (hn : 0 < n) :
    (10 : ℚ) ^ ((decimalLength n : ℤ) - 1) ≤ n ∧ (n : ℚ) < 10 ^ (decimalLength n : ℤ) := by
  have hpos : 0 < decimalLength n := Nat.length_toDigits_pos
  constructor
  · obtain ⟨k, hk⟩ : ∃ k, decimalLength n = k + 1 := ⟨decimalLength n - 1, by omega⟩
    have hle : 10 ^ k ≤ n := by
      obtain rfl | hk0 := Nat.eq_zero_or_pos k
      · exact hn
      · by_contra hlt
        have := (Nat.length_toDigits_le_iff (by decide) hk0).2 (Nat.lt_of_not_le hlt)
        rw [decimalLength] at hk
        omega
    rw [hk, Nat.cast_succ, add_sub_cancel_right, zpow_natCast]
    exact_mod_cast hle
  · have hlt : n < 10 ^ decimalLength n := (Nat.length_toDigits_le_iff (by decide) hpos).1 le_rfl
    rw [zpow_natCast]
    exact_mod_cast hlt

/-- The exponents of two numbers tell the exponent of their quotient, but for one. -/
lemma quotient_bounds {b r t : ℚ} {i j : ℤ} (hb : 0 < b) (hr : b ^ (i - 1) ≤ r ∧ r < b ^ i)
    (ht : b ^ (j - 1) ≤ t ∧ t < b ^ j) : b ^ (i - j - 1) ≤ r / t ∧ r / t < b ^ (i - j + 1) := by
  have htpos : 0 < t := (zpow_pos hb _).trans_le ht.1
  constructor
  · rw [le_div_iff₀ htpos]
    calc b ^ (i - j - 1) * t ≤ b ^ (i - j - 1) * b ^ j := by
          have := ht.2.le
          gcongr
      _ = b ^ (i - 1) := by
          rw [← zpow_add₀ hb.ne']
          ring_nf
      _ ≤ r := hr.1
  · rw [div_lt_iff₀ htpos]
    calc r < b ^ i := hr.2
      _ = b ^ (i - j + 1) * b ^ (j - 1) := by
          rw [← zpow_add₀ hb.ne']
          ring_nf
      _ ≤ b ^ (i - j + 1) * t := by
          have := ht.1
          gcongr

/-- A quotient is compared with a power on natural numbers. -/
lemma pow_le_quotient_iff {b : ℕ} (hb : 0 < b) (hden : 0 < den) :
    (if 0 ≤ e then den * Nat.pow b e.toNat ≤ num else den ≤ num * Nat.pow b (-e).toNat) ↔
      (b : ℚ) ^ e ≤ num / den := by
  rw [le_div_iff₀ (by exact_mod_cast hden)]
  split
  · rename_i he
    rw [zpow_of_nonneg he, mul_comm]
    exact_mod_cast Iff.rfl
  · rename_i he
    rw [zpow_of_neg he, inv_mul_le_iff₀ (by positivity), mul_comm]
    exact_mod_cast Iff.rfl

/-- A quotient is divided by a power on natural numbers. -/
lemma quotient_div_pow {b : ℕ} (hb : 0 < b) (num : ℕ) (hden : 0 < den) (e : ℤ) :
    let u := if 0 ≤ e then (num, den * Nat.pow b e.toNat) else (num * Nat.pow b (-e).toNat, den)
    0 < u.2 ∧ (u.1 : ℚ) / u.2 = num / den / b ^ e := by
  dsimp only
  split
  · rename_i he
    refine ⟨Nat.mul_pos hden (Nat.pow_pos hb), ?_⟩
    rw [zpow_of_nonneg he, Nat.pow_eq]
    push_cast
    rw [div_div]
  · rename_i he
    refine ⟨hden, ?_⟩
    rw [zpow_of_neg he, Nat.pow_eq]
    push_cast
    field_simp

/-- The exponent of the leading digit is that of the greatest power of ten that is not greater. -/
lemma leadingExponent_spec (hnum : 0 < num) (hden : 0 < den) :
    (10 : ℚ) ^ leadingExponent num den ≤ num / den ∧
      (num / den : ℚ) < 10 ^ (leadingExponent num den + 1) := by
  obtain ⟨hlow, hhigh⟩ := quotient_bounds (by norm_num) (decimalLength_spec hnum)
    (decimalLength_spec hden)
  simp only [leadingExponent, pow_le_quotient_iff (b := 10) (by decide) hden, Nat.cast_ofNat]
  split
  · exact ⟨‹_›, hhigh⟩
  · rename_i hlt
    rw [sub_add_cancel]
    exact ⟨hlow, not_le.1 hlt⟩

/-- A quotient counted in units of a power of ten. -/
lemma inUnits_spec (num : ℕ) (hden : 0 < den) (e : ℤ) : 0 < (inUnits num den e).2 ∧
    ((inUnits num den e).1 : ℚ) / (inUnits num den e).2 = num / den / 10 ^ e :=
  quotient_div_pow (b := 10) (by decide) num hden e

/-- A number, counted in units of the digit that is some places behind its leading one. -/
structure Counted (base places : ℕ) (v : ℚ) (k : ℤ) (a b : ℕ) : Prop where
  pos : 0 < b
  eq : (a / b : ℚ) = v / base ^ (k - places)
  low : base ^ k ≤ v
  high : v < base ^ (k + 1)

section Counted

variable {base a b c d : ℕ} {k l : ℤ} {w : ℚ}

/-- A number of units, rounded, has one digit more than places, or it is carried to one more. -/
lemma Counted.rounded (hbase : 0 < base) (h : Counted base places v k a b) :
    base ^ places ≤ roundHalfEven a b ∧ roundHalfEven a b ≤ base ^ (places + 1) ∧
      |(roundHalfEven a b : ℚ) * base ^ (k - places) - v| ≤ v / (2 * base ^ places) := by
  obtain ⟨hb, hab, hlow, hhigh⟩ := h
  have hbq : (0 : ℚ) < b := by exact_mod_cast hb
  have hbase : (0 : ℚ) < base := by exact_mod_cast hbase
  have hunit : (0 : ℚ) < base ^ (k - places) := zpow_pos hbase _
  refine ⟨le_roundHalfEven hb ?_, roundHalfEven_le ?_, ?_⟩
  · have : (b * base ^ places : ℚ) ≤ a := by
      rw [mul_comm, ← le_div_iff₀ hbq, hab, le_div_iff₀ hunit, ← zpow_natCast, ← zpow_add₀ hbase.ne']
      simpa using hlow
    exact_mod_cast this
  · have : (a : ℚ) < b * base ^ (places + 1) := by
      rw [mul_comm, ← div_lt_iff₀ hbq, hab, div_lt_iff₀ hunit, ← zpow_natCast, ← zpow_add₀ hbase.ne']
      refine hhigh.trans_eq ?_
      congr 1
      push_cast
      ring
    exact_mod_cast this
  · -- The error is at most half a unit, and the unit is small against the number.
    have hscaled : (roundHalfEven a b : ℚ) * base ^ (k - places) - v =
        (roundHalfEven a b - (a : ℚ) / b) * base ^ (k - places) := by
      rw [hab, sub_mul, div_mul_cancel₀ _ hunit.ne']
    rw [hscaled, abs_mul, abs_of_pos hunit]
    calc |(roundHalfEven a b : ℚ) - a / b| * base ^ (k - places) ≤ 1 / 2 * base ^ (k - places) := by
          gcongr
          exact abs_roundHalfEven_sub_le a hb
      _ = base ^ k / (2 * base ^ places) := by
          rw [zpow_sub₀ hbase.ne', zpow_natCast]
          field_simp
      _ ≤ v / (2 * base ^ places) := by gcongr

/-- A number of units does not change when a carry through all digits is moved. -/
lemma carried_eq (hbase : 0 < base) {s : ℕ × ℤ}
    (hs : s = if n = base ^ (places + 1) then (base ^ places, k + 1) else (n, k)) :
    (s.1 : ℚ) * base ^ (s.2 - places) = n * base ^ (k - places) := by
  have hbase : (base : ℚ) ≠ 0 := by exact_mod_cast hbase.ne'
  rw [hs]
  split
  · rename_i hcarry
    rw [hcarry, add_sub_right_comm, zpow_add_one₀ hbase]
    push_cast
    ring
  · rfl

/-- The leading digit of a number that is not less has no lesser place. -/
lemma Counted.le (hbase : 1 < base) (hv : Counted base places v k a b)
    (hw : Counted base places w l c d) (h : v ≤ w) : k ≤ l := by
  have hlt : (base : ℚ) ^ k < base ^ (l + 1) := (hv.low.trans h).trans_lt hw.high
  have := (zpow_lt_zpow_iff_right₀ (by exact_mod_cast hbase)).1 hlt
  omega

/-- Counted numbers are rounded in their order. -/
lemma Counted.mono (hbase : 1 < base) (hv : Counted base places v k a b)
    (hw : Counted base places w l c d) (h : v ≤ w) :
    (roundHalfEven a b : ℚ) * base ^ (k - places) ≤ roundHalfEven c d * base ^ (l - places) := by
  have hpos : 0 < base := Nat.zero_lt_of_lt hbase
  have hne : (base : ℚ) ≠ 0 := by exact_mod_cast hpos.ne'
  obtain hlt | rfl := (hv.le hbase hw h).lt_or_eq
  · -- What is rounded below a power of the base does not pass it.
    calc (roundHalfEven a b : ℚ) * base ^ (k - places) ≤ base ^ (places + 1) * base ^ (k - places) := by
          gcongr
          exact_mod_cast (hv.rounded hpos).2.1
      _ = base ^ (k + 1) := by
          rw [← zpow_natCast, ← zpow_add₀ hne]
          congr 1
          push_cast
          ring
      _ ≤ base ^ l := by
          gcongr
          · exact_mod_cast hpos
          · omega
      _ = base ^ places * base ^ (l - places) := by
          rw [← zpow_natCast, ← zpow_add₀ hne]
          congr 1
          ring
      _ ≤ roundHalfEven c d * base ^ (l - places) := by
          gcongr
          exact_mod_cast (hw.rounded hpos).1
  · gcongr
    refine roundHalfEven_mono hv.pos hw.pos ?_
    rw [hv.eq, hw.eq]
    gcongr

end Counted

/-- The digits in scientific form are counted and rounded; a carry through all of them is moved. -/
lemma exists_counted (places : ℕ) (q : ℤ) (hm : 0 < m) :
    ∃ k a b, Counted 10 places (magnitude m q) k a b ∧ scientificUnits places m q =
      if roundHalfEven a b = 10 ^ (places + 1) then (10 ^ places, k + 1)
      else (roundHalfEven a b, k) := by
  have hden := fraction_pos m q
  have hnum : 0 < (fraction m q).1 := by
    rw [fraction]
    split
    · exact Nat.mul_pos hm (Nat.pow_pos (by decide))
    · exact hm
  obtain ⟨hlow, hhigh⟩ := leadingExponent_spec hnum hden
  obtain ⟨hpos, hunits⟩ := inUnits_spec (fraction m q).1 hden
    (leadingExponent (fraction m q).1 (fraction m q).2 - places)
  rw [fraction_eq] at hlow hhigh hunits
  refine ⟨_, _, _, ⟨hpos, hunits, hlow, hhigh⟩, ?_⟩
  simp only [scientificUnits, if_neg hm.ne', Nat.pow_eq]

/--
In scientific form a magnitude has one digit more than places, and the error is at most half a unit of
the last of them, even if there is a carry through all digits.
-/
theorem scientificUnits_spec (places : ℕ) (q : ℤ) (hm : 0 < m) :
    10 ^ places ≤ (scientificUnits places m q).1 ∧ (scientificUnits places m q).1 < 10 ^ (places + 1) ∧
      |((scientificUnits places m q).1 : ℚ) * 10 ^ ((scientificUnits places m q).2 - places) -
        magnitude m q| ≤ magnitude m q / (2 * 10 ^ places) := by
  obtain ⟨k, a, b, hcounted, hunits⟩ := exists_counted places q hm
  obtain ⟨hge, hle, herror⟩ := hcounted.rounded (by decide)
  rw [← carried_eq (by decide) hunits] at herror
  rw [← and_assoc]
  refine ⟨?_, by exact_mod_cast herror⟩
  rw [hunits]
  split
  · exact ⟨le_rfl, Nat.pow_lt_pow_right (by decide) (Nat.lt_succ_self _)⟩
  · exact ⟨hge, lt_of_le_of_ne hle ‹_›⟩

/--
A number close to one with the right number of digits has its leading digit in the same place, or in
the next one if that number is the least one.
-/
lemma Counted.place {a b : ℕ} {k l : ℤ} (h : Counted 10 places v l a b) (hlow : 10 ^ places ≤ n)
    (hhigh : n < 10 ^ (places + 1)) (hnear : |n - v / 10 ^ (k - places)| < 1 / 20) :
    l = k ∨ l = k - 1 ∧ n = 10 ^ places := by
  obtain ⟨-, -, hvlow, hvhigh⟩ := h
  have hlowq : (10 : ℚ) ^ places ≤ n := by exact_mod_cast hlow
  have hhighq : (n : ℚ) + 1 ≤ 10 ^ places * 10 := by
    rw [← pow_succ]
    exact_mod_cast hhigh
  have hone : (1 : ℚ) ≤ 10 ^ places := one_le_pow₀ (by norm_num)
  have hunit : (0 : ℚ) < 10 ^ (k - places) := zpow_pos (by norm_num) _
  have hpower : (10 : ℚ) ^ k = 10 ^ places * 10 ^ (k - places) := by
    rw [← zpow_natCast, ← zpow_add₀ (by norm_num), add_sub_cancel]
  obtain ⟨r, hr⟩ : ∃ r, v / 10 ^ (k - places) = r := ⟨_, rfl⟩
  obtain rfl : v = r * 10 ^ (k - places) := (div_eq_iff hunit.ne').1 hr
  rw [hr] at hnear
  obtain ⟨hbelow, habove⟩ := abs_lt.1 hnear
  have hle : l < k + 1 := by
    refine (zpow_lt_zpow_iff_right₀ (by norm_num : (1 : ℚ) < 10)).1 (hvlow.trans_lt ?_)
    rw [zpow_add_one₀ (by norm_num), hpower, mul_right_comm]
    gcongr
    linarith
  have hge : k - 1 < l + 1 := by
    refine (zpow_lt_zpow_iff_right₀ (by norm_num : (1 : ℚ) < 10)).1 (lt_of_le_of_lt ?_ hvhigh)
    rw [zpow_sub_one₀ (by norm_num), hpower, mul_right_comm]
    gcongr
    linarith
  obtain hl | hl : l = k ∨ l = k - 1 := by omega
  · exact .inl hl
  · refine .inr ⟨hl, le_antisymm ?_ hlow⟩
    rw [hl, sub_add_cancel, Nat.cast_ofNat, hpower, mul_lt_mul_iff_left₀ hunit] at hvhigh
    have : (n : ℚ) < 10 ^ places + 1 := by linarith
    exact Nat.lt_succ_iff.1 (by exact_mod_cast this)

/-- A magnitude close to a number with the right number of digits is written with its digits. -/
lemma scientificUnits_eq {k : ℤ} (hlow : 10 ^ places ≤ n) (hhigh : n < 10 ^ (places + 1))
    (hnear : |magnitude m q - n * 10 ^ (k - places)| < 10 ^ (k - places) / 20) :
    scientificUnits places m q = (n, k) := by
  have hunit : (0 : ℚ) < 10 ^ (k - places) := zpow_pos (by norm_num) _
  have hone : (1 : ℚ) ≤ n := by exact_mod_cast (Nat.pow_pos (by decide)).trans_le hlow
  have hm : 0 < m := by
    refine Nat.pos_of_ne_zero fun hm => ?_
    rw [magnitude_eq_zero.2 hm, zero_sub, abs_neg, abs_of_nonneg (by positivity)] at hnear
    have := le_mul_of_one_le_left hunit.le hone
    linarith
  have hnear : |n - magnitude m q / 10 ^ (k - places)| < 1 / 20 := by
    rw [abs_sub_comm, div_sub' hunit.ne', abs_div, abs_of_pos hunit, div_lt_iff₀ hunit,
      mul_comm _ (n : ℚ)]
    linarith
  obtain ⟨l, a, b, hcounted, hunits⟩ := exists_counted places q hm
  rw [hunits]
  obtain rfl | ⟨rfl, rfl⟩ := hcounted.place hlow hhigh hnear
  · have hround : roundHalfEven a b = n := by
      refine roundHalfEven_eq hcounted.pos ?_
      rw [hcounted.eq]
      push_cast
      linarith
    rw [hround, if_neg hhigh.ne]
  · -- The digits are carried through.
    have hround : roundHalfEven a b = 10 ^ (places + 1) := by
      refine roundHalfEven_eq hcounted.pos ?_
      rw [hcounted.eq]
      have hscale : (10 : ℚ) ^ (places + 1) - magnitude m q / 10 ^ (k - 1 - places) =
          10 * (10 ^ places - magnitude m q / 10 ^ (k - places)) := by
        rw [sub_right_comm k, zpow_sub_one₀ (by norm_num), pow_succ]
        field_simp
      push_cast at hnear ⊢
      rw [hscale, abs_mul, abs_of_pos (by norm_num)]
      linarith
    rw [if_pos hround, sub_add_cancel]

/-- Scientific form keeps the order of magnitudes. -/
theorem scientificUnits_mono (places : ℕ) (hm : 0 < m) (h : magnitude m q ≤ magnitude n e) :
    ((scientificUnits places m q).1 : ℚ) * 10 ^ ((scientificUnits places m q).2 - places) ≤
      (scientificUnits places n e).1 * 10 ^ ((scientificUnits places n e).2 - places) := by
  have hn : 0 < n := by
    refine Nat.pos_of_ne_zero fun hn => hm.ne' ?_
    rw [magnitude_eq_zero.2 hn] at h
    exact magnitude_eq_zero.1 (h.antisymm magnitude_nonneg)
  obtain ⟨k, a, b, hv, hvunits⟩ := exists_counted places q hm
  obtain ⟨l, c, d, hw, hwunits⟩ := exists_counted places e hn
  have h := hv.mono (by decide) hw h
  rw [← carried_eq (by decide) hvunits, ← carried_eq (by decide) hwunits] at h
  exact_mod_cast h

end Formulary.Number
