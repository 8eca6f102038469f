import Formulary.Proofs.Number.Operations
import Formulary.Number.Reading

/-!
# Converting a quotient to a double

The double nearest to a quotient is put together from the exponent of its leading digit and a mantissa
of 53 digits (`exists_nearestBits`). Between the least normal double and the greatest double the
conversion is off by at most one part in `2 ^ 53`, also for decimals (`ofFloat_nearestFloat`,
`ofFloat_toFloat`). Below, it is off by at most half the least double (`exactValue?_nearestFloat`).
-/

namespace Formulary.Number

open Double
open Float.Model.UnpackedFloat
open Float.Model (UnpackedFloat Format)

variable {num den m n : ℕ} {e : ℤ} {v : ℚ}

/-! ### The leading binary digit -/

/-- A positive number lies between the powers of two around it. -/
lemma log2_spec (hn : 0 < n) :
    (2 : ℚ) ^ ((n.log2 + 1 : ℤ) - 1) ≤ n ∧ (n : ℚ) < 2 ^ (n.log2 + 1 : ℤ) := by
  constructor
  · rw [add_sub_cancel_right, zpow_natCast]
    exact_mod_cast Nat.log2_self_le hn.ne'
  · have hlt : n < 2 ^ (n.log2 + 1) := Nat.lt_log2_self
    exact_mod_cast hlt

/-- The exponent of the leading digit is that of the greatest power of two that is not greater. -/
lemma leadingBinaryExponent_bounds (hnum : 0 < num) (hden : 0 < den) :
    (2 : ℚ) ^ leadingBinaryExponent num den ≤ num / den ∧
      (num / den : ℚ) < 2 ^ (leadingBinaryExponent num den + 1) := by
  obtain ⟨hlow, hhigh⟩ := quotient_bounds (by norm_num) (log2_spec hnum) (log2_spec hden)
  rw [add_sub_add_right_eq_sub] at hlow hhigh
  simp only [leadingBinaryExponent, pow_le_quotient_iff (b := 2) (by decide) hden, Nat.cast_ofNat]
  split
  · exact ⟨‹_›, hhigh⟩
  · rename_i hlt
    rw [sub_add_cancel]
    exact ⟨hlow, not_le.1 hlt⟩

/-! ### The bits of a double -/

/-- The bits with an exponent and a mantissa, where the leading digit counts for the exponent. -/
def bitsOf (m : ℕ) (e : ℤ) : ℕ := (e + 1074).toNat * 2 ^ 52 + m

/-- An exponent and a mantissa are read off their bits. -/
lemma unpack_eq {b : BitVec Format.binary64.numBits} (h : Canonical m e) (he : e ≤ 971)
    (hb : b.toNat = bitsOf m e) :
    UnpackedFloat.unpack Format.binary64 b = .finite .positive m e h.pos := by
  obtain ⟨hpos, hlt, hlow, hnormal⟩ := h
  rw [bitsOf] at hb
  have hexponent : (unpackExponent b).toNat = b.toNat / 2 ^ 52 % 2 ^ 11 := by
    simp [unpackExponent, Nat.shiftRight_eq_div_pow]
  have hmantissa : (unpackMantissa b).toNat = b.toNat % 2 ^ 52 := by
    simp [unpackMantissa]
  have hsign : unpackSign b = 0#1 := by
    refine BitVec.eq_of_toNat_eq ?_
    have : b.toNat / 2 ^ 63 % 2 = 0 := by omega
    simpa [unpackSign, Nat.shiftRight_eq_div_pow] using this
  have hne : ∀ v : BitVec 11, (unpackExponent b).toNat ≠ v.toNat → unpackExponent b ≠ v := by
    rintro v hv rfl
    exact hv rfl
  have hfull : (1#1 ++ unpackMantissa b).toNat = b.toNat % 2 ^ 52 + 2 ^ 52 := by
    rw [BitVec.toNat_append, ← Nat.shiftLeft_add_eq_or_of_lt (BitVec.isLt _), hmantissa]
    exact Nat.add_comm _ _
  simp only [UnpackedFloat.unpack, hsign]
  rw [if_neg (hne _ (by show _ ≠ 2047; omega))]
  by_cases hm : 2 ^ 52 ≤ m
  · rw [if_neg (hne _ (by show _ ≠ 0; omega)), UnpackedFloat.finite.injEq, hfull, bias_eq, hexponent]
    exact ⟨rfl, by omega, by omega⟩
  · obtain rfl : e = -1074 := hnormal.resolve_left hm
    have hzero : unpackExponent b = 0#11 := BitVec.eq_of_toNat_eq (by show _ = 0; omega)
    have hmantissa0 : unpackMantissa b ≠ 0#52 := by
      intro h
      rw [h] at hmantissa
      have : 0 = b.toNat % 2 ^ 52 := hmantissa
      omega
    rw [if_pos hzero, dif_neg hmantissa0, UnpackedFloat.finite.injEq, hmantissa]
    exact ⟨rfl, by omega, by rw [hzero]; decide⟩

/-- The double with the bits of an exponent and a mantissa, with either sign. -/
lemma ofFloat_ofBits (h : Canonical m e) (he : e ≤ 971) (hn : n = bitsOf m e) (negative : Bool) :
    let x := Float.ofBits (UInt64.ofNat n)
    Double.ofFloat (if negative then -x else x) = .finite negative m e := by
  intro x
  have hread {s : Sign} {y : Float} (hy : y.toModel.unpack = .finite s m e h.pos) :
      ∃ negative, Double.ofFloat y = .finite negative m e ∧
        s = if negative then .negative else .positive := (canonical_of_unpack hy).2.2
  have hlt : n < 2 ^ 64 := by
    have := h.lt
    rw [hn, bitsOf]
    omega
  have hbits : (UInt64.ofNat n).toBitVec.toNat = bitsOf m e := hn ▸ Nat.mod_eq_of_lt hlt
  have hunpack : x.toModel.unpack = .finite .positive m e h.pos := by
    show (Float.Model.pack (UnpackedFloat.unpack Format.binary64 (UInt64.ofNat n).toBitVec)).unpack = _
    rw [unpack_eq h he hbits]
    exact unpack_pack h he
  cases negative with
  | false =>
    obtain ⟨negative, hx, hs⟩ := hread hunpack
    cases negative
    · exact hx
    · cases hs
  | true =>
    have hneg : (-x).toModel.unpack = .finite .negative m e h.pos := by
      show (Float.Model.pack x.toModel.unpack.neg).unpack = _
      rw [hunpack]
      exact unpack_pack h he
    obtain ⟨negative, hx, hs⟩ := hread hneg
    cases negative
    · cases hs
    · exact hx

/-! ### The nearest double -/

/-- A quotient that a normal double is nearest to. -/
structure InRange (v : ℚ) : Prop where
  low : 2 ^ (-1022 : ℤ) ≤ v
  high : v < 2 ^ 1024 - 2 ^ 970

/-- A quotient is counted in units of the last one of the 53 digits of a double. -/
lemma exists_unit (hden : 0 < den) (hv : InRange (num / den)) : ∃ k : ℤ, -1022 ≤ k ∧ k ≤ 1023 ∧
    ∃ a b, Counted 2 52 (num / den) k a b ∧
      nearestBits num den = (k + 1022).toNat * 2 ^ 52 + roundHalfEven a b := by
  have hpos : (0 : ℚ) < num / den := (zpow_pos (by norm_num) _).trans_le hv.low
  have hnum : 0 < num := by
    refine Nat.pos_of_ne_zero fun hnum => hpos.ne' ?_
    rw [hnum, Nat.cast_zero, zero_div]
  obtain ⟨hlow, hhigh⟩ := leadingBinaryExponent_bounds hnum hden
  obtain ⟨k, hk⟩ : ∃ k, leadingBinaryExponent num den = k := ⟨_, rfl⟩
  rw [hk] at hlow hhigh
  have hk0 : -1022 ≤ k := by
    have := (zpow_lt_zpow_iff_right₀ (by norm_num)).1 (hv.low.trans_lt hhigh)
    omega
  have hk1 : k ≤ 1023 := by
    have hlt : (2 : ℚ) ^ k < 2 ^ (1024 : ℤ) := by
      refine hlow.trans_lt (hv.high.trans ?_)
      norm_num
    have := (zpow_lt_zpow_iff_right₀ (by norm_num)).1 hlt
    omega
  have hunit : max (k - 52) (-1074) = k - (52 : ℕ) := by push_cast; omega
  obtain ⟨hb, hunits⟩ := quotient_div_pow (b := 2) (by decide) num hden (k - (52 : ℕ))
  refine ⟨k, hk0, hk1, _, _, ⟨hb, hunits, by exact_mod_cast hlow, by exact_mod_cast hhigh⟩, ?_⟩
  have hsmall : ¬ 972 ≤ k - (52 : ℕ) := by push_cast; omega
  have hexponent : k - (52 : ℕ) + 1074 = k + 1022 := by push_cast; ring
  simp only [nearestBits, if_neg hnum.ne', hk, hunit, if_neg hsmall, hexponent, Nat.pow_eq]

/-- With the greatest exponent a carry is only reached from beyond the greatest double. -/
lemma Counted.le_of_carry {a b : ℕ} {k : ℤ} (h : Counted 2 52 v k a b) (hk : k ≤ 1023)
    (hv : v < 2 ^ 1024 - 2 ^ 970) (hcarry : roundHalfEven a b = 2 ^ (52 + 1)) : k ≤ 1022 := by
  by_contra hlast
  obtain rfl : k = 1023 := by omega
  have hhalf := abs_roundHalfEven_sub_le a h.pos
  have hunit : (1023 : ℤ) - (52 : ℕ) = (971 : ℕ) := by norm_num
  rw [hcarry, h.eq, hunit, zpow_natCast, Nat.cast_pow, Nat.cast_ofNat] at hhalf
  have hlarge := sub_le_comm.1 (abs_le.1 hhalf).2
  have hgreatest (r : ℚ) : ((2 : ℚ) ^ (52 + 1) - 1 / 2) * (2 * r) = 2 ^ 54 * r - r := by ring
  rw [le_div_iff₀ (by positivity), pow_succ' _ 970, hgreatest, ← pow_add] at hlarge
  exact absurd hv (not_lt.2 hlarge)

/--
The bits of the nearest double are those of a normal double that is off by at most one part in
`2 ^ 53`. A mantissa that is rounded up to 54 digits is one of 53 digits with the next exponent.
-/
lemma exists_nearestBits (hden : 0 < den) (hv : InRange (num / den)) :
    ∃ m e, Canonical m e ∧ e ≤ 971 ∧ nearestBits num den = bitsOf m e ∧
      |magnitude m e - num / den| ≤ num / den / 2 ^ 53 := by
  obtain ⟨k, hk0, hk1, a, b, hcounted, hbits⟩ := exists_unit hden hv
  obtain ⟨hlow, hhigh, hnear⟩ := hcounted.rounded (by decide)
  obtain ⟨u, hu⟩ : ∃ u, u = if roundHalfEven a b = 2 ^ (52 + 1) then (2 ^ 52, k + 1)
    else (roundHalfEven a b, k) := ⟨_, rfl⟩
  rw [← carried_eq (by decide) hu, hu] at hnear
  rw [hbits]
  split at hnear
  · rename_i hcarry
    have hk : k ≤ 1022 := hcounted.le_of_carry hk1 hv.high hcarry
    refine ⟨2 ^ 52, k + 1 - 52, ⟨by decide, by decide, by omega, .inl le_rfl⟩, by omega, ?_, ?_⟩
    · rw [hcarry, bitsOf]
      omega
    · rw [magnitude]
      refine le_trans (le_of_eq ?_) (hnear.trans_eq ?_)
      · push_cast
        rfl
      · norm_num
  · rename_i hcarry
    refine ⟨roundHalfEven a b, k - 52, ⟨by omega, by omega, by omega, .inl hlow⟩, by omega, ?_, ?_⟩
    · rw [bitsOf]
      omega
    · rw [magnitude]
      refine le_trans (le_of_eq ?_) (hnear.trans_eq ?_)
      · push_cast
        rfl
      · norm_num

/-- The nearest double of a quotient in range, with either sign. -/
theorem ofFloat_nearestFloat (hden : 0 < den) (hv : InRange (num / den)) (negative : Bool) :
    ∃ m e, Double.ofFloat (nearestFloat negative num den) = .finite negative m e ∧
      |magnitude m e - num / den| ≤ num / den / 2 ^ 53 := by
  obtain ⟨m, e, hcanonical, he, hbits, hnear⟩ := exists_nearestBits hden hv
  exact ⟨m, e, ofFloat_ofBits hcanonical he hbits negative, hnear⟩

/-- The bits of the nearest double of a small number count units of the least double. -/
lemma exists_nearestBits_low (hden : 0 < den) (hv : (num / den : ℚ) < 2 ^ (-1022 : ℤ)) :
    ∃ a : ℕ, (a / den : ℚ) = num / den / 2 ^ (-1074 : ℤ) ∧
      nearestBits num den = roundHalfEven a den := by
  obtain ⟨-, hunits⟩ := quotient_div_pow (b := 2) (by decide) num hden (-1074)
  rw [if_neg (by decide)] at hunits
  refine ⟨_, hunits, ?_⟩
  rw [nearestBits]
  split
  · rename_i h0
    rw [h0, Nat.zero_mul, roundHalfEven, Nat.zero_div, Nat.zero_mod, if_pos hden]
  · rename_i h0
    obtain ⟨hlow, -⟩ := leadingBinaryExponent_bounds (Nat.pos_of_ne_zero h0) hden
    have hk : leadingBinaryExponent num den < -1022 :=
      (zpow_lt_zpow_iff_right₀ (by norm_num)).1 (hlow.trans_lt hv)
    have hunit : max (leadingBinaryExponent num den - 52) (-1074) = -1074 := by omega
    rw [hunit, if_neg (by decide), if_neg (by decide)]
    dsimp only
    rw [neg_add_cancel, Int.toNat_zero, Nat.zero_mul, Nat.zero_add]

/-- The nearest double of a small quotient is off by at most half the least double. -/
lemma ofFloat_nearestFloat_low (hden : 0 < den) (hv : (num / den : ℚ) < 2 ^ (-1022 : ℤ))
    (negative : Bool) : ∃ m, Double.ofFloat (nearestFloat negative num den) =
      .finite negative m (-1074) ∧ |magnitude m (-1074) - num / den| ≤ 2 ^ (-1075 : ℤ) := by
  obtain ⟨a, hunits, hbits⟩ := exists_nearestBits_low hden hv
  have hunit : (0 : ℚ) < 2 ^ (-1074 : ℤ) := zpow_pos (by norm_num) _
  have hround := abs_roundHalfEven_sub_le a hden
  have hle : roundHalfEven a den ≤ 2 ^ 52 := by
    refine roundHalfEven_le ?_
    have hlt : (a / den : ℚ) < 2 ^ 52 := by
      rw [hunits, div_lt_iff₀ hunit, ← zpow_natCast, ← zpow_add₀ (by norm_num)]
      exact hv
    rw [div_lt_iff₀ (Nat.cast_pos.2 hden), mul_comm] at hlt
    exact_mod_cast hlt
  refine ⟨roundHalfEven a den, ?_, ?_⟩
  · generalize roundHalfEven a den = m at hbits hle
    obtain rfl | hm := Nat.eq_zero_or_pos m
    · rw [nearestFloat, hbits]
      cases negative <;> decide +kernel
    · exact ofFloat_ofBits ⟨hm, by omega, le_rfl, .inr rfl⟩ (by decide)
        (by rw [hbits, bitsOf]; omega) negative
  · have hvalue : (num / den : ℚ) = a / den * 2 ^ (-1074 : ℤ) := by
      rw [hunits, div_mul_cancel₀ _ hunit.ne']
    rw [magnitude, hvalue, ← sub_mul, abs_mul, abs_of_pos hunit]
    calc _ ≤ 1 / 2 * 2 ^ (-1074 : ℤ) := mul_le_mul_of_nonneg_right hround hunit.le
      _ = 2 ^ (-1075 : ℤ) := by
        rw [show (-1074 : ℤ) = -1075 + 1 by decide, zpow_add_one₀ (by norm_num)]
        ring

/--
The double nearest to a quotient is off by at most one part in `2 ^ 53`, or by half the least double.
-/
theorem exactValue?_nearestFloat (hden : 0 < den) (hv : (num / den : ℚ) < 2 ^ 1024 - 2 ^ 970)
    (negative : Bool) :
    ∃ q, exactValue? (nearestFloat negative num den) = some q ∧
      |q - signed negative (num / den)| ≤ num / den / 2 ^ 53 + 2 ^ (-1075 : ℤ) := by
  have hv0 : (0 : ℚ) ≤ num / den / 2 ^ 53 := by positivity
  have hleast : (0 : ℚ) ≤ 2 ^ (-1075 : ℤ) := (zpow_pos (by norm_num) _).le
  obtain hlow | hlow := lt_or_ge (num / den : ℚ) (2 ^ (-1022 : ℤ))
  · obtain ⟨m, hm, hnear⟩ := ofFloat_nearestFloat_low hden hlow negative
    refine ⟨_, exactValue?_of_finite hm, ?_⟩
    rw [signed_sub, abs_signed]
    exact hnear.trans (le_add_of_nonneg_left hv0)
  · obtain ⟨m, e, hm, hnear⟩ := ofFloat_nearestFloat hden ⟨hlow, hv⟩ negative
    refine ⟨_, exactValue?_of_finite hm, ?_⟩
    rw [signed_sub, abs_signed]
    exact hnear.trans (le_add_of_nonneg_right hleast)

/-! ### The double of a decimal -/

/-- The exponents that are cut off are those of numbers out of range. -/
lemma InRange.bounds {k : ℤ} (hv : InRange v) (hlow : 10 ^ (k - 1) ≤ v) (hhigh : v < 10 ^ k) :
    ¬ k < -330 ∧ ¬ 310 < k := by
  constructor <;> intro hk
  · have hsmall : (10 : ℚ) ^ (-331 : ℤ) < 2 ^ (-1022 : ℤ) := by decide +kernel
    have hle : (10 : ℚ) ^ k ≤ 10 ^ (-331 : ℤ) := zpow_le_zpow_right₀ (by norm_num) (by omega)
    exact absurd hv.low (not_le.2 (hhigh.trans (hle.trans_lt hsmall)))
  · have hlarge : (2 : ℚ) ^ 1024 - 2 ^ 970 < 10 ^ (310 : ℤ) := by decide +kernel
    have hle : (10 : ℚ) ^ (310 : ℤ) ≤ 10 ^ (k - 1) := zpow_le_zpow_right₀ (by norm_num) (by omega)
    exact absurd hv.high (not_lt.2 (hlarge.le.trans (hle.trans hlow)))

/-- The double of a decimal in range is off by at most one part in `2 ^ 53`. -/
theorem ofFloat_toFloat {d : Decimal} (hv : InRange (d.coefficient * 10 ^ d.exponent)) :
    ∃ m e, Double.ofFloat d.toFloat = .finite d.negative m e ∧
      |magnitude m e - d.coefficient * 10 ^ d.exponent| ≤
        d.coefficient * 10 ^ d.exponent / 2 ^ 53 := by
  obtain ⟨negative, c, k⟩ := d
  dsimp only at hv ⊢
  have hpos : (0 : ℚ) < c * 10 ^ k := (zpow_pos (by norm_num) _).trans_le hv.low
  have hc : 0 < c := by
    refine Nat.pos_of_ne_zero fun hc => hpos.ne' ?_
    rw [hc, Nat.cast_zero, zero_mul]
  obtain ⟨hlow, hhigh⟩ := decimalLength_spec hc
  obtain ⟨hsmall, hlarge⟩ := hv.bounds (k := k + decimalLength c)
    (by rw [add_sub_assoc, zpow_add₀ (by norm_num), mul_comm]; gcongr)
    (by rw [zpow_add₀ (by norm_num), mul_comm]; gcongr)
  have hcut : ¬ (c = 0 ∨ k + decimalLength c < -330) := by
    rintro (h | h)
    · exact hc.ne' h
    · exact hsmall h
  simp only [Decimal.toFloat, if_neg hcut, if_neg hlarge]
  split
  · rename_i hk
    have hquotient : ((c * Nat.pow 10 k.toNat : ℕ) : ℚ) / (1 : ℕ) = c * 10 ^ k := by
      rw [zpow_of_nonneg hk, Nat.pow_eq]
      push_cast
      rw [div_one]
    rw [← hquotient] at hv ⊢
    exact ofFloat_nearestFloat Nat.one_pos hv negative
  · rename_i hk
    have hquotient : (c : ℚ) / (Nat.pow 10 (-k).toNat : ℕ) = c * 10 ^ k := by
      rw [zpow_of_neg hk, Nat.pow_eq, ← div_eq_mul_inv]
      push_cast
      rfl
    rw [← hquotient] at hv ⊢
    exact ofFloat_nearestFloat (Nat.pow_pos (by decide)) hv negative

end Formulary.Number
