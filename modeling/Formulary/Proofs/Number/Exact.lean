import Formulary.Proofs.Number.Decimal

/-!
# The numbers that doubles denote

A finite double denotes a real number (`toReal`). Its mantissa has 53 digits, unless it is as small
as doubles get (`Canonical`), and a mantissa and an exponent of this form are those of a double
(`unpack_pack`).
-/

namespace Formulary.Number

open Float.Model.UnpackedFloat
open Float.Model (UnpackedFloat Format)

/-- The real number that a finite double denotes. -/
noncomputable def toReal (x : Float) : ℝ := ((exactValue? x).getD 0 : ℚ)

/-- A double with an exact value denotes it. -/
lemma toReal_of_exactValue? {x : Float} {q : ℚ} (h : exactValue? x = some q) : toReal x = q := by
  rw [toReal, h, Option.getD_some]

/-- A number with a sign. -/
def withSignOf : Sign → ℝ → ℝ
  | .positive, r => r
  | .negative, r => -r

/-- The number that an unpacked double denotes; zero if it is none. -/
noncomputable def unpackedReal : UnpackedFloat → ℝ
  | .finite s m e _ => withSignOf s (m * 2 ^ e)
  | _ => 0

/-- How far rounding moves a number, relative to its size. -/
noncomputable def roundoff : ℝ := 2 ^ (-53 : ℤ)

/-- How far rounding moves a number that is close to zero: half the least positive double. -/
noncomputable def underflow : ℝ := 2 ^ (-1075 : ℤ)

/-- The roundoff is positive. -/
lemma roundoff_pos : 0 < roundoff := zpow_pos (by norm_num) _

/-- The underflow is positive. -/
lemma underflow_pos : 0 < underflow := zpow_pos (by norm_num) _

variable {x : Float} {s : Sign} {m : ℕ} {e : ℤ} {r : ℝ}

/-- A sign does not change the size of a number. -/
lemma abs_withSignOf : |withSignOf s r| = |r| := by
  cases s
  · exact abs_neg r
  · rfl

/-- Numbers with the same sign are subtracted under it. -/
lemma withSignOf_sub (s : Sign) (r t : ℝ) : withSignOf s (r - t) = withSignOf s r - withSignOf s t := by
  cases s
  · show -(r - t) = -r - -t
    ring
  · rfl

/-- A sign is changed as the number is. -/
lemma withSignOf_neg (s : Sign) (r : ℝ) : withSignOf (-s) r = -withSignOf s r := by
  cases s
  · exact (neg_neg r).symm
  · rfl

/-- Signs are multiplied as the numbers are. -/
lemma withSignOf_mul (s t : Sign) (r q : ℝ) :
    withSignOf (s * t) (r * q) = withSignOf s r * withSignOf t q := by
  cases s <;> cases t
  · exact (neg_mul_neg r q).symm
  · exact (neg_mul r q).symm
  · exact (mul_neg r q).symm
  · rfl

/-- Signs are divided as the numbers are. -/
lemma withSignOf_div (s t : Sign) (r q : ℝ) :
    withSignOf (s / t) (r / q) = withSignOf s r / withSignOf t q := by
  cases s <;> cases t
  · exact (neg_div_neg_eq r q).symm
  · exact (neg_div q r).symm
  · exact (div_neg r).symm
  · rfl

/-- A factor may be taken under a sign. -/
lemma withSignOf_mul_right (s : Sign) (r q : ℝ) : withSignOf s r * q = withSignOf s (r * q) := by
  cases s
  · exact neg_mul r q
  · rfl

/-- Zero has no sign. -/
lemma withSignOf_zero : withSignOf s 0 = 0 := by
  cases s
  · exact neg_zero
  · rfl

/-- The exponent of a double, read off its bits. -/
lemma toNat_unpackExponent (x : Float) :
    (unpackExponent (bits x)).toNat = x.toBits.toNat / Nat.pow 2 52 % Nat.pow 2 11 := by
  simp [unpackExponent, Nat.shiftRight_eq_div_pow, Float.toBits]

/-- The mantissa of a double, read off its bits. -/
lemma toNat_unpackMantissa (x : Float) :
    (unpackMantissa (bits x)).toNat = x.toBits.toNat % Nat.pow 2 52 := by
  simp [unpackMantissa, Float.toBits]

/-- The sign of a double, read off its bits. -/
lemma ofBitVec_unpackSign (x : Float) : Sign.ofBitVec (unpackSign (bits x)) =
    if x.toBits.toNat / Nat.pow 2 63 == 1 then .negative else .positive := by
  have hlt : x.toBits.toNat < 2 ^ 64 := x.toBits.toBitVec.isLt
  have hsign : (unpackSign (bits x)).toNat = x.toBits.toNat / Nat.pow 2 63 := by
    have : x.toBits.toNat / 2 ^ 63 % 2 = x.toBits.toNat / 2 ^ 63 := by omega
    simpa [unpackSign, Nat.shiftRight_eq_div_pow, Float.toBits] using this
  rw [← hsign]
  have bit : ∀ b : BitVec 1, b = 0#1 ∨ b = 1#1 := by decide
  obtain h | h := bit (unpackSign (bits x)) <;> rw [h] <;> rfl

/-- The mantissa and the exponent of a positive double. -/
structure Canonical (m : ℕ) (e : ℤ) : Prop where
  pos : 0 < m
  lt : m < 2 ^ 53
  low : -1074 ≤ e
  normal : 2 ^ 52 ≤ m ∨ e = -1074

/-- Whether a number has the digits of a double, whatever its size. -/
def IsDouble (q : ℝ) : Prop := ∃ (m : ℕ) (e : ℤ), |q| = m * 2 ^ e ∧ (m = 0 ∨ Canonical m e)

/-- The parts of a finite double that is not zero. -/
lemma canonical_of_unpack {hm : 0 < m} (h : x.toModel.unpack = .finite s m e hm) :
    Canonical m e ∧ e ≤ 971 ∧ ∃ negative, Double.ofFloat x = .finite negative m e ∧
      s = if negative then .negative else .positive := by
  have hmantissa : (unpackMantissa (bits x)).toNat < 2 ^ 52 := (unpackMantissa (bits x)).isLt
  have hexponent : (unpackExponent (bits x)).toNat < 2 ^ 11 := (unpackExponent (bits x)).isLt
  have hfield := toNat_unpackExponent x
  have hfraction := toNat_unpackMantissa x
  have hsign := ofBitVec_unpackSign x
  simp only [Double.ofFloat, ← hfield, ← hfraction]
  change UnpackedFloat.unpack Format.binary64 (bits x) = _ at h
  simp only [UnpackedFloat.unpack] at h
  -- By the exponent field: all ones are an infinity or no number, zero is a subnormal number, and
  -- anything else stands for a mantissa with a hidden first digit.
  split at h
  · split at h <;> cases h
  · rename_i hinfinite
    have hne : (unpackExponent (bits x)).toNat ≠ 2047 := fun h =>
      hinfinite (BitVec.eq_of_toNat_eq h)
    rw [if_neg hne]
    split at h
    · rename_i hzero
      have hzero : (unpackExponent (bits x)).toNat = 0 := congrArg BitVec.toNat hzero
      split at h
      · cases h
      · obtain ⟨rfl, rfl, rfl⟩ : _ ∧ _ ∧ _ := by simpa using h
        rw [if_pos hzero, hzero]
        exact ⟨⟨hm, by omega, by decide, .inr rfl⟩, by decide, _, rfl, hsign⟩
    · rename_i hzero
      have hzero : (unpackExponent (bits x)).toNat ≠ 0 := fun h => hzero (BitVec.eq_of_toNat_eq h)
      have hfull : (1#1 ++ unpackMantissa (bits x)).toNat = (unpackMantissa (bits x)).toNat + 2 ^ 52 := by
        rw [BitVec.toNat_append, ← Nat.shiftLeft_add_eq_or_of_lt hmantissa]
        exact Nat.add_comm _ _
      rw [if_neg hzero]
      have hbias : (Format.binary64.exponentBias : ℤ) + Format.binary64.mantissaBitsWithoutImplicit =
        1075 := by decide
      rw [UnpackedFloat.finite.injEq, hfull, hbias] at h
      obtain ⟨rfl, rfl, rfl⟩ := h
      exact ⟨⟨hm, by omega, by omega, .inl (by omega)⟩, by omega, _, rfl, hsign⟩

/-- A zero is read as one. -/
lemma ofFloat_of_zero (h : x.toModel.unpack = .zero s) :
    ∃ negative, Double.ofFloat x = .finite negative 0 (-1074) := by
  have hfield := toNat_unpackExponent x
  have hfraction := toNat_unpackMantissa x
  simp only [Double.ofFloat, ← hfield, ← hfraction]
  change UnpackedFloat.unpack Format.binary64 (bits x) = _ at h
  have hx := unpacked (bits x)
  rw [h] at hx
  cases hx with
  | zero he hm =>
    rw [he, hm]
    exact ⟨_, rfl⟩

/-- A finite double denotes the number that its parts make up. -/
lemma toReal_eq (hx : x.isFinite) : toReal x = unpackedReal x.toModel.unpack := by
  have hx : (x.toModel.unpack).isFinite = true := hx
  have hfraction : ∀ (m : ℕ) (e : ℤ),
      ((mkRat (Double.fraction m e).1 (Double.fraction m e).2 : ℚ) : ℝ) = m * 2 ^ e := by
    intro m e
    rw [mkRat_fraction, Double.magnitude]
    push_cast
    rfl
  cases h : x.toModel.unpack with
  | notANumber | infinity s =>
    rw [h] at hx
    cases hx
  | zero s =>
    obtain ⟨negative, hx⟩ := ofFloat_of_zero h
    have hzero := hfraction 0 (-1074)
    rw [Nat.cast_zero, zero_mul, Rat.cast_eq_zero] at hzero
    simp [toReal, exactValue?, hx, Double.toRat?, unpackedReal, hzero]
  | finite s m e hm =>
    obtain ⟨-, -, negative, hx, rfl⟩ := canonical_of_unpack h
    simp only [toReal, exactValue?, hx, Double.toRat?, Option.getD_some, unpackedReal]
    cases negative
    · exact hfraction m e
    · rw [← hfraction m e]
      exact Rat.cast_neg _

/-- The sign of a packed double is the one that it is packed with. -/
lemma unpackSign_pack (s : Sign) (e : BitVec 11) (m : BitVec 52) :
    Sign.ofBitVec (unpackSign (packComponents Format.binary64 s e m)) = s := by
  have hsign : unpackSign (packComponents Format.binary64 s e m) = s.toBitVec := by
    apply BitVec.eq_of_toNat_eq
    simp only [unpackSign, packComponents, BitVec.toNat_cast, BitVec.extractLsb,
      BitVec.extractLsb'_toNat, Nat.shiftRight_eq_div_pow, BitVec.toNat_append]
    rw [← Nat.shiftLeft_add_eq_or_of_lt e.isLt, ← Nat.shiftLeft_add_eq_or_of_lt m.isLt]
    have he := e.isLt
    have hm := m.isLt
    cases s
    · show ((1 <<< 11 + e.toNat) <<< 52 + m.toNat) / 2 ^ 63 % 2 ^ 1 = 1
      omega
    · show ((0 <<< 11 + e.toNat) <<< 52 + m.toNat) / 2 ^ 63 % 2 ^ 1 = 0
      omega
  rw [hsign]
  cases s <;> rfl

/-- The bias of the exponent, counted from the last digit of the mantissa. -/
lemma bias_eq : (Format.binary64.exponentBias : ℤ) + (52 : ℕ) = 1075 := by decide

/-- What has the form of a double is packed into one. -/
lemma unpack_pack {hm : 0 < m} (h : Canonical m e) (he : e ≤ 971) :
    (Float.Model.pack (.finite s m e hm)).unpack = .finite s m e hm := by
  obtain ⟨hpos, hlt, hlow, hnormal⟩ := h
  have hfits : ¬ 2 ^ 11 ≤ (e + 1075).toNat + 1 := by omega
  change UnpackedFloat.unpack Format.binary64 (UnpackedFloat.pack Format.binary64 (.finite s m e hm)) = _
  simp only [UnpackedFloat.pack, add_assoc, bias_eq]
  rw [if_neg hfits]
  -- A normal number loses its first digit when it is packed, a subnormal one is packed as it is.
  by_cases hm' : 2 ^ 52 ≤ m
  · have hlog : m.log2 = 52 := (Nat.log2_eq_iff hpos.ne').2 ⟨hm', hlt⟩
    rw [if_pos (by rw [hlog]; rfl)]
    have hexponent : (BitVec.ofNat 11 (e + 1075).toNat).toNat = (e + 1075).toNat := by
      rw [BitVec.toNat_ofNat]
      exact Nat.mod_eq_of_lt (by omega)
    have hmantissa : (1#1 ++ BitVec.ofNat 52 m).toNat = m := by
      rw [BitVec.toNat_append, ← Nat.shiftLeft_add_eq_or_of_lt (BitVec.isLt _), BitVec.toNat_ofNat]
      show 1 <<< 52 + m % 2 ^ 52 = m
      omega
    have hne : ∀ v : BitVec 11, (e + 1075).toNat ≠ v.toNat → BitVec.ofNat 11 (e + 1075).toNat ≠ v := by
      rintro v hv rfl
      exact hv hexponent.symm
    simp only [UnpackedFloat.unpack, unpackExponent_packComponents, unpackMantissa_packComponents,
      unpackSign_pack]
    rw [if_neg (hne _ (by show _ ≠ 2047; omega)), if_neg (hne _ (by show _ ≠ 0; omega)),
      UnpackedFloat.finite.injEq, bias_eq, hexponent]
    exact ⟨rfl, hmantissa, by omega⟩
  · obtain rfl : e = -1074 := hnormal.resolve_left hm'
    have hlog : ¬ m.log2 + 1 = Format.binary64.mantissaBits := by
      have := (Nat.log2_lt hpos.ne').2 (Nat.lt_of_not_le hm')
      show ¬ m.log2 + 1 = 53
      omega
    rw [if_neg hlog]
    have hmantissa : (BitVec.ofNat 52 m).toNat = m := by
      rw [BitVec.toNat_ofNat]
      exact Nat.mod_eq_of_lt (by omega)
    have hne : BitVec.ofNat 52 m ≠ 0#52 := by
      intro h
      rw [h] at hmantissa
      exact hpos.ne hmantissa
    simp only [UnpackedFloat.unpack, unpackExponent_packComponents, unpackMantissa_packComponents,
      unpackSign_pack]
    rw [if_neg (by decide), if_pos trivial, dif_neg hne, UnpackedFloat.finite.injEq]
    exact ⟨rfl, hmantissa, by decide⟩

/-- Parts with too large an exponent make an infinite double. -/
lemma le_of_isFinite_pack {hm : 0 < m}
    (h : (Float.Model.pack (.finite s m e hm)).unpack.isFinite) : e ≤ 971 := by
  by_contra he
  have hbig : 2 ^ 11 ≤ (e + 1075).toNat + 1 := by omega
  change (UnpackedFloat.unpack Format.binary64
    (UnpackedFloat.pack Format.binary64 (.finite s m e hm))).isFinite = true at h
  simp only [UnpackedFloat.pack, add_assoc, bias_eq] at h
  rw [if_pos hbig] at h
  cases s <;> cases h

end Formulary.Number
