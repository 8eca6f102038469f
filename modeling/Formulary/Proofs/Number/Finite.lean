import Formulary.Proofs.Number.Equality
import Formulary.Number.Notation

/-!
# Finite doubles

The double nearest to a fraction is a number (`not_isNaN_nearestFloat`), because its bits do not lie
beyond those of infinity (`nearestBits_le`). So the double of an integer is finite, and a finite
double denotes a finite number (`ofFloat_of_isFinite`), while no other does.
-/

namespace Formulary.Number

open Float.Model.UnpackedFloat
open Float.Model (UnpackedFloat Format)

/-- The leading exponent is found from the lengths of both numbers, or it is one less than that. -/
lemma leadingBinaryExponent_spec (num den : Nat) {k : Int}
    (hk : (Nat.log2 num : Int) - Nat.log2 den = k) :
    leadingBinaryExponent num den = k ∨ leadingBinaryExponent num den = k - 1 ∧
      (0 ≤ k ∧ num < den * 2 ^ k.toNat ∨ k < 0 ∧ num * 2 ^ (-k).toNat < den) := by
  simp only [leadingBinaryExponent, hk]
  by_cases h0 : 0 ≤ k
  · simp only [h0, if_true]
    by_cases hr : den * Nat.pow 2 k.toNat ≤ num
    · exact .inl (if_pos hr)
    · exact .inr ⟨if_neg hr, .inl ⟨trivial, Nat.lt_of_not_le hr⟩⟩
  · simp only [h0, if_false]
    by_cases hr : den ≤ num * Nat.pow 2 (-k).toNat
    · exact .inl (if_pos hr)
    · exact .inr ⟨if_neg hr, .inr ⟨Int.not_le.1 h0, Nat.lt_of_not_le hr⟩⟩

/-- An upper bound for a quotient, from the exponent of its leading digit. -/
lemma lt_of_leadingBinaryExponent {num den a b : Nat} (hd : 0 < den)
    (h : leadingBinaryExponent num den + 1 ≤ b - (a : Int)) : num * 2 ^ a < den * 2 ^ b := by
  have hnum : num < 2 ^ (Nat.log2 num + 1) := Nat.lt_log2_self
  have hden : 2 ^ Nat.log2 den ≤ den := Nat.log2_self_le (Nat.ne_of_gt hd)
  obtain hk | ⟨hk, ⟨h0, hlt⟩ | ⟨h0, hlt⟩⟩ := leadingBinaryExponent_spec num den rfl
  · calc num * 2 ^ a < 2 ^ (Nat.log2 num + 1) * 2 ^ a :=
          Nat.mul_lt_mul_of_pos_right hnum (Nat.two_pow_pos a)
      _ = 2 ^ (Nat.log2 num + 1 + a) := (Nat.pow_add ..).symm
      _ ≤ 2 ^ (Nat.log2 den + b) := Nat.pow_le_pow_right (by decide) (by omega)
      _ = 2 ^ Nat.log2 den * 2 ^ b := Nat.pow_add ..
      _ ≤ den * 2 ^ b := Nat.mul_le_mul_right _ hden
  · generalize (Nat.log2 num : Int) - Nat.log2 den = k at *
    calc num * 2 ^ a < den * 2 ^ k.toNat * 2 ^ a :=
          Nat.mul_lt_mul_of_pos_right hlt (Nat.two_pow_pos a)
      _ = den * 2 ^ (k.toNat + a) := by rw [Nat.pow_add, Nat.mul_assoc]
      _ ≤ den * 2 ^ b := Nat.mul_le_mul_left _ (Nat.pow_le_pow_right (by decide) (by omega))
  · generalize (Nat.log2 num : Int) - Nat.log2 den = k at *
    calc num * 2 ^ a ≤ num * 2 ^ ((-k).toNat + b) :=
          Nat.mul_le_mul_left _ (Nat.pow_le_pow_right (by decide) (by omega))
      _ = num * 2 ^ (-k).toNat * 2 ^ b := by rw [Nat.pow_add, Nat.mul_assoc]
      _ < den * 2 ^ b := Nat.mul_lt_mul_of_pos_right hlt (Nat.two_pow_pos b)

/-- A quotient is rounded to no more than a number above it. -/
lemma roundHalfEven_le {num den n : Nat} (h : num < den * n) : roundHalfEven num den ≤ n := by
  have hq : num / den < n := Nat.div_lt_of_lt_mul h
  simp only [roundHalfEven]
  split
  · omega
  · split
    · omega
    · split <;> omega

/-- The nearest double is not beyond infinity. -/
lemma nearestBits_le {num den : Nat} (hd : 0 < den) : nearestBits num den ≤ 2047 * 2 ^ 52 := by
  simp only [nearestBits]
  split
  · omega
  · split
    · exact Nat.le_refl _
    · rename_i hu
      generalize hunit : max (leadingBinaryExponent num den - 52) (-1074) = unit at *
      -- The unit is that of the 53rd digit or a larger one.
      have hround : roundHalfEven
          (if 0 ≤ unit then (num, den * Nat.pow 2 unit.toNat)
            else (num * Nat.pow 2 (-unit).toNat, den)).1
          (if 0 ≤ unit then (num, den * Nat.pow 2 unit.toNat)
            else (num * Nat.pow 2 (-unit).toNat, den)).2 ≤ 2 ^ 53 := by
        refine roundHalfEven_le ?_
        split
        · have : num * 2 ^ 0 < den * 2 ^ (unit.toNat + 53) :=
            lt_of_leadingBinaryExponent hd (by omega)
          rwa [Nat.pow_zero, Nat.mul_one, Nat.pow_add, ← Nat.mul_assoc] at this
        · show num * 2 ^ (-unit).toNat < den * 2 ^ 53
          exact lt_of_leadingBinaryExponent hd (by omega)
      have hpow : Nat.pow 2 52 = 4503599627370496 := by decide
      have hunits : (unit + 1074).toNat ≤ 2045 := by omega
      simp only [hpow]
      omega

/-- Packing makes no number of nothing but of what is none. -/
lemma unpacked_pack_ne {u : UnpackedFloat} (hu : u ≠ .notANumber) :
    unpackMantissa (UnpackedFloat.pack Format.binary64 u) = 0#_ ∨
      unpackExponent (UnpackedFloat.pack Format.binary64 u) ≠ -1#_ := by
  fun_cases UnpackedFloat.pack with
  | case1 => exact absurd rfl hu
  | case2 s => exact .inl (by simp [packedInfinity])
  | case3 s => exact .inl (by simp [packedZero])
  | case4 s m e hm n h => exact .inl (by simp [packedInfinity])
  | case5 s m e hm d n h1 h2 =>
    right
    rw [unpackExponent_packComponents]
    intro h
    have := congrArg BitVec.toNat h
    simp at this h1
    omega
  | case6 s m e hm d n h1 h2 =>
    right
    rw [unpackExponent_packComponents]
    decide

/-- The bits of a double. -/
abbrev bits (x : Float) : BitVec Format.binary64.numBits := x.toModel.toBits.toBitVec

/-- What has no bits of a NaN is a number. -/
lemma not_isNaN_of_bits {x : Float}
    (h : unpackMantissa (bits x) = 0#_ ∨ unpackExponent (bits x) ≠ -1#_) : ¬ x.isNaN := by
  intro hx
  have hx : (UnpackedFloat.unpack Format.binary64 (bits x)).isNaN = true := hx
  have hu := unpacked (bits x)
  cases hu' : UnpackedFloat.unpack Format.binary64 (bits x) with
  | notANumber =>
    rw [hu'] at hu
    cases hu with
    | notANumber he hm => exact h.elim (absurd · hm) (absurd he ·)
  | infinity s | zero s | finite s m e hm =>
    rw [hu'] at hx
    cases hx

/-- A number is not unpacked to a NaN. -/
lemma unpack_ne_notANumber {x : Float} (h : ¬ x.isNaN) :
    UnpackedFloat.unpack Format.binary64 (bits x) ≠ .notANumber := by
  intro hu
  refine h ?_
  show (UnpackedFloat.unpack Format.binary64 (bits x)).isNaN = true
  rw [hu]
  rfl

/-- The bits up to those of infinity are those of a number. -/
lemma not_isNaN_ofBits {n : Nat} (h : n ≤ 2047 * 2 ^ 52) : ¬ (Float.ofBits (.ofNat n)).isNaN := by
  refine not_isNaN_of_bits (unpacked_pack_ne fun hu => ?_)
  have hx := unpacked (UInt64.ofNat n).toBitVec
  rw [hu] at hx
  cases hx with
  | notANumber he hm =>
    have hn : (UInt64.ofNat n).toBitVec.toNat = n := Nat.mod_eq_of_lt (by omega)
    have he' : n / 2 ^ 52 % 2 ^ 11 = 2047 := by
      have := congrArg BitVec.toNat he
      simpa [unpackExponent, Nat.shiftRight_eq_div_pow, hn] using this
    have hm' : n % 2 ^ 52 ≠ 0 := by
      intro h0
      refine hm (BitVec.eq_of_toNat_eq ?_)
      simpa [unpackMantissa, hn] using h0
    omega

/-- The negative of a number is a number. -/
lemma not_isNaN_neg {x : Float} (h : ¬ x.isNaN) : ¬ (-x).isNaN := by
  refine not_isNaN_of_bits (unpacked_pack_ne fun hu => unpack_ne_notANumber h ?_)
  cases hx : UnpackedFloat.unpack Format.binary64 (bits x) with
  | notANumber => rfl
  | infinity s | zero s | finite s m e hm =>
    rw [show x.toModel.unpack = _ from hx] at hu
    cases hu

/-- The nearest double of a fraction is a number. -/
theorem not_isNaN_nearestFloat {negative : Bool} {num den : Nat} (hd : 0 < den) :
    ¬ (nearestFloat negative num den).isNaN := by
  have hle : nearestBits num den ≤ 2047 * 2 ^ 52 := nearestBits_le hd
  have h := not_isNaN_ofBits hle
  simp only [nearestFloat]
  split
  · exact not_isNaN_neg h
  · exact h

/-- A number that is not infinite is finite. -/
lemma isFinite_of_not_isNaN {x : Float} (hn : ¬ x.isNaN) (hi : ¬ x.isInf) : x.isFinite := by
  show (UnpackedFloat.unpack Format.binary64 (bits x)).isFinite = true
  cases hx : UnpackedFloat.unpack Format.binary64 (bits x) with
  | notANumber => exact absurd hx (unpack_ne_notANumber hn)
  | infinity s =>
    refine absurd ?_ hi
    show (UnpackedFloat.unpack Format.binary64 (bits x)).isInf = true
    rw [hx]
    rfl
  | zero s | finite s m e hm => rfl

/-- The double of an integer, if there is one, is finite. -/
theorem isFinite_of_floatOfInt? {n : Int} {x : Float} (h : floatOfInt? n = some x) : x.isFinite := by
  simp only [floatOfInt?] at h
  split at h
  · cases h
  · rename_i hi
    cases h
    exact isFinite_of_not_isNaN (not_isNaN_nearestFloat (by decide)) hi

/-- A finite double denotes a finite number. -/
lemma ofFloat_of_isFinite {x : Float} (h : x.isFinite) :
    ∃ negative m e, Double.ofFloat x = .finite negative m e := by
  have hfield : x.toBits.toNat / Nat.pow 2 52 % Nat.pow 2 11 ≠ 2047 := by
    intro hf
    have he : unpackExponent (bits x) = -1#_ := by
      refine BitVec.eq_of_toNat_eq ?_
      simpa [unpackExponent, Nat.shiftRight_eq_div_pow, Float.toBits] using hf
    have hu : (UnpackedFloat.unpack Format.binary64 (bits x)).isFinite = true := h
    have hx := unpacked (bits x)
    cases hx' : UnpackedFloat.unpack Format.binary64 (bits x) with
    | notANumber | infinity s =>
      rw [hx'] at hu
      cases hu
    | zero s =>
      rw [hx'] at hx
      cases hx with
      | zero he' _ =>
        rw [he] at he'
        cases he'
    | finite s m e hm =>
      rw [UnpackedFloat.unpack, he] at hx'
      simp only [if_true] at hx'
      split at hx' <;> cases hx'
  simp only [Double.ofFloat, hfield, if_false]
  split
  · exact ⟨_, _, _, rfl⟩
  · exact ⟨_, _, _, rfl⟩

/-- A double that is not finite is infinite or no number. -/
lemma ofFloat_of_not_isFinite {x : Float} (h : ¬ x.isFinite) :
    Double.ofFloat x = .nan ∨ ∃ negative, Double.ofFloat x = .infinite negative := by
  have hu : ¬ (UnpackedFloat.unpack Format.binary64 (bits x)).isFinite = true := h
  have hfield : x.toBits.toNat / Nat.pow 2 52 % Nat.pow 2 11 = 2047 := by
    suffices unpackExponent (bits x) = -1#_ by
      have := congrArg BitVec.toNat this
      simpa [unpackExponent, Nat.shiftRight_eq_div_pow, Float.toBits] using this
    have hx := unpacked (bits x)
    generalize UnpackedFloat.unpack Format.binary64 (bits x) = u at hu hx
    cases hx with
    | notANumber he | infinity he => exact he
    | zero | finite => exact absurd rfl hu
  simp only [Double.ofFloat, hfield, if_true]
  split
  · exact .inr ⟨_, rfl⟩
  · exact .inl rfl

/-- What has an exact value is finite. -/
lemma isFinite_of_exactValue? {x : Float} {q : Rat} (h : exactValue? x = some q) : x.isFinite := by
  by_contra hx
  obtain hx | ⟨negative, hx⟩ := ofFloat_of_not_isFinite hx
  · rw [exactValue?, hx] at h
    cases h
  · rw [exactValue?, hx] at h
    cases h

/-- What has an exact value is not infinite. -/
lemma not_isInf_of_exactValue? {x : Float} {q : Rat} (h : exactValue? x = some q) : ¬ x.isInf := by
  intro hi
  have hx : (UnpackedFloat.unpack Format.binary64 (bits x)).isFinite = true := isFinite_of_exactValue? h
  have hi : (UnpackedFloat.unpack Format.binary64 (bits x)).isInf = true := hi
  generalize UnpackedFloat.unpack Format.binary64 (bits x) = u at hx hi
  cases u with
  | infinity s => cases hx
  | notANumber | zero s | finite s m e hm => cases hi

end Formulary.Number
