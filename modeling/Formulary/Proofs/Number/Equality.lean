import Mathlib
import Formulary.Number.Double

/-!
# Doubles that are equal as numbers

Two doubles are compared by what they denote. `eq_or_zero_of_beq` says that zero is the only number
that two doubles stand for, `abs_of_beq_zero` that both zeros have one magnitude, and `eq_of_isNaN`
that there is one double that is no number.
-/

namespace Formulary.Number

open Float.Model.UnpackedFloat
open Float.Model (UnpackedFloat Format)

/-- Different bits are different signs. -/
lemma sign_ofBitVec_injective {a b : BitVec 1} (h : Sign.ofBitVec a = Sign.ofBitVec b) : a = b := by
  have bit : ∀ v : BitVec 1, v = 0#1 ∨ v = 1#1 := by decide
  obtain rfl | rfl := bit a <;> obtain rfl | rfl := bit b
  · rfl
  · cases h
  · cases h
  · rfl

/-- The sign, the exponent and the mantissa of a packed double make up its bits. -/
lemma eq_of_components {a b : BitVec Format.binary64.numBits}
    (hs : unpackSign a = unpackSign b) (he : unpackExponent a = unpackExponent b)
    (hm : unpackMantissa a = unpackMantissa b) : a = b := by
  have hs' : a.toNat / 2 ^ 63 % 2 = b.toNat / 2 ^ 63 % 2 := by
    have := congrArg BitVec.toNat hs
    simpa [UnpackedFloat.unpackSign, Nat.shiftRight_eq_div_pow] using this
  have he' : a.toNat / 2 ^ 52 % 2 ^ 11 = b.toNat / 2 ^ 52 % 2 ^ 11 := by
    have := congrArg BitVec.toNat he
    simpa [UnpackedFloat.unpackExponent, Nat.shiftRight_eq_div_pow] using this
  have hm' : a.toNat % 2 ^ 52 = b.toNat % 2 ^ 52 := by
    have := congrArg BitVec.toNat hm
    simpa [UnpackedFloat.unpackMantissa] using this
  have ha : a.toNat < 2 ^ 64 := a.isLt
  have hb : b.toNat < 2 ^ 64 := b.isLt
  apply BitVec.eq_of_toNat_eq
  omega

/-- The four kinds of doubles, told apart by the exponent and the mantissa. -/
inductive Unpacked (b : BitVec Format.binary64.numBits) : UnpackedFloat → Prop where
  | infinity (he : unpackExponent b = -1#_) (hm : unpackMantissa b = 0#_) :
    Unpacked b (.infinity (Sign.ofBitVec (unpackSign b)))
  | notANumber (he : unpackExponent b = -1#_) (hm : unpackMantissa b ≠ 0#_) :
    Unpacked b .notANumber
  | zero (he : unpackExponent b = 0#_) (hm : unpackMantissa b = 0#_) :
    Unpacked b (.zero (Sign.ofBitVec (unpackSign b)))
  | finite (m : Nat) (e : Int) (h : 0 < m)
    (hm : unpackExponent b = 0#_ ∧ m = (unpackMantissa b).toNat ∨
      m = 2 ^ 52 + (unpackMantissa b).toNat ∧ e = (unpackExponent b).toNat - 1075) :
    Unpacked b (.finite (Sign.ofBitVec (unpackSign b)) m e h)

/-- A double is unpacked to the parts of its bits. -/
lemma unpacked (b : BitVec Format.binary64.numBits) :
    Unpacked b (UnpackedFloat.unpack Format.binary64 b) := by
  unfold UnpackedFloat.unpack
  simp only
  split
  · split
    · exact .infinity ‹_› ‹_›
    · exact .notANumber ‹_› ‹_›
  · split
    · split
      · exact .zero ‹_› ‹_›
      · exact .finite _ _ _ (.inl ⟨‹_›, rfl⟩)
    · refine .finite _ _ _ (.inr ⟨?_, rfl⟩)
      have hv := (unpackMantissa b).isLt
      rw [BitVec.toNat_append, ← Nat.shiftLeft_add_eq_or_of_lt hv]
      simp [Nat.shiftLeft_eq]

/-- The bits of a double are known from what it denotes, unless that is no number. -/
lemma unpack_injective {a b : BitVec Format.binary64.numBits} {u : UnpackedFloat}
    (ha : Unpacked a u) (hb : Unpacked b u) (hn : u ≠ .notANumber) : a = b := by
  have hma : (unpackMantissa a).toNat < 2 ^ 52 := (unpackMantissa a).isLt
  have hmb : (unpackMantissa b).toNat < 2 ^ 52 := (unpackMantissa b).isLt
  cases ha with
  | notANumber => exact absurd rfl hn
  | infinity he hm =>
    generalize hs : Sign.ofBitVec (unpackSign a) = s at hb
    cases hb with
    | infinity he' hm' =>
      exact eq_of_components (sign_ofBitVec_injective hs) (he.trans he'.symm) (hm.trans hm'.symm)
  | zero he hm =>
    generalize hs : Sign.ofBitVec (unpackSign a) = s at hb
    cases hb with
    | zero he' hm' =>
      exact eq_of_components (sign_ofBitVec_injective hs) (he.trans he'.symm) (hm.trans hm'.symm)
  | finite m e h hm =>
    generalize hs : Sign.ofBitVec (unpackSign a) = s at hb
    cases hb with
    | finite _ _ _ hm' =>
      have hs := sign_ofBitVec_injective hs
      -- subnormal mantissas are below `2 ^ 52` and the others are not, so that both are of one kind
      obtain ⟨he, rfl⟩ | ⟨rfl, rfl⟩ := hm
      · obtain ⟨he', hm'⟩ | ⟨hm', -⟩ := hm'
        · exact eq_of_components hs (he.trans he'.symm) (BitVec.eq_of_toNat_eq hm')
        · omega
      · obtain ⟨-, hm'⟩ | ⟨hm', he'⟩ := hm'
        · omega
        · exact eq_of_components hs (BitVec.eq_of_toNat_eq (by omega)) (BitVec.eq_of_toNat_eq (by omega))

/-- Doubles that compare as equal are equal, or they are zeros. -/
lemma compare_eq {u w : UnpackedFloat} (h : u.compare w = some .eq) :
    u ≠ .notANumber ∧ (u = w ∨ ∃ s t, u = .zero s ∧ w = .zero t) := by
  cases u with
  | notANumber => cases h
  | infinity s =>
    cases w with
    | infinity t =>
      cases s <;> cases t
      · exact ⟨nofun, .inl rfl⟩
      · cases h
      · cases h
      · exact ⟨nofun, .inl rfl⟩
    | notANumber => cases h
    | zero t => cases s <;> cases h
    | finite t m e hm => cases s <;> cases h
  | zero s =>
    cases w with
    | zero t => exact ⟨nofun, .inr ⟨s, t, rfl, rfl⟩⟩
    | notANumber => cases h
    | infinity t => cases t <;> cases h
    | finite t m e hm => cases t <;> cases h
  | finite s m e hm =>
    refine ⟨nofun, .inl ?_⟩
    cases w with
    | notANumber => cases h
    | infinity t => cases t <;> cases h
    | zero t => cases s <;> cases h
    | finite t n f hn =>
      have hst : s = t ∧ compare e f = .eq ∧ compare m n = .eq := by
        cases s <;> cases t
        · exact ⟨rfl, by simpa [UnpackedFloat.compare] using h⟩
        · cases h
        · cases h
        · exact ⟨rfl, by simpa [UnpackedFloat.compare, Ordering.swap_eq_eq] using h⟩
      obtain ⟨rfl, he, hm⟩ := hst
      cases Std.LawfulEqOrd.eq_of_compare he
      cases Std.LawfulEqOrd.eq_of_compare hm
      rfl

/-- There is one double that is no number. -/
lemma eq_of_isNaN {x y : Float} (hx : x.isNaN) (hy : y.isNaN) : x = y := by
  have bits {z : Float} (hz : z.isNaN) :
      z.toModel.toBits.toBitVec = packedNaN Format.binary64 := by
    have hu : z.toModel.unpack = .notANumber := by
      have : z.toModel.unpack.isNaN = true := hz
      cases hu : z.toModel.unpack <;> rw [hu] at this <;> first | rfl | cases this
    have := unpacked z.toModel.toBits.toBitVec
    rw [show UnpackedFloat.unpack _ _ = .notANumber from hu] at this
    cases this with
    | notANumber he hm => exact z.toModel.valid.eq_packedNaN he hm
  have h := (bits hx).trans (bits hy).symm
  obtain ⟨⟨⟨bx⟩, _⟩⟩ := x
  obtain ⟨⟨⟨by'⟩, _⟩⟩ := y
  cases h
  rfl

/-- A double that is a number equals itself. -/
lemma beq_self {x : Float} (h : ¬ x.isNaN) : (x == x) = true := by
  show x.toModel.unpack.beq x.toModel.unpack = true
  have hx : ¬ x.toModel.unpack.isNaN = true := h
  cases hu : x.toModel.unpack with
  | notANumber =>
    rw [hu] at hx
    exact absurd rfl hx
  | infinity s => cases s <;> rfl
  | zero s => rfl
  | finite s m e hm => cases s <;> simp [UnpackedFloat.beq, UnpackedFloat.compare]

/-- Doubles that are equal as numbers are the same double, unless both are zero. -/
theorem eq_or_zero_of_beq {x y : Float} (h : (x == y) = true) :
    x = y ∨ (x == 0.0) = true ∧ (y == 0.0) = true := by
  have hc : x.toModel.unpack.compare y.toModel.unpack = some .eq := LawfulBEq.eq_of_beq h
  obtain ⟨hn, hxy | ⟨s, t, hx, hy⟩⟩ := compare_eq hc
  · left
    have hy : Unpacked y.toModel.toBits.toBitVec x.toModel.unpack := by
      rw [hxy]
      exact unpacked _
    have hbits := unpack_injective (unpacked x.toModel.toBits.toBitVec) hy hn
    obtain ⟨⟨⟨bx⟩, _⟩⟩ := x
    obtain ⟨⟨⟨by'⟩, _⟩⟩ := y
    cases hbits
    rfl
  · right
    have beq_zero {z : Float} {s : Sign} (hz : z.toModel.unpack = .zero s) : (z == 0.0) = true := by
      show z.toModel.unpack.beq (.zero .positive) = true
      rw [hz]
      rfl
    exact ⟨beq_zero hx, beq_zero hy⟩

/-- A double that equals zero is a zero, of either sign. -/
lemma unpack_of_beq_zero {x : Float} (h : (x == 0.0) = true) :
    ∃ s, x.toModel.unpack = .zero s := by
  have hx : x.toModel.unpack.beq (.zero .positive) = true := h
  cases hu : x.toModel.unpack with
  | zero s => exact ⟨s, rfl⟩
  | notANumber | infinity s | finite s m e =>
    rw [hu] at hx
    first | cases hx | (cases s <;> cases hx)

/-- The magnitude of a double that equals zero is zero. -/
lemma abs_of_beq_zero {x : Float} (h : (x == 0.0) = true) : x.abs = 0.0 := by
  obtain ⟨s, hs⟩ := unpack_of_beq_zero h
  have : x.abs = .ofModel (.pack x.toModel.unpack.abs) := rfl
  rw [this, hs]
  rfl

/-- Zeros are equal, whatever their signs. -/
lemma beq_of_beq_zero {x y : Float} (hx : (x == 0.0) = true) (hy : (y == 0.0) = true) :
    (x == y) = true := by
  obtain ⟨s, hs⟩ := unpack_of_beq_zero hx
  obtain ⟨t, ht⟩ := unpack_of_beq_zero hy
  show x.toModel.unpack.beq y.toModel.unpack = true
  rw [hs, ht]
  rfl

/-- Equality of doubles is symmetric. -/
lemma beq_symm {x y : Float} (h : (x == y) = true) : (y == x) = true := by
  obtain rfl | ⟨hx, hy⟩ := eq_or_zero_of_beq h
  · exact h
  · exact beq_of_beq_zero hy hx

/-- Equality of doubles is transitive. -/
lemma beq_trans {x y z : Float} (hxy : (x == y) = true) (hyz : (y == z) = true) :
    (x == z) = true := by
  obtain rfl | ⟨hx, hy⟩ := eq_or_zero_of_beq hxy
  · exact hyz
  obtain rfl | ⟨-, hz⟩ := eq_or_zero_of_beq hyz
  · exact hxy
  · exact beq_of_beq_zero hx hz

/-- A finite double is a number. -/
lemma not_isNaN_of_isFinite {x : Float} (h : x.isFinite) : ¬ x.isNaN := by
  have h : x.toModel.unpack.isFinite = true := h
  show ¬ x.toModel.unpack.isNaN = true
  cases hu : x.toModel.unpack with
  | notANumber =>
    rw [hu] at h
    cases h
  | infinity s | zero s | finite s m e => exact nofun

end Formulary.Number
