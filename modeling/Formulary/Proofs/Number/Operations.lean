import Formulary.Proofs.Number.Nearest

/-!
# Operations on doubles

Sums, differences, products, quotients and square roots of finite doubles are those of the numbers
that they denote, rounded to a double (`rounds_add`, `rounds_sub`, `rounds_mul`, `rounds_div`,
`rounds_sqrt`). The opposite of a double is exact (`toReal_neg`).
-/

namespace Formulary.Number

open Float.Model.UnpackedFloat
open Float.Model (UnpackedFloat Format totalExponent)

variable {x y : Float} {s t : Sign} {m n k : ℕ} {e f g : ℤ} {u : UnpackedFloat} {r : ℝ}

/-- That a double is the one that a number is rounded to, unless it is infinite. -/
structure Rounds (x : Float) (r : ℝ) : Prop where
  isFinite : |r| < 2 ^ 1023 → x.isFinite
  near : x.isFinite → |toReal x - r| ≤ roundoff * |r| + underflow
  ordered : x.isFinite → ∀ q, IsDouble q → (q ≤ r → q ≤ toReal x) ∧ (r ≤ q → toReal x ≤ q)

/-- A packed double is the rounded number. -/
lemma Rounded.rounds (h : Rounded u r) : Rounds ⟨Float.Model.pack u⟩ r := by
  have hfinite : ∀ {x : Float} {u : UnpackedFloat}, x.toModel.unpack = u → u.isFinite → x.isFinite := by
    rintro x u rfl hu
    exact hu
  obtain ⟨⟨s, rfl⟩ | ⟨s, m, e, hm, rfl, hcanonical, hlt⟩, hnear, hordered⟩ := h
  · have hunpack : (Float.Model.pack (.zero s)).unpack = .zero s := by cases s <;> rfl
    have hx : (⟨Float.Model.pack (.zero s)⟩ : Float).isFinite := hfinite hunpack rfl
    have hvalue := (toReal_eq hx).trans (congrArg unpackedReal hunpack)
    exact ⟨fun _ => hx, fun _ => by rwa [hvalue], fun _ => by rwa [hvalue]⟩
  · -- An exponent above 971 makes an infinity, so the value is that of finite results only.
    have hunpack : e ≤ 971 → (Float.Model.pack (.finite s m e hm)).unpack = .finite s m e hm :=
      unpack_pack hcanonical
    have hvalue : (⟨Float.Model.pack (.finite s m e hm)⟩ : Float).isFinite →
        toReal ⟨Float.Model.pack (.finite s m e hm)⟩ = unpackedReal (.finite s m e hm) := fun hx =>
      (toReal_eq hx).trans (congrArg unpackedReal (hunpack (le_of_isFinite_pack hx)))
    exact ⟨fun hr => hfinite (hunpack (hlt hr)) rfl, fun hx => by rwa [hvalue hx],
      fun hx => by rwa [hvalue hx]⟩

/-- What a finite double is unpacked to, and the number that it denotes. -/
inductive Parts : UnpackedFloat → ℝ → Prop where
  | zero (s : Sign) : Parts (.zero s) 0
  | finite {s : Sign} {m : ℕ} {e : ℤ} {hm : 0 < m} (h : Canonical m e) (he : e ≤ 971) :
    Parts (.finite s m e hm) (withSignOf s (m * 2 ^ e))

/-- A finite double has parts that denote it. -/
lemma parts (hx : x.isFinite) : Parts x.toModel.unpack (toReal x) := by
  have hreal := toReal_eq hx
  have hx : (x.toModel.unpack).isFinite = true := hx
  cases h : x.toModel.unpack with
  | notANumber | infinity s =>
    rw [h] at hx
    cases hx
  | zero s =>
    rw [hreal, h]
    exact .zero s
  | finite s m e hm =>
    rw [hreal, h]
    obtain ⟨hcanonical, he, -⟩ := canonical_of_unpack h
    exact .finite hcanonical he

/-- A double is packed from its parts. -/
lemma Parts.pack (h : Parts u r) :
    (⟨Float.Model.pack u⟩ : Float).isFinite ∧ toReal ⟨Float.Model.pack u⟩ = r := by
  have hunpack : (Float.Model.pack u).unpack = u ∧ u.isFinite ∧ unpackedReal u = r := by
    cases h with
    | zero s => exact ⟨by cases s <;> rfl, rfl, rfl⟩
    | finite h he => exact ⟨unpack_pack h he, rfl, rfl⟩
  obtain ⟨hu, hfinite, hr⟩ := hunpack
  have hx : (⟨Float.Model.pack u⟩ : Float).isFinite := by
    show (Float.Model.pack u).unpack.isFinite = true
    rwa [hu]
  exact ⟨hx, by rw [toReal_eq hx, hu, hr]⟩

/-- The parts of a number with the sign changed. -/
lemma Parts.neg (h : Parts u r) : Parts u.neg (-r) := by
  cases h with
  | zero s =>
    rw [neg_zero]
    exact .zero (-s)
  | finite h he =>
    rw [← withSignOf_neg]
    exact .finite h he

/-- Zero is rounded to itself. -/
lemma rounded_zero : Rounded (.zero s) 0 := by
  refine ⟨.inl ⟨s, rfl⟩, ?_, fun q _ => ⟨id, id⟩⟩
  rw [show unpackedReal (.zero s) = 0 from rfl, sub_zero, abs_zero, mul_zero, zero_add]
  exact underflow_pos.le

/-- A double needs no rounding. -/
lemma Parts.rounded (h : Parts u r) : Rounded u r := by
  cases h with
  | zero s => exact rounded_zero
  | @finite s m e hm h he =>
    refine ⟨.inr ⟨s, m, e, hm, rfl, h, fun _ => he⟩, ?_, fun q _ => ⟨id, id⟩⟩
    rw [unpackedReal, sub_self, abs_zero]
    exact add_nonneg (mul_nonneg roundoff_pos.le (abs_nonneg _)) underflow_pos.le

/-- A mantissa without further bits represents itself. -/
lemma represents_exact : Represents (.ofMantissaAndAccuracy m .exact) m :=
  ⟨0, by simp [ExtendedMantissa.ofMantissaAndAccuracy], le_refl _, by norm_num,
    by simp [ExtendedMantissa.ofMantissaAndAccuracy]⟩

/-- Shifting a mantissa adds digits to it. -/
lemma log2_shiftLeft (hm : 0 < m) (k : ℕ) : (m <<< k).log2 = m.log2 + k := by
  rw [Nat.shiftLeft_eq, Nat.log2_eq_iff (Nat.mul_pos hm (Nat.two_pow_pos k)).ne', pow_add,
    Nat.add_right_comm, pow_add]
  exact ⟨Nat.mul_le_mul_right _ (Nat.log2_self_le hm.ne'),
    Nat.mul_lt_mul_of_pos_right Nat.lt_log2_self (Nat.two_pow_pos k)⟩

/-- A whole multiple of a power of two is rounded. -/
lemma rounded_round (hm : 0 < m) : Rounded (round Format.binary64 s m e) (withSignOf s (m * 2 ^ e)) := by
  obtain ⟨k, hk⟩ : ∃ k : ℕ, (e - lastExponent m e).toNat = k := ⟨_, rfl⟩
  have hlast : lastExponent (m <<< k) (e - k) = lastExponent m e := by
    simp only [lastExponent, log2_shiftLeft hm]
    push_cast
    congr 1
    ring
  -- Digits are added until the last one is not above its place; this does not change the number.
  rw [UnpackedFloat.round, targetExponent_eq, decreaseExponent, hk]
  have hvalue : (m : ℝ) * 2 ^ e = ((m <<< k : ℕ) : ℝ) * 2 ^ (e - k) := by
    rw [Nat.shiftLeft_eq, zpow_sub₀ (by norm_num), zpow_natCast]
    push_cast
    field_simp
  rw [hvalue]
  exact rounded_roundWithAccuracy represents_exact (by rw [hlast]; omega)

/-- A whole multiple of a power of two with a sign is rounded. -/
lemma rounded_normalize (z : ℤ) : Rounded (normalize Format.binary64 z e t) (z * 2 ^ e) := by
  rw [UnpackedFloat.normalize]
  obtain hz | rfl | hz := lt_trichotomy z 0
  · rw [Int.compare_eq_lt.2 hz]
    have hvalue : (z : ℝ) * 2 ^ e = withSignOf .negative (((-z).toNat : ℕ) * 2 ^ e) := by
      have hcast : (((-z).toNat : ℤ) : ℝ) = ((-z : ℤ) : ℝ) := by rw [Int.toNat_of_nonneg (by omega)]
      rw [withSignOf, ← Int.cast_natCast, hcast]
      push_cast
      ring
    rw [hvalue]
    exact rounded_round (by omega)
  · rw [Int.cast_zero, zero_mul]
    exact rounded_zero
  · rw [Int.compare_eq_gt.2 hz]
    have hvalue : (z : ℝ) * 2 ^ e = withSignOf .positive ((z.toNat : ℕ) * 2 ^ e) := by
      have hcast : ((z.toNat : ℤ) : ℝ) = z := by rw [Int.toNat_of_nonneg hz.le]
      rw [withSignOf, ← Int.cast_natCast, hcast]
    rw [hvalue]
    exact rounded_round (by omega)

/-- An integer with a sign is a number with the sign. -/
lemma cast_apply (s : Sign) (z : ℤ) : ((s.apply z : ℤ) : ℝ) = withSignOf s z := by
  cases s
  · exact Int.cast_neg z
  · rfl

/-- A number keeps its value when its mantissa gets more digits. -/
lemma decreaseExponent_value (hf : f ≤ e) :
    ((decreaseExponent m e f).1 : ℝ) * 2 ^ f = m * 2 ^ e := by
  obtain ⟨k, rfl⟩ : ∃ k : ℕ, e = f + k := ⟨(e - f).toNat, by omega⟩
  have hk : (f + k - f).toNat = k := by omega
  rw [decreaseExponent, hk, Nat.shiftLeft_eq, zpow_add₀ (by norm_num), zpow_natCast]
  push_cast
  ring

/-- The sum of two numbers is rounded. -/
lemma Parts.add {v : UnpackedFloat} {q : ℝ} (hu : Parts u r) (hv : Parts v q) :
    Rounded (UnpackedFloat.add Format.binary64 u v) (r + q) := by
  cases hu with
  | zero s =>
    rw [zero_add]
    cases hv with
    | zero t =>
      simp only [UnpackedFloat.add]
      split <;> exact rounded_zero
    | finite h he => exact (Parts.finite h he).rounded
  | @finite s m e _ h he =>
    cases hv with
    | zero t =>
      rw [add_zero]
      exact (Parts.finite h he).rounded
    | @finite t n f _ h' he' =>
      have hvalue : withSignOf s (m * 2 ^ e) + withSignOf t (n * 2 ^ f) =
          ((s.apply (decreaseExponent m e (min e f)).1 +
            t.apply (decreaseExponent n f (min e f)).1 : ℤ) : ℝ) * 2 ^ min e f := by
        rw [Int.cast_add, cast_apply, cast_apply, add_mul, withSignOf_mul_right, withSignOf_mul_right,
          Int.cast_natCast, Int.cast_natCast, decreaseExponent_value (min_le_left e f),
          decreaseExponent_value (min_le_right e f)]
      rw [hvalue]
      exact rounded_normalize _

/-- A difference is a sum with the opposite. -/
lemma unpacked_sub (u v : UnpackedFloat) :
    UnpackedFloat.sub Format.binary64 u v = UnpackedFloat.add Format.binary64 u v.neg := by
  cases u with
  | notANumber => rfl
  | infinity s => cases v <;> rfl
  | zero s => cases v <;> rfl
  | finite s m e hm =>
    cases v with
    | notANumber | infinity t | zero t => rfl
    | finite t n f hn =>
      have happly : ∀ z : ℤ, Sign.apply (-t) z = -t.apply z := by
        intro z
        cases t
        · exact (neg_neg z).symm
        · rfl
      simp only [UnpackedFloat.sub, UnpackedFloat.add, UnpackedFloat.neg, happly, sub_eq_add_neg]

/-- The sum of two doubles. -/
theorem rounds_add (hx : x.isFinite) (hy : y.isFinite) : Rounds (x + y) (toReal x + toReal y) :=
  ((parts hx).add (parts hy)).rounds

/-- The difference of two doubles. -/
theorem rounds_sub (hx : x.isFinite) (hy : y.isFinite) : Rounds (x - y) (toReal x - toReal y) := by
  have h := (parts hx).add (parts hy).neg
  rw [← unpacked_sub, ← sub_eq_add_neg] at h
  exact h.rounds

/-- The opposite of a double. -/
theorem toReal_neg (hx : x.isFinite) : (-x).isFinite ∧ toReal (-x) = -toReal x :=
  (parts hx).neg.pack

/-- A product has digits enough to be rounded. -/
lemma le_lastExponent_mul (hm : Canonical m e) (hn : Canonical n f) :
    e + f ≤ lastExponent (m * n) (e + f) := by
  have hpos := Nat.mul_pos hm.pos hn.pos
  -- One factor with 53 digits is enough. Without one both exponents are the lowest, and so is
  -- their sum.
  have hlog : 2 ^ 52 ≤ m ∨ 2 ^ 52 ≤ n → 52 ≤ (m * n).log2 := by
    intro h
    rw [Nat.le_log2 hpos.ne']
    exact h.elim (fun h => h.trans (Nat.le_mul_of_pos_right m hn.pos))
      fun h => h.trans (Nat.le_mul_of_pos_left n hm.pos)
  have hmin : e = -1074 → f = -1074 → e + f ≤ -1074 := by omega
  simp only [lastExponent]
  obtain h | h := hm.normal
  · have := hlog (.inl h)
    omega
  · obtain h' | h' := hn.normal
    · have := hlog (.inr h')
      omega
    · have := hmin h h'
      omega

/-- The product of two numbers is rounded. -/
lemma Parts.mul {v : UnpackedFloat} {q : ℝ} (hu : Parts u r) (hv : Parts v q) :
    Rounded (UnpackedFloat.mul Format.binary64 u v) (r * q) := by
  cases hu with
  | zero s =>
    rw [zero_mul]
    cases hv <;> exact rounded_zero
  | @finite s m e _ h he =>
    cases hv with
    | zero t =>
      rw [mul_zero]
      exact rounded_zero
    | @finite t n f _ h' he' =>
      have hvalue : (m * 2 ^ e : ℝ) * (n * 2 ^ f) = ((m * n : ℕ) : ℝ) * 2 ^ (e + f) := by
        rw [zpow_add₀ (by norm_num)]
        push_cast
        ring
      rw [← withSignOf_mul, hvalue]
      exact rounded_roundWithAccuracy represents_exact (le_lastExponent_mul h h')

/-- The product of two doubles. -/
theorem rounds_mul (hx : x.isFinite) (hy : y.isFinite) : Rounds (x * y) (toReal x * toReal y) :=
  ((parts hx).mul (parts hy)).rounds

/-- A mantissa and what is left after it, compared to a half. -/
lemma represents_inexact {o : Ordering} {d : ℝ} (h : o.Compares d (1 / 2)) (h0 : 0 < d) (h1 : d < 1) :
    Represents (.ofMantissaAndAccuracy m (.inexact o)) (m + d) := by
  cases o with
  | lt => exact ⟨d, by simp [ExtendedMantissa.ofMantissaAndAccuracy], h0.le, h,
      by simp [ExtendedMantissa.ofMantissaAndAccuracy, h0.ne']⟩
  | eq =>
    obtain rfl : d = 1 / 2 := h
    exact ⟨0, by simp [ExtendedMantissa.ofMantissaAndAccuracy], le_refl _, by norm_num,
      by simp [ExtendedMantissa.ofMantissaAndAccuracy]⟩
  | gt =>
    have h : 1 / 2 < d := h
    have hne : d - 1 / 2 ≠ 0 := by linarith
    exact ⟨d - 1 / 2, by simp [ExtendedMantissa.ofMantissaAndAccuracy], by linarith, by linarith,
      by simpa [ExtendedMantissa.ofMantissaAndAccuracy] using hne⟩

/-- The digits of a quotient and what is left of it. -/
lemma represents_div (hn : 0 < n) :
    Represents (.ofMantissaAndAccuracy (m / n) (accuracyOfFraction (m % n) n)) (m / n : ℝ) := by
  have hn' : (0 : ℝ) < n := Nat.cast_pos.2 hn
  have hmod : m % n < n := Nat.mod_lt m hn
  have hvalue : (m / n : ℝ) = ((m / n : ℕ) : ℝ) + ((m % n : ℕ) : ℝ) / n := by
    have : (m : ℝ) = n * (m / n : ℕ) + (m % n : ℕ) := by exact_mod_cast (Nat.div_add_mod m n).symm
    rw [div_eq_iff hn'.ne', add_mul, div_mul_cancel₀ _ hn'.ne']
    linarith
  rw [hvalue]
  generalize m % n = k at hmod
  rw [accuracyOfFraction]
  split
  · rename_i h0
    rw [h0, Nat.cast_zero, zero_div, add_zero]
    exact represents_exact
  · rename_i h0
    have hk0 : (0 : ℝ) < k := Nat.cast_pos.2 (Nat.pos_of_ne_zero h0)
    refine represents_inexact ?_ (div_pos hk0 hn') ((div_lt_one hn').2 (Nat.cast_lt.2 hmod))
    obtain h | h | h := lt_trichotomy (2 * k) n
    · rw [Nat.compare_eq_lt.2 h]
      have h : (2 * k : ℝ) < n := by exact_mod_cast h
      show (k / n : ℝ) < 1 / 2
      rw [div_lt_div_iff₀ hn' (by norm_num)]
      linarith
    · rw [Nat.compare_eq_eq.2 h]
      have h : (2 * k : ℝ) = n := by exact_mod_cast h
      show (k / n : ℝ) = 1 / 2
      rw [div_eq_div_iff hn'.ne' (by norm_num)]
      linarith
    · rw [Nat.compare_eq_gt.2 h]
      have h : (n : ℝ) < 2 * k := by exact_mod_cast h
      show 1 / 2 < (k / n : ℝ)
      rw [div_lt_div_iff₀ (by norm_num) hn']
      linarith

/-- A mantissa of at least 53 digits has digits enough to be rounded. -/
lemma le_lastExponent (h : g ≤ -1074 ∨ 2 ^ 52 ≤ m) : g ≤ lastExponent m g := by
  simp only [lastExponent]
  obtain h | h := h
  · omega
  · have : 52 ≤ m.log2 := (Nat.le_log2 (by omega)).2 h
    omega

/-- A quotient has digits enough to be rounded. -/
lemma le_lastExponent_div (hm : 0 < m) (hn : 0 < n) (hk : e - f = g + k)
    (hg : g ≤ Format.binary64.targetExponent (totalExponent m e - totalExponent n f)) :
    g ≤ lastExponent ((m <<< k) / n) g := by
  refine le_lastExponent (or_iff_not_imp_left.2 fun hlow => ?_)
  have hg : g ≤ m.log2 + 1 + e - (n.log2 + 1 + f) - 53 := by
    obtain h | h := le_max_iff.1 hg
    · exact h
    · exact absurd h hlow
  rw [Nat.le_div_iff_mul_le hn, Nat.shiftLeft_eq]
  calc 2 ^ 52 * n ≤ 2 ^ 52 * 2 ^ (n.log2 + 1) := Nat.mul_le_mul_left _ Nat.lt_log2_self.le
    _ = 2 ^ (52 + (n.log2 + 1)) := (pow_add _ _ _).symm
    _ ≤ 2 ^ (m.log2 + k) := Nat.pow_le_pow_right (by decide) (by omega)
    _ = 2 ^ m.log2 * 2 ^ k := pow_add _ _ _
    _ ≤ m * 2 ^ k := Nat.mul_le_mul_right _ (Nat.log2_self_le hm.ne')

/-- The quotient of two numbers is rounded, unless the divisor is zero. -/
lemma Parts.div {v : UnpackedFloat} {q : ℝ} (hu : Parts u r) (hv : Parts v q) (hq : q ≠ 0) :
    Rounded (UnpackedFloat.div Format.binary64 u v) (r / q) := by
  cases hv with
  | zero t => exact absurd rfl hq
  | @finite t n f hn h' he' =>
    cases hu with
    | zero s =>
      rw [zero_div]
      exact rounded_zero
    | @finite s m e hm h he =>
      obtain ⟨g, hg⟩ : ∃ g, min (e - f) (Format.binary64.targetExponent
        (totalExponent m e - totalExponent n f)) = g := ⟨_, rfl⟩
      obtain ⟨k, hk⟩ : ∃ k : ℕ, e - f = g + k := ⟨(e - f - g).toNat, by omega⟩
      have hshift : (e - f - g).toNat = k := by omega
      have hvalue : (m * 2 ^ e : ℝ) / (n * 2 ^ f) = ((m <<< k : ℕ) / n : ℝ) * 2 ^ g := by
        rw [Nat.shiftLeft_eq, mul_div_mul_comm, ← zpow_sub₀ (by norm_num), hk,
          zpow_add₀ (by norm_num), zpow_natCast]
        push_cast
        ring
      rw [← withSignOf_div, hvalue]
      simp only [UnpackedFloat.div, divCore, hg, hshift]
      exact rounded_roundWithAccuracy (represents_div hn)
        (le_lastExponent_div hm hn hk (hg ▸ min_le_right _ _))

/-- The quotient of two doubles. -/
theorem rounds_div (hx : x.isFinite) (hy : y.isFinite) (h0 : toReal y ≠ 0) :
    Rounds (x / y) (toReal x / toReal y) :=
  ((parts hx).div (parts hy) h0).rounds

/-- The digits of a square root and what is left of it. -/
lemma represents_sqrt (m : ℕ) :
    Represents (.ofMantissaAndAccuracy m.sqrt (if m - m.sqrt * m.sqrt = 0 then .exact
      else .inexact (if m - m.sqrt * m.sqrt ≤ m.sqrt then .lt else .gt))) √m := by
  have hle : m.sqrt * m.sqrt ≤ m := Nat.sqrt_le m
  have hlt : m < (m.sqrt + 1) * (m.sqrt + 1) := Nat.lt_succ_sqrt m
  generalize m.sqrt = n at *
  have hle' : (n * n : ℝ) ≤ m := by exact_mod_cast hle
  have hlt' : (m : ℝ) < (n + 1) * (n + 1) := by exact_mod_cast hlt
  split
  · have hm : m = n * n := by omega
    rw [hm, Nat.cast_mul, Real.sqrt_mul_self n.cast_nonneg]
    exact represents_exact
  · rename_i h0
    have hpos : (n * n : ℝ) < m := by
      have : n * n < m := by omega
      exact_mod_cast this
    have hroot : √m = n + (√m - n) := by ring
    rw [hroot]
    refine represents_inexact ?_ (sub_pos.2 (Real.lt_sqrt_of_sq_lt (by rwa [sq]))) ?_
    · split
      · rename_i h
        have h : (m : ℝ) ≤ n * n + n := by
          have : m ≤ n * n + n := by omega
          exact_mod_cast this
        show √m - n < 1 / 2
        rw [sub_lt_iff_lt_add, Real.sqrt_lt' (by positivity)]
        nlinarith
      · rename_i h
        have h : (n * n + n + 1 : ℝ) ≤ m := by
          have : n * n + n + 1 ≤ m := by omega
          exact_mod_cast this
        show 1 / 2 < √m - n
        rw [lt_sub_iff_add_lt]
        refine Real.lt_sqrt_of_sq_lt ?_
        nlinarith
    · rw [sub_lt_iff_lt_add, Real.sqrt_lt' (by positivity)]
      nlinarith

/-- A square root has digits enough to be rounded. -/
lemma le_lastExponent_sqrt (hm : 0 < m) (hk : e = 2 * g + k)
    (hg : g ≤ Format.binary64.targetExponent ((totalExponent m e + 1).ediv 2)) :
    g ≤ lastExponent (m <<< k).sqrt g := by
  refine le_lastExponent (or_iff_not_imp_left.2 fun hlow => ?_)
  have hg : g ≤ (m.log2 + 1 + e + 1) / 2 - 53 := by
    obtain h | h := le_max_iff.1 hg
    · exact h
    · exact absurd h hlow
  rw [Nat.le_sqrt, Nat.shiftLeft_eq, ← pow_add]
  calc 2 ^ (52 + 52) ≤ 2 ^ (m.log2 + k) := Nat.pow_le_pow_right (by decide) (by omega)
    _ = 2 ^ m.log2 * 2 ^ k := pow_add _ _ _
    _ ≤ m * 2 ^ k := Nat.mul_le_mul_right _ (Nat.log2_self_le hm.ne')

/-- The square root of a number is rounded, unless the number is negative. -/
lemma Parts.sqrt (hu : Parts u r) (hr : 0 ≤ r) : Rounded (UnpackedFloat.sqrt Format.binary64 u) √r := by
  cases hu with
  | zero s =>
    rw [Real.sqrt_zero]
    exact rounded_zero
  | @finite s m e hm h he =>
    cases s with
    | negative =>
      have hpos : (0 : ℝ) < m * 2 ^ e := mul_pos (Nat.cast_pos.2 hm) (by positivity)
      have hr : (0 : ℝ) ≤ -(m * 2 ^ e) := hr
      linarith
    | positive =>
      obtain ⟨g, hg⟩ : ∃ g, min (e.ediv 2) (Format.binary64.targetExponent
        ((totalExponent m e + 1).ediv 2)) = g := ⟨_, rfl⟩
      have hhalf : g ≤ e / 2 := hg ▸ min_le_left _ _
      obtain ⟨k, hk⟩ : ∃ k : ℕ, e = 2 * g + k := ⟨(e - 2 * g).toNat, by omega⟩
      have hshift : (e - 2 * g).toNat = k := by omega
      have hvalue : √(m * 2 ^ e : ℝ) = √((m <<< k : ℕ) : ℝ) * 2 ^ g := by
        have hsquare : (m * 2 ^ e : ℝ) = ((m <<< k : ℕ) : ℝ) * (2 ^ g * 2 ^ g) := by
          rw [Nat.shiftLeft_eq, hk, zpow_add₀ (by norm_num), zpow_natCast, two_mul,
            zpow_add₀ (by norm_num)]
          push_cast
          ring
        rw [hsquare, Real.sqrt_mul (Nat.cast_nonneg _), Real.sqrt_mul_self (by positivity)]
      show Rounded _ √(m * 2 ^ e)
      rw [hvalue]
      simp only [UnpackedFloat.sqrt, sqrtCore, hg, hshift]
      exact rounded_roundWithAccuracy (s := .positive) (represents_sqrt _)
        (le_lastExponent_sqrt hm hk (hg ▸ min_le_right _ _))

/-- The square root of a double. -/
theorem rounds_sqrt (hx : x.isFinite) (h0 : 0 ≤ toReal x) : Rounds x.sqrt √(toReal x) :=
  ((parts hx).sqrt h0).rounds

/-- The roundoff is small. -/
lemma roundoff_le : roundoff ≤ 1 / 1000 := by
  rw [roundoff]
  norm_num

/-- The underflow is less than the roundoff. -/
lemma underflow_le_roundoff : underflow ≤ roundoff :=
  zpow_le_zpow_right₀ one_le_two (by decide)

/-- No finite double is beyond a power of two. -/
lemma Parts.abs_le (h : Parts u r) : |r| ≤ 2 ^ 1024 := by
  cases h with
  | zero s =>
    rw [abs_zero]
    positivity
  | @finite s m e hm h he =>
    have hm : (m : ℝ) ≤ 2 ^ 53 := by exact_mod_cast h.lt.le
    have he : (2 : ℝ) ^ e ≤ 2 ^ 971 := by exact_mod_cast zpow_le_zpow_right₀ (one_le_two (α := ℝ)) he
    rw [abs_withSignOf, abs_of_nonneg (by positivity)]
    calc (m : ℝ) * 2 ^ e ≤ 2 ^ 53 * 2 ^ 971 := mul_le_mul hm he (by positivity) (by positivity)
      _ = 2 ^ 1024 := by rw [← pow_add]

/-- That a double is finite and no larger than a power of two. -/
structure Bounded (x : Float) (k : ℕ) : Prop where
  isFinite : x.isFinite
  le : |toReal x| ≤ 2 ^ k

namespace Bounded

variable {j k : ℕ}

/-- A bounded double is bounded by any larger power of two. -/
lemma mono (h : Bounded x j) (hjk : j ≤ k) : Bounded x k :=
  ⟨h.isFinite, h.le.trans (pow_le_pow_right₀ one_le_two hjk)⟩

/-- No finite double is beyond all doubles. -/
lemma of_isFinite (hx : x.isFinite) : Bounded x 1024 := ⟨hx, (parts hx).abs_le⟩

/-- Rounding at most doubles what is not too small. -/
lemma of_rounds (h : Rounds x r) (hr : |r| ≤ 2 ^ k) (hk : k < 1023) : Bounded x (k + 1) := by
  have hx : x.isFinite := h.isFinite (hr.trans_lt (pow_lt_pow_right₀ one_lt_two hk))
  refine ⟨hx, ?_⟩
  have hone : (1 : ℝ) ≤ 2 ^ k := one_le_pow₀ one_le_two
  have herror : roundoff * |r| + underflow ≤ 2 ^ k := by
    have := roundoff_le
    have := underflow_le_roundoff
    nlinarith [abs_nonneg r]
  calc |toReal x| = |toReal x - r + r| := by rw [sub_add_cancel]
    _ ≤ |toReal x - r| + |r| := abs_add_le _ _
    _ ≤ 2 ^ k + 2 ^ k := add_le_add ((h.near hx).trans herror) hr
    _ = 2 ^ (k + 1) := by ring

/-- The negative of a bounded double is bounded. -/
lemma neg (hx : Bounded x k) : Bounded (-x) k := by
  obtain ⟨hfinite, hvalue⟩ := toReal_neg hx.isFinite
  exact ⟨hfinite, by rw [hvalue, abs_neg]; exact hx.le⟩

/-- The sum of bounded doubles is bounded. -/
lemma add (hx : Bounded x k) (hy : Bounded y k) (hk : k + 1 < 1023) : Bounded (x + y) (k + 2) := by
  refine of_rounds (rounds_add hx.isFinite hy.isFinite) ?_ hk
  calc |toReal x + toReal y| ≤ |toReal x| + |toReal y| := abs_add_le _ _
    _ ≤ 2 ^ k + 2 ^ k := add_le_add hx.le hy.le
    _ = 2 ^ (k + 1) := by ring

/-- The difference of bounded doubles is bounded. -/
lemma sub (hx : Bounded x k) (hy : Bounded y k) (hk : k + 1 < 1023) : Bounded (x - y) (k + 2) := by
  refine of_rounds (rounds_sub hx.isFinite hy.isFinite) ?_ hk
  calc |toReal x - toReal y| ≤ |toReal x| + |toReal y| := abs_sub _ _
    _ ≤ 2 ^ k + 2 ^ k := add_le_add hx.le hy.le
    _ = 2 ^ (k + 1) := by ring

/-- The product of bounded doubles is bounded. -/
lemma mul (hx : Bounded x j) (hy : Bounded y k) (hjk : j + k < 1023) :
    Bounded (x * y) (j + k + 1) := by
  refine of_rounds (rounds_mul hx.isFinite hy.isFinite) ?_ hjk
  rw [abs_mul, pow_add]
  exact mul_le_mul hx.le hy.le (abs_nonneg _) (by positivity)

/-- The square root of a bounded double is bounded. -/
lemma sqrt (hx : Bounded x (2 * k)) (h0 : 0 ≤ toReal x) (hk : k < 1023) : Bounded x.sqrt (k + 1) := by
  refine of_rounds (rounds_sqrt hx.isFinite h0) ?_ hk
  rw [abs_of_nonneg (Real.sqrt_nonneg _), Real.sqrt_le_left (by positivity), ← pow_mul, Nat.mul_comm]
  exact (le_abs_self _).trans hx.le

end Bounded

/-- A double whose exact value is known. -/
lemma bounded_of_exactValue? {q : ℚ} {k : ℕ} (hx : x.isFinite) (h : exactValue? x = some q)
    (hq : |(q : ℝ)| ≤ 2 ^ k) : Bounded x k ∧ toReal x = q := by
  have hvalue := toReal_of_exactValue? h
  exact ⟨⟨hx, by rwa [hvalue]⟩, hvalue⟩

/-- Zero is a bounded double. -/
lemma bounded_floatOfRat_zero : Bounded (floatOfRat 0) 0 ∧ toReal (floatOfRat 0) = 0 := by
  simpa using bounded_of_exactValue? (q := 0) (k := 0) (x := floatOfRat 0)
    (by decide +kernel) (by decide +kernel) (by norm_num)

/-- Two is a bounded double. -/
lemma bounded_floatOfRat_two : Bounded (floatOfRat 2) 1 ∧ toReal (floatOfRat 2) = 2 := by
  simpa using bounded_of_exactValue? (q := 2) (k := 1) (x := floatOfRat 2)
    (by decide +kernel) (by decide +kernel) (by norm_num)

/-- Four is a bounded double. -/
lemma bounded_floatOfRat_four : Bounded (floatOfRat 4) 2 ∧ toReal (floatOfRat 4) = 4 := by
  simpa using bounded_of_exactValue? (q := 4) (k := 2) (x := floatOfRat 4)
    (by decide +kernel) (by decide +kernel) (by norm_num)

end Formulary.Number
