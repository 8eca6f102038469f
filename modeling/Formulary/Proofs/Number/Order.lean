import Formulary.Proofs.Number.Operations

/-!
# The order of doubles

Finite doubles are compared as the numbers that they denote (`lt_iff`, `le_iff`, `beq_iff`).
Since no double lies between a number and the one that it is rounded to, the middle of an interval is
in the interval (`toReal_middle_ordered`).
-/

namespace Formulary.Number

open Float.Model.UnpackedFloat
open Float.Model (UnpackedFloat Format)

variable {x y z : Float} {s t : Sign} {m n : ℕ} {e f : ℤ} {u v : UnpackedFloat} {r q : ℝ}

/-- Doubles with the same sign are compared by their exponents first. -/
lemma Canonical.compare_eq (hm : Canonical m e) (hn : Canonical n f) :
    (compare e f).then (compare m n) = cmp ((m : ℝ) * 2 ^ e) (n * 2 ^ f) := by
  -- Canonical parts are ordered lexicographically: the exponent decides, since a larger one comes
  -- with a mantissa of 53 digits.
  have hsmaller : ∀ {k l : ℕ} {g h : ℤ}, Canonical k g → Canonical l h → g < h →
      (k : ℝ) * 2 ^ g < l * 2 ^ h := by
    intro k l g h hk hl hgh
    have hbig : (2 : ℝ) ^ 52 ≤ l := by
      exact_mod_cast hl.normal.resolve_right (by have := hk.low; omega)
    exact (hk.lt_of_lt hgh).trans_le (by gcongr)
  obtain h | rfl | h := lt_trichotomy e f
  · rw [Int.compare_eq_lt.2 h, (hsmaller hm hn h).cmp_eq_lt]
    rfl
  · have hpos : (0 : ℝ) < 2 ^ e := by positivity
    rw [Int.compare_eq_eq.2 rfl, cmp_mul_pos_right hpos]
    obtain h | rfl | h := lt_trichotomy m n
    · rw [Nat.compare_eq_lt.2 h, (Nat.cast_lt.2 h).cmp_eq_lt]
      rfl
    · rw [Nat.compare_eq_eq.2 rfl, cmp_self_eq_eq]
      rfl
    · rw [Nat.compare_eq_gt.2 h, (Nat.cast_lt.2 h).cmp_eq_gt]
      rfl
  · rw [Int.compare_eq_gt.2 h, (hsmaller hn hm h).cmp_eq_gt]
    rfl

/-- Finite doubles are compared as the numbers that they denote. -/
lemma Parts.compare_eq (hu : Parts u r) (hv : Parts v q) : u.compare v = some (cmp r q) := by
  have hpos : ∀ {m : ℕ} {e : ℤ}, Canonical m e → (0 : ℝ) < m * 2 ^ e := fun h =>
    mul_pos (Nat.cast_pos.2 h.pos) (by positivity)
  cases hu with
  | zero s =>
    cases hv with
    | zero t => simp [UnpackedFloat.compare]
    | @finite t n f hn h' he' =>
      have := hpos h'
      cases t
      · rw [show withSignOf .negative (n * 2 ^ f : ℝ) = -(n * 2 ^ f) from rfl,
          (neg_neg_of_pos this).cmp_eq_gt]
        rfl
      · rw [show withSignOf .positive (n * 2 ^ f : ℝ) = n * 2 ^ f from rfl, this.cmp_eq_lt]
        rfl
  | @finite s m e hm h he =>
    have hx := hpos h
    cases hv with
    | zero t =>
      cases s
      · rw [show withSignOf .negative (m * 2 ^ e : ℝ) = -(m * 2 ^ e) from rfl,
          (neg_neg_of_pos hx).cmp_eq_lt]
        rfl
      · rw [show withSignOf .positive (m * 2 ^ e : ℝ) = m * 2 ^ e from rfl, hx.cmp_eq_gt]
        rfl
    | @finite t n f hn h' he' =>
      have hy := hpos h'
      cases s <;> cases t
      · -- two negative numbers are compared the other way round
        show some ((compare e f).then (compare m n)).swap = some (cmp (-(m * 2 ^ e : ℝ)) (-(n * 2 ^ f)))
        have hanti : StrictAnti fun a : ℝ => -a := fun _ _ => neg_lt_neg
        rw [h.compare_eq h', cmp_swap, hanti.cmp_map_eq]
      · show some Ordering.lt = some (cmp (-(m * 2 ^ e : ℝ)) (n * 2 ^ f))
        rw [((neg_neg_of_pos hx).trans hy).cmp_eq_lt]
      · show some Ordering.gt = some (cmp (m * 2 ^ e : ℝ) (-(n * 2 ^ f)))
        rw [((neg_neg_of_pos hy).trans hx).cmp_eq_gt]
      · show some ((compare e f).then (compare m n)) = some (cmp (m * 2 ^ e : ℝ) (n * 2 ^ f))
        rw [h.compare_eq h']

/-- Finite doubles are less as the numbers are that they denote. -/
theorem lt_iff (hx : x.isFinite) (hy : y.isFinite) : x < y ↔ toReal x < toReal y := by
  have h := (parts hx).compare_eq (parts hy)
  rw [← cmp_eq_lt_iff]
  show decide ((x.toModel.unpack.compare y.toModel.unpack == some .lt) = true) = true ↔ _
  simp [h]

/-- Finite doubles are at most as large as the numbers are that they denote. -/
theorem le_iff (hx : x.isFinite) (hy : y.isFinite) : x ≤ y ↔ toReal x ≤ toReal y := by
  have h := (parts hx).compare_eq (parts hy)
  rw [← not_lt, ← cmp_eq_gt_iff]
  show decide ((x.toModel.unpack.compare y.toModel.unpack).any (·.isLE) = true) = true ↔ _
  rw [h]
  cases cmp (toReal x) (toReal y) <;> simp

/-- Finite doubles are equal as the numbers are that they denote. -/
theorem beq_iff (hx : x.isFinite) (hy : y.isFinite) : x == y ↔ toReal x = toReal y := by
  have h := (parts hx).compare_eq (parts hy)
  rw [← cmp_eq_eq_iff (toReal x)]
  show (x.toModel.unpack.compare y.toModel.unpack == some .eq) = true ↔ _
  simp [h]

/-- The parts of a number without its sign. -/
lemma Parts.abs (h : Parts u r) : Parts u.abs |r| := by
  cases h with
  | zero s =>
    rw [abs_zero]
    exact .zero .positive
  | @finite s m e hm h he =>
    rw [abs_withSignOf, abs_of_nonneg (by positivity)]
    exact .finite (s := .positive) h he

/-- The magnitude of a double is exact. -/
theorem toReal_abs (hx : x.isFinite) : x.abs.isFinite ∧ toReal x.abs = |toReal x| :=
  (parts hx).abs.pack

/-! ### Operations with a finite result -/

/-- A double that is finite is packed from finite parts. -/
lemma isFinite_pack (h : (⟨Float.Model.pack u⟩ : Float).isFinite) : u.isFinite := by
  cases u with
  | notANumber => exact absurd h (by decide +kernel)
  | infinity s => cases s <;> exact absurd h (by decide +kernel)
  | zero s | finite s m e hm => rfl

/-- Doubles with a finite sum are finite. -/
lemma isFinite_of_add (h : (x + y).isFinite) : x.isFinite ∧ y.isFinite := by
  have h := isFinite_pack h
  show x.toModel.unpack.isFinite = true ∧ y.toModel.unpack.isFinite = true
  generalize x.toModel.unpack = u at h ⊢
  generalize y.toModel.unpack = v at h ⊢
  cases u with
  | notANumber => cases h
  | infinity s =>
    cases v with
    | infinity t => cases s <;> cases t <;> cases h
    | _ => cases h
  | _ =>
    cases v with
    | notANumber | infinity t => cases h
    | _ => exact ⟨rfl, rfl⟩

/-- A double with a finite quotient by a finite number is finite. -/
lemma isFinite_of_div (h : (x / y).isFinite) (hy : y.isFinite) : x.isFinite := by
  have h := isFinite_pack h
  have hy : y.toModel.unpack.isFinite = true := hy
  show x.toModel.unpack.isFinite = true
  generalize x.toModel.unpack = u at h ⊢
  generalize y.toModel.unpack = v at h hy
  cases u with
  | notANumber => cases h
  | infinity s =>
    cases v with
    | notANumber | infinity t => cases hy
    | _ => cases h
  | _ => rfl

/-! ### What a comparison says -/

/-- Without its sign, a double that is not finite is no number or infinite. -/
lemma unpack_pack_abs (h : x.isFinite = false) :
    x.abs.toModel.unpack = .notANumber ∨ x.abs.toModel.unpack = .infinity .positive := by
  show (Float.Model.pack x.toModel.unpack.abs).unpack = _ ∨
    (Float.Model.pack x.toModel.unpack.abs).unpack = _
  have h : x.toModel.unpack.isFinite = false := h
  cases hu : x.toModel.unpack with
  | notANumber => exact .inl rfl
  | infinity s =>
    have hinfinity : (Float.Model.pack (.infinity .positive)).unpack = .infinity .positive := rfl
    exact .inr hinfinity
  | zero s | finite s m e hm =>
    rw [hu] at h
    cases h

/-- What has a magnitude less than something is finite. -/
lemma isFinite_of_abs_lt (h : x.abs < z) : x.isFinite := by
  have hlt : decide ((x.abs.toModel.unpack.compare z.toModel.unpack == some .lt) = true) = true := h
  -- What is not finite has a magnitude of nan or infinity, and neither is less than anything.
  by_contra hx
  obtain hu | hu := unpack_pack_abs (Bool.eq_false_iff.2 hx) <;> rw [hu] at hlt
  · cases hlt
  · cases hv : z.toModel.unpack with
    | infinity s => rw [hv] at hlt; cases s <;> cases hlt
    | _ => rw [hv] at hlt; cases hlt

/-- A factor of a product that can be compared is a number. -/
lemma not_isNaN_of_mul (h : ¬ (x * y).isNaN) : ¬ y.isNaN := by
  intro hy
  refine h ?_
  have hy : y.toModel.unpack.isNaN = true := hy
  show (Float.Model.pack
    (UnpackedFloat.mul Format.binary64 x.toModel.unpack y.toModel.unpack)).unpack.isNaN = true
  cases hv : y.toModel.unpack with
  | notANumber =>
    have hmul : UnpackedFloat.mul Format.binary64 x.toModel.unpack .notANumber = .notANumber := by
      cases x.toModel.unpack <;> rfl
    rw [hmul]
    decide +kernel
  | _ => rw [hv] at hy; cases hy

/-- Only numbers are compared. -/
lemma not_isNaN_of_compare {o : Ordering}
    (h : x.toModel.unpack.compare z.toModel.unpack = some o) : ¬ x.isNaN := by
  intro hx
  have hx : x.toModel.unpack.isNaN = true := hx
  cases hu : x.toModel.unpack with
  | notANumber => rw [hu] at h; cases h
  | _ => rw [hu] at hx; cases hx

/-- What is less than something is a number. -/
lemma not_isNaN_of_lt (h : x < z) : ¬ x.isNaN := by
  have hlt : decide ((x.toModel.unpack.compare z.toModel.unpack == some .lt) = true) = true := h
  exact not_isNaN_of_compare (o := .lt) (by simpa using hlt)

/-- What is at most as large as something is a number. -/
lemma not_isNaN_of_le (h : x ≤ z) : ¬ x.isNaN := by
  have hle : decide ((x.toModel.unpack.compare z.toModel.unpack).any (·.isLE) = true) = true := h
  cases hc : x.toModel.unpack.compare z.toModel.unpack with
  | none => rw [hc] at hle; cases hle
  | some o => exact not_isNaN_of_compare hc

/-! ### The middle of an interval -/

/-- Parts denote a number with the digits of a double. -/
lemma Parts.isDouble (h : Parts u r) : IsDouble r := by
  cases h with
  | zero s => exact ⟨0, 0, by simp, .inl rfl⟩
  | @finite s m e hm h he =>
    exact ⟨m, e, by rw [abs_withSignOf, abs_of_nonneg (by positivity)], .inr h⟩

/-- A finite double denotes a number with the digits of a double. -/
lemma isDouble_toReal (hx : x.isFinite) : IsDouble (toReal x) := (parts hx).isDouble

/-- Twice a double is a double, unless it is too large. -/
lemma IsDouble.two_mul (h : IsDouble q) : IsDouble (2 * q) := by
  obtain ⟨m, e, hq, rfl | hm⟩ := h
  · exact ⟨0, e, by simp_all, .inl rfl⟩
  · have habs : |2 * q| = 2 * |q| := by rw [abs_mul, abs_of_pos two_pos]
    by_cases hsmall : 2 ^ 52 ≤ m
    · refine ⟨m, e + 1, ?_, .inr ⟨hm.pos, hm.lt, by have := hm.low; omega, .inl hsmall⟩⟩
      rw [habs, hq, zpow_add_one₀ (by norm_num)]
      ring
    · have := hm.pos
      refine ⟨2 * m, e, ?_, .inr ⟨by omega, by omega, hm.low, .inr (hm.normal.resolve_left hsmall)⟩⟩
      rw [habs, hq]
      push_cast
      ring

/-- What lies beside both ends of an interval lies beside its middle. -/
theorem toReal_middle_ordered (h : ((x + y) / floatOfRat 2).isFinite) (hq : IsDouble q) :
    (q ≤ toReal x → q ≤ toReal y → q ≤ toReal ((x + y) / floatOfRat 2)) ∧
      (toReal x ≤ q → toReal y ≤ q → toReal ((x + y) / floatOfRat 2) ≤ q) := by
  obtain ⟨htwo, hvalue⟩ := bounded_floatOfRat_two
  have hsum : (x + y).isFinite := isFinite_of_div h htwo.isFinite
  obtain ⟨hx, hy⟩ := isFinite_of_add hsum
  -- The bound `q` for the ends is one of `2 * q` for their sum; both are doubles, so neither
  -- rounding crosses them.
  have hadd := (rounds_add hx hy).ordered hsum _ hq.two_mul
  have hdiv := (rounds_div hsum htwo.isFinite (by rw [hvalue]; norm_num)).ordered h _ hq
  rw [hvalue] at hdiv
  constructor
  · intro hqx hqy
    have := hadd.1 (by linarith)
    exact hdiv.1 (by linarith)
  · intro hqx hqy
    have := hadd.2 (by linarith)
    exact hdiv.2 (by linarith)

end Formulary.Number
