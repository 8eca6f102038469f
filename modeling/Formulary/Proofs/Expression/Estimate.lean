import Formulary.Numeric.Residual
import Formulary.Proofs.Expression.Arithmetic
import Formulary.Proofs.Number.Conversion
import Formulary.Proofs.Number.Order

/-!
# Estimated values

Sums, differences, products and quotients of doubles are rounded, so what an expression evaluates to
is not what it denotes. An `Estimate` says what it denotes exactly and how far off the evaluation may
be; `Expression.estimate?` works it out from the operands, one rounding for each operation. Whatever
else an expression is made of counts as it is evaluated. An estimate holds of the double that the
expression evaluates to (`Expression.value_of_estimate`), and so of the value of a residual.
-/

namespace Formulary

open Number

/-- An exact number, and how far what is computed for it may be from it. -/
structure Estimate where
  value : ℚ
  error : ℚ

namespace Estimate

/-- That a number is as near to the exact one as it is estimated to be. -/
structure Holds (t : Estimate) (q : ℚ) : Prop where
  near : |q - t.value| ≤ t.error

/-- A size that numbers may have without rounding to infinity. -/
def limit : ℚ := 2 ^ 1023

/-- How far rounding moves a number of some size: by a part of it, or by half the least double. -/
def spread (size : ℚ) : ℚ := size / 2 ^ 53 + 1 / 2 ^ 1075

/-- The estimate of a number after rounding, unless the number may be out of range. -/
def rounded? (t : Estimate) : Option Estimate :=
  if |t.value| + t.error < limit then some ⟨t.value, t.error + spread (|t.value| + t.error)⟩
  else none

/-- The estimate of an opposite. -/
def neg (t : Estimate) : Estimate := ⟨-t.value, t.error⟩

/-- The estimate of a sum that is not rounded. -/
def add (s t : Estimate) : Estimate := ⟨s.value + t.value, s.error + t.error⟩

/-- The estimate of a difference that is not rounded. -/
def sub (s t : Estimate) : Estimate := ⟨s.value - t.value, s.error + t.error⟩

/-- The estimate of a product that is not rounded. -/
def mul (s t : Estimate) : Estimate :=
  ⟨s.value * t.value, |s.value| * t.error + |t.value| * s.error + s.error * t.error⟩

/-- The estimate of a quotient that is not rounded, for a divisor that cannot be zero. -/
def div (s t : Estimate) : Estimate :=
  ⟨s.value / t.value, (s.error + |s.value / t.value| * t.error) / (|t.value| - t.error)⟩

/-- How the result of an operator is estimated from those of its operands. -/
def operation? : BinaryOp → Option (Estimate → Estimate → Option Estimate)
  | .add => some fun s t => (s.add t).rounded?
  | .sub => some fun s t => (s.sub t).rounded?
  | .mul => some fun s t => (s.mul t).rounded?
  | .div => some fun s t => if t.error < |t.value| then (s.div t).rounded? else none
  | _ => none

/-- The operators whose results are estimated are operations of arithmetic. -/
lemma isArithmetic_of_operation? {op : BinaryOp} {f : Estimate → Estimate → Option Estimate}
    (h : operation? op = some f) : op.isArithmetic := by
  cases op with
  | add | sub | mul | div => rfl
  | _ => cases h

/-- The estimate of a value that counts as it is; an integer may yet be rounded to a double. -/
def ofValue? : Except EvalError Value → Option Estimate
  | .ok (.scalar (.integer n)) => rounded? ⟨n, 0⟩
  | .ok (.scalar (.real x)) => (exactValue? x).map fun q => ⟨q, 0⟩
  | _ => none

end Estimate

/-- The estimate of an expression in a scope. -/
def Expression.estimate? (scope : Scope) : Expression → Option Estimate
  | .unary .plus e => e.estimate? scope
  | .unary .minus e => (e.estimate? scope).map Estimate.neg
  | .binary op a b =>
    match Estimate.operation? op with
    | some f => do f (← a.estimate? scope) (← b.estimate? scope)
    | none => Estimate.ofValue? (eval scope (.binary op a b))
  | e => Estimate.ofValue? (e.eval scope)

namespace Estimate

variable {s t u : Estimate} {p q r : ℚ} {x : Float} {n : ℤ}

/-! ### Exact operations -/

/-- No number is nearer than the exact one itself. -/
lemma Holds.error_nonneg (h : t.Holds q) : 0 ≤ t.error := (abs_nonneg _).trans h.near

/-- A number is no larger than the exact one and the error together. -/
lemma Holds.abs_le (h : t.Holds q) : |q| ≤ |t.value| + t.error := by
  linarith [abs_sub_abs_le_abs_sub q t.value, h.near]

/-- The opposites are as far from each other. -/
lemma Holds.neg (h : t.Holds q) : t.neg.Holds (-q) := by
  constructor
  rw [Estimate.neg, neg_sub_neg, abs_sub_comm]
  exact h.near

/-- The errors of a sum add up. -/
lemma Holds.add (hs : s.Holds p) (ht : t.Holds q) : (s.add t).Holds (p + q) := by
  constructor
  rw [Estimate.add, add_sub_add_comm]
  exact (abs_add_le _ _).trans (add_le_add hs.near ht.near)

/-- The errors of a difference add up. -/
lemma Holds.sub (hs : s.Holds p) (ht : t.Holds q) : (s.sub t).Holds (p - q) := by
  constructor
  rw [Estimate.sub, sub_sub_sub_comm]
  exact (abs_sub _ _).trans (add_le_add hs.near ht.near)

/-- Each factor of a product multiplies the error of the other one. -/
lemma Holds.mul (hs : s.Holds p) (ht : t.Holds q) : (s.mul t).Holds (p * q) := by
  constructor
  have hsplit : p * q - s.value * t.value =
      s.value * (q - t.value) + t.value * (p - s.value) + (p - s.value) * (q - t.value) := by ring
  rw [Estimate.mul, hsplit]
  refine (abs_add_three _ _ _).trans ?_
  rw [abs_mul, abs_mul, abs_mul]
  exact add_le_add_three (mul_le_mul_of_nonneg_left ht.near (abs_nonneg _))
    (mul_le_mul_of_nonneg_left hs.near (abs_nonneg _))
    (mul_le_mul hs.near ht.near (abs_nonneg _) hs.error_nonneg)

/-- A divisor that is farther from zero than its error is not zero. -/
lemma Holds.ne_zero (ht : t.Holds q) (h0 : t.error < |t.value|) : q ≠ 0 := by
  rintro rfl
  have := ht.near
  rw [zero_sub, abs_neg] at this
  exact absurd this (not_le.2 h0)

/-- The error of a quotient is relative to the least that the divisor may be. -/
lemma Holds.div (hs : s.Holds p) (ht : t.Holds q) (h0 : t.error < |t.value|) :
    (s.div t).Holds (p / q) := by
  constructor
  have hq : q ≠ 0 := ht.ne_zero h0
  have hv : t.value ≠ 0 := by
    intro hv
    rw [hv, abs_zero] at h0
    exact absurd ht.error_nonneg (not_le.2 h0)
  have hlow : |t.value| - t.error ≤ |q| := by
    have := abs_sub_abs_le_abs_sub t.value q
    rw [abs_sub_comm] at this
    linarith [ht.near]
  have hpos : 0 < |t.value| - t.error := sub_pos.2 h0
  have hsplit : (p / q - s.value / t.value) * q =
      (p - s.value) - s.value / t.value * (q - t.value) := by
    field_simp
    ring
  rw [Estimate.div, le_div_iff₀ hpos]
  calc |p / q - s.value / t.value| * (|t.value| - t.error)
      ≤ |p / q - s.value / t.value| * |q| := mul_le_mul_of_nonneg_left hlow (abs_nonneg _)
    _ = |(p - s.value) - s.value / t.value * (q - t.value)| := by rw [← abs_mul, hsplit]
    _ ≤ |p - s.value| + |s.value / t.value| * |q - t.value| := by
        rw [← abs_mul]
        exact abs_sub _ _
    _ ≤ s.error + |s.value / t.value| * t.error :=
        add_le_add hs.near (mul_le_mul_of_nonneg_left ht.near (abs_nonneg _))

/-! ### Rounding -/

/-- The limit of estimates is a power of two. -/
lemma cast_limit : (limit : ℝ) = 2 ^ 1023 := by
  rw [limit, Rat.cast_pow, Rat.cast_ofNat]

/-- The spread of a rounding is the roundoff and the underflow. -/
lemma cast_spread (r : ℚ) : (spread r : ℝ) = roundoff * r + underflow := by
  rw [spread, Rat.cast_add, Rat.cast_div, Rat.cast_div, Rat.cast_pow, Rat.cast_pow, Rat.cast_ofNat,
    Rat.cast_one, roundoff, underflow, zpow_neg, zpow_neg, zpow_ofNat, zpow_ofNat, div_eq_inv_mul,
    one_div]

/-- The limit of estimates is below the greatest double. -/
lemma limit_lt : limit < 2 ^ 1024 - 2 ^ 970 := by decide +kernel

/-- A larger number is moved farther. -/
lemma spread_mono : Monotone spread := fun _ _ h =>
  add_le_add_left (div_le_div_of_nonneg_right h (by positivity)) _

/-- What rounding does to an estimate. -/
lemma rounded?_eq_some : t.rounded? = some u ↔
    |t.value| + t.error < limit ∧ u = ⟨t.value, t.error + spread (|t.value| + t.error)⟩ := by
  rw [rounded?]
  split
  · rename_i h
    simp [h, eq_comm]
  · rename_i h
    simp [h]

/-- Rounding leaves the exact number as it is. -/
lemma rounded?_value (h : t.rounded? = some u) : u.value = t.value := by
  obtain ⟨-, rfl⟩ := rounded?_eq_some.1 h
  rfl

/-- That a number that was computed has the estimate `t`. -/
inductive Computed : Scalar → Estimate → Prop
  /-- an integer is exact, and its estimate leaves room for rounding it to a double -/
  | integer {n : ℤ} {t : Estimate} (hvalue : n = t.value) (hsize : |t.value| < limit)
    (herror : spread |t.value| ≤ t.error) : Computed (.integer n) t
  | real {x : Float} {q : ℚ} {t : Estimate} (hx : exactValue? x = some q) (h : t.Holds q) :
    Computed (.real x) t

/-- A number near to an estimate has its estimate after rounding. -/
lemma Holds.rounded (ht : t.Holds q) (hu : t.rounded? = some u) (hr : |r - q| ≤ spread |q|) :
    u.Holds r := by
  obtain ⟨-, rfl⟩ := rounded?_eq_some.1 hu
  constructor
  calc |r - t.value| ≤ |r - q| + |q - t.value| := abs_sub_le _ _ _
    _ ≤ spread (|t.value| + t.error) + t.error :=
        add_le_add (hr.trans (spread_mono ht.abs_le)) ht.near
    _ = t.error + spread (|t.value| + t.error) := add_comm _ _

/-- A double that a number is rounded to has the estimate of that number, rounded. -/
lemma Computed.of_rounds (hx : Rounds x (q : ℝ)) (ht : t.Holds q) (hu : t.rounded? = some u) :
    Computed (.real x) u := by
  obtain ⟨hsize, -⟩ := rounded?_eq_some.1 hu
  have hq : |(q : ℝ)| < 2 ^ 1023 := by
    rw [← cast_limit]
    exact_mod_cast ht.abs_le.trans_lt hsize
  have hfinite : x.isFinite := hx.isFinite hq
  obtain ⟨negative, m, e, hparts⟩ := ofFloat_of_isFinite hfinite
  have hr := exactValue?_of_finite hparts
  have hnear := hx.near hfinite
  rw [toReal_of_exactValue? hr, ← Rat.cast_abs, ← cast_spread] at hnear
  exact .real hr (ht.rounded hu (by exact_mod_cast hnear))

/-- An integer has its own estimate, rounded. -/
lemma Computed.of_integer (hvalue : n = t.value) (h0 : 0 ≤ t.error) (hu : t.rounded? = some u) :
    Computed (.integer n) u := by
  obtain ⟨hsize, rfl⟩ := rounded?_eq_some.1 hu
  have hle : |t.value| ≤ |t.value| + t.error := le_add_of_nonneg_right h0
  exact .integer hvalue (hle.trans_lt hsize) ((spread_mono hle).trans (le_add_of_nonneg_left h0))

/-- The double nearest to a quotient with a sign. -/
lemma exactValue?_signed (negative : Bool) (num : ℕ) {den : ℕ} (hden : 0 < den)
    (hsize : |signed negative (num / den)| < limit) :
    ∃ q, exactValue? (nearestFloat negative num den) = some q ∧
      |q - signed negative (num / den)| ≤ spread |signed negative (num / den)| := by
  have hnonneg : |(num / den : ℚ)| = num / den :=
    abs_of_nonneg (div_nonneg num.cast_nonneg den.cast_nonneg)
  rw [abs_signed, hnonneg] at hsize ⊢
  obtain ⟨q, hq, hnear⟩ := exactValue?_nearestFloat hden (hsize.trans limit_lt) negative
  refine ⟨q, hq, hnear.trans_eq ?_⟩
  rw [spread, zpow_neg, zpow_ofNat, one_div]

/-- The sign of a quotient of integers. -/
lemma signed_quotient (m n : ℤ) :
    signed (decide (m < 0) != decide (n < 0)) (m.natAbs / n.natAbs) = m / n := by
  have habs : ∀ k : ℤ, (k : ℚ) = if k < 0 then -(k.natAbs : ℚ) else k.natAbs := by
    intro k
    split
    · rename_i hk
      rw [Nat.cast_natAbs, abs_of_neg hk, Int.cast_neg, neg_neg]
    · rename_i hk
      rw [Nat.cast_natAbs, abs_of_nonneg (not_lt.1 hk)]
  rw [habs m, habs n]
  by_cases hm : m < 0 <;> by_cases hn : n < 0 <;> simp [signed, hm, hn, neg_div, div_neg]

/-- A number that was computed, as a double. -/
lemma Computed.toFloat {v : Scalar} (h : Computed v t) :
    ∃ x q, v.toFloat = .ok x ∧ v.isComplex = false ∧ exactValue? x = some q ∧ t.Holds q := by
  cases h with
  | @real x q t hx h => exact ⟨x, q, rfl, rfl, hx, h⟩
  | @integer n t hvalue hsize herror =>
    have hsigned : signed (decide (n < 0)) (n.natAbs / (1 : ℕ)) = t.value := by
      have := signed_quotient n 1
      simpa [hvalue] using this
    obtain ⟨q, hq, hnear⟩ := exactValue?_signed (decide (n < 0)) n.natAbs
      Nat.one_pos (by rwa [hsigned])
    rw [hsigned] at hnear
    refine ⟨_, q, ?_, rfl, hq, ⟨hnear.trans herror⟩⟩
    simp [Scalar.toFloat, floatOfInt?, not_isInf_of_exactValue? hq]

/-! ### Computed operations -/

variable {v w : Scalar} {f : ℚ → ℚ → ℚ}
  {onIntegers : ℤ → ℤ → Except Undefined Scalar} {onReals : Float → Float → Except Undefined Scalar}
  {onComplex : Float × Float → Float × Float → Except Undefined Scalar}

/--
An operation on numbers that were computed is right if it is exact on integers, or else rounded, and
rounded on doubles.
-/
lemma Computed.lift (hv : Computed v s) (hw : Computed w t)
    (honIntegers : ∀ m n : ℤ, m = s.value → n = t.value → s.Holds m → t.Holds n →
      ∃ r, onIntegers m n = .ok r ∧ Computed r u)
    (honReals : ∀ x y p q, exactValue? x = some p → exactValue? y = some q → s.Holds p → t.Holds q →
      ∃ r, onReals x y = .ok r ∧ Computed r u) :
    ∃ r, Scalar.lift onIntegers onReals onComplex v w = .ok r ∧ Computed r u := by
  obtain ⟨x, p, hx, hcomplex, hp, hsp⟩ := hv.toFloat
  obtain ⟨y, q, hy, hcomplex', hq, htq⟩ := hw.toFloat
  have hreals : ∃ r, onReals x y = .ok r ∧ Computed r u := honReals x y p q hp hq hsp htq
  cases hv with
  | real =>
    simpa [Scalar.lift, hx, hy, hcomplex, hcomplex', bind, Except.bind] using hreals
  | @integer m _ hm =>
    cases hw with
    | real => simpa [Scalar.lift, hx, hy, hcomplex, hcomplex', bind, Except.bind] using hreals
    | @integer n _ hn =>
      refine honIntegers m n hm hn ⟨?_⟩ ⟨?_⟩
      · rw [hm, sub_self, abs_zero]
        exact hsp.error_nonneg
      · rw [hn, sub_self, abs_zero]
        exact htq.error_nonneg

/-- The exact values of doubles are the numbers that they denote. -/
lemma rounds_of_exactValue? {y : Float} (hx : exactValue? x = some p) (hy : exactValue? y = some q) :
    Rounds (x + y) ((p + q : ℚ) : ℝ) ∧ Rounds (x - y) ((p - q : ℚ) : ℝ) ∧
      Rounds (x * y) ((p * q : ℚ) : ℝ) ∧ (q ≠ 0 → Rounds (x / y) ((p / q : ℚ) : ℝ)) := by
  have hx' := isFinite_of_exactValue? hx
  have hy' := isFinite_of_exactValue? hy
  simp only [Rat.cast_add, Rat.cast_sub, Rat.cast_mul, Rat.cast_div, ← toReal_of_exactValue? hx,
    ← toReal_of_exactValue? hy]
  refine ⟨rounds_add hx' hy', rounds_sub hx' hy', rounds_mul hx' hy', fun hq => rounds_div hx' hy' ?_⟩
  rw [toReal_of_exactValue? hy]
  exact Rat.cast_ne_zero.2 hq

/-- The quotient of two integers is the nearest double. -/
lemma computed_divIntegers {m n : ℤ} (hs : s.Holds m) (ht : t.Holds n) (hm : m = s.value)
    (hn : n = t.value) (h0 : t.error < |t.value|) (hu : (s.div t).rounded? = some u) :
    ∃ r, Scalar.divIntegers m n = .ok r ∧ Computed r u := by
  have hn0 : n ≠ 0 := Int.cast_ne_zero.1 (ht.ne_zero h0)
  have hquotient := hs.div ht h0
  have hsize : |(m / n : ℚ)| < limit := by
    have := (rounded?_eq_some.1 hu).1
    rw [Estimate.div, ← hm, ← hn] at this
    exact (le_add_of_nonneg_right (by rw [hm, hn]; exact hquotient.error_nonneg)).trans_lt this
  obtain ⟨q, hq, hnear⟩ := exactValue?_signed (decide (m < 0) != decide (n < 0))
    m.natAbs (Int.natAbs_pos.2 hn0) (by rwa [signed_quotient])
  rw [signed_quotient] at hnear
  refine ⟨_, ?_, .real hq (hquotient.rounded hu hnear)⟩
  simp [Scalar.divIntegers, hn0, not_isInf_of_exactValue? hq]

/-- What is computed from two numbers is the result of an operator on them. -/
lemma onScalars_of_computed {f : Scalar → Scalar → Except Undefined Scalar}
    (h : ∃ r, f v w = .ok r ∧ Computed r u) :
    ∃ r, Value.onScalars f (.scalar v) (.scalar w) = .ok (.scalar r) ∧ Computed r u := by
  obtain ⟨r, hr, hcomputed⟩ := h
  exact ⟨r, by simp [Value.onScalars, Value.scalar?, Value.ofScalar, hr], hcomputed⟩

/-- A double that denotes another number is not equal to zero. -/
lemma ne_zero_of_exactValue? (hx : exactValue? x = some q) (hq : q ≠ 0) : ¬ (x == 0) = true := by
  have hzero : exactValue? 0 = some 0 := by decide +kernel
  rw [beq_iff (isFinite_of_exactValue? hx) (isFinite_of_exactValue? hzero), toReal_of_exactValue? hx,
    toReal_of_exactValue? hzero]
  exact_mod_cast hq

/-- The opposite of a double denotes the opposite number. -/
lemma exactValue?_neg (hx : exactValue? x = some q) : exactValue? (-x) = some (-q) := by
  obtain ⟨hfinite, hvalue⟩ := toReal_neg (isFinite_of_exactValue? hx)
  obtain ⟨negative, m, e, hparts⟩ := ofFloat_of_isFinite hfinite
  have hr := exactValue?_of_finite hparts
  rw [toReal_of_exactValue? hr, toReal_of_exactValue? hx] at hvalue
  rw [hr]
  exact congrArg some (by exact_mod_cast hvalue)

/-- The result of an operator on two numbers that were computed has the estimate for it. -/
lemma computed_operation {op : BinaryOp} {f : Estimate → Estimate → Option Estimate}
    (hop : operation? op = some f) (hv : Computed v s) (hw : Computed w t) (hf : f s t = some u) :
    ∃ r, Value.binary op (.scalar v) (.scalar w) = .ok (.scalar r) ∧ Computed r u := by
  cases op with
  | add =>
    cases hop
    refine onScalars_of_computed (hv.lift hw ?_ ?_)
    · intro m n hm hn hs ht
      exact ⟨_, rfl, .of_integer (by rw [Int.cast_add, hm, hn]; rfl) (hs.add ht).error_nonneg hf⟩
    · intro x y p q hx hy hs ht
      obtain ⟨hadd, -⟩ := rounds_of_exactValue? hx hy
      exact ⟨_, rfl, .of_rounds hadd (hs.add ht) hf⟩
  | sub =>
    cases hop
    refine onScalars_of_computed (hv.lift hw ?_ ?_)
    · intro m n hm hn hs ht
      exact ⟨_, rfl, .of_integer (by rw [Int.cast_sub, hm, hn]; rfl) (hs.sub ht).error_nonneg hf⟩
    · intro x y p q hx hy hs ht
      obtain ⟨-, hsub, -⟩ := rounds_of_exactValue? hx hy
      exact ⟨_, rfl, .of_rounds hsub (hs.sub ht) hf⟩
  | mul =>
    cases hop
    refine onScalars_of_computed (hv.lift hw ?_ ?_)
    · intro m n hm hn hs ht
      exact ⟨_, rfl, .of_integer (by rw [Int.cast_mul, hm, hn]; rfl) (hs.mul ht).error_nonneg hf⟩
    · intro x y p q hx hy hs ht
      obtain ⟨-, -, hmul, -⟩ := rounds_of_exactValue? hx hy
      exact ⟨_, rfl, .of_rounds hmul (hs.mul ht) hf⟩
  | div =>
    cases hop
    dsimp only at hf
    split at hf
    · rename_i h0
      refine onScalars_of_computed (hv.lift hw ?_ ?_)
      · intro m n hm hn hs ht
        exact computed_divIntegers hs ht hm hn h0 hf
      · intro x y p q hx hy hs ht
        have hq : q ≠ 0 := ht.ne_zero h0
        obtain ⟨-, -, -, hdiv⟩ := rounds_of_exactValue? hx hy
        exact ⟨_, if_neg (ne_zero_of_exactValue? hy hq), .of_rounds (hdiv hq) (hs.div ht h0) hf⟩
    · cases hf
  | _ => cases hop

/-- An evaluated value that counts as it is. -/
lemma computed_of_ofValue? {r : Except EvalError Value} (h : ofValue? r = some t) :
    ∃ v, r = .ok (.scalar v) ∧ Computed v t := by
  unfold ofValue? at h
  split at h
  · exact ⟨_, rfl, .of_integer rfl le_rfl h⟩
  · obtain ⟨q, hq, rfl⟩ := Option.map_eq_some_iff.1 h
    exact ⟨_, rfl, .real hq ⟨by simp⟩⟩
  · cases h

/-- The opposite of a number that was computed. -/
lemma Computed.neg (h : Computed v t) : Computed v.neg t.neg := by
  cases h with
  | @integer n t hvalue hsize herror =>
    refine .integer ?_ ?_ ?_
    · rw [Int.cast_neg, hvalue]
      rfl
    · rwa [Estimate.neg, abs_neg]
    · rwa [Estimate.neg, abs_neg]
  | @real x q t hx h => exact .real (exactValue?_neg hx) h.neg

end Estimate

namespace Expression

variable {scope : Scope} {e : Expression} {t : Estimate}

/-- An expression that is estimated is evaluated to a number with this estimate. -/
theorem computed_of_estimate (h : e.estimate? scope = some t) :
    ∃ v, e.eval scope = .ok (.scalar v) ∧ Estimate.Computed v t := by
  fun_induction estimate? scope e generalizing t with
  | case1 e ih =>
    obtain ⟨v, hv, hcomputed⟩ := ih h
    exact ⟨v, by simp [eval, hv, bind, Except.bind, Value.unary, Value.scalar?, Value.ofScalar],
      hcomputed⟩
  | case2 e ih =>
    obtain ⟨t, ht, rfl⟩ := Option.map_eq_some_iff.1 h
    obtain ⟨v, hv, hcomputed⟩ := ih ht
    exact ⟨v.neg, by simp [eval, hv, bind, Except.bind, Value.unary, Value.scalar?, Value.ofScalar],
      hcomputed.neg⟩
  | case3 op a b f hop iha ihb =>
    obtain ⟨s, hs, h⟩ := Option.bind_eq_some_iff.1 h
    obtain ⟨t, ht, h⟩ := Option.bind_eq_some_iff.1 h
    obtain ⟨v, hv, hv'⟩ := iha hs
    obtain ⟨w, hw, hw'⟩ := ihb ht
    obtain ⟨r, hr, hr'⟩ := Estimate.computed_operation hop hv' hw' h
    refine ⟨r, ?_, hr'⟩
    rw [eval_operation (Estimate.isArithmetic_of_operation? hop), hv, hw]
    exact hr
  | case4 op a b hop => exact Estimate.computed_of_ofValue? h
  | case5 e => exact Estimate.computed_of_ofValue? h

/-- An estimate holds of the double that an expression evaluates to. -/
theorem value_of_estimate (h : e.estimate? scope = some t) :
    ∃ y q, e.value scope = .ok y ∧ exactValue? y = some q ∧ t.Holds q := by
  obtain ⟨v, hv, hcomputed⟩ := computed_of_estimate h
  obtain ⟨y, q, hy, hcomplex, hq, hholds⟩ := hcomputed.toFloat
  refine ⟨y, q, ?_, hq, hholds⟩
  cases hcomputed <;> simp_all [value, Value.toFloat, Value.scalar?]

end Expression

namespace Numeric.Residual

/-- The estimate of a residual at a point. -/
def estimateAt? (r : Residual) (x : Float) : Option Estimate :=
  r.expression.estimate? ((r.unknown, x) :: r.scope)

/-- An estimate holds of the value of a residual. -/
theorem valueAt_of_estimate {r : Residual} {x : Float} {t : Estimate}
    (h : r.estimateAt? x = some t) :
    ∃ y q, r.valueAt x = .ok y ∧ exactValue? y = some q ∧ t.Holds q :=
  Expression.value_of_estimate h

end Numeric.Residual
end Formulary
