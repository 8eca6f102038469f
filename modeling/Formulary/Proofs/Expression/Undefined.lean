import Formulary.Expression.Eval
import Formulary.Proofs.Number.Extended
import Formulary.Proofs.Sequence

/-!
# Operations without a result

Dividing by zero has no result, whatever numbers are divided (`Scalar.lift_zero`). An integer beyond
all doubles cannot be combined with another kind of number (`Scalar.lift_tooLarge`). A function has
no result outside of its domain, nor where it is out of range (`Function.apply_undefined`), and zero
and what is less have no logarithm (`Function.apply_logarithm`).
-/

namespace Formulary

open Formulary.Number

namespace BinaryOp

/-- Whether an operator is one of arithmetic. -/
def isArithmetic : BinaryOp → Bool
  | .add | .sub | .mul | .div | .floorDiv | .mod | .pow => true
  | _ => false

/-- Whether an operator divides by its right operand. -/
def divides : BinaryOp → Bool
  | .div | .floorDiv | .mod => true
  | _ => false

/-- Operators that divide are operations of arithmetic. -/
lemma isArithmetic_of_divides {op : BinaryOp} (h : op.divides) : op.isArithmetic := by
  cases op with
  | div | floorDiv | mod => rfl
  | _ => cases h

end BinaryOp

/-! ### Zero divisors -/

namespace Scalar

variable {s t : Scalar} {onIntegers : Int → Int → Except Undefined Scalar}
  {onReals : Float → Float → Except Undefined Scalar}
  {onComplex : Float × Float → Float × Float → Except Undefined Scalar}

/-- Doubles that are not true are zeros. -/
lemma beq_zero_of_bne {x : Float} (h : (x != 0) = false) : (x == 0.0) = true := by
  have hx : (x == 0) = true := by simpa [bne] using h
  exact hx

/-- A zero that is not complex is a zero of doubles. -/
lemma toFloat_of_zero (ht : t.isTrue = false) (hc : t.isComplex = false) :
    ∃ y, t.toFloat = .ok y ∧ (y == 0.0) = true := by
  cases t with
  | integer n =>
    obtain rfl : n = 0 := by simpa [isTrue] using ht
    exact ⟨0.0, by decide +kernel, by decide +kernel⟩
  | real x => exact ⟨x, rfl, beq_zero_of_bne ht⟩
  | complex re im => cases hc

/-- The parts of a zero are zeros. -/
lemma toComplex_of_zero (ht : t.isTrue = false) :
    ∃ c d, t.toComplex = .ok (c, d) ∧ (c == 0.0) = true ∧ (d == 0.0) = true := by
  cases hc : t.isComplex with
  | false =>
    obtain ⟨y, hy, hzero⟩ := toFloat_of_zero ht hc
    refine ⟨y, 0.0, ?_, hzero, by decide +kernel⟩
    cases t with
    | complex re im => cases hc
    | integer n | real x => simp [toComplex, hy]
  | true =>
    cases t with
    | integer n | real x => cases hc
    | complex re im =>
      rw [isTrue, Bool.or_eq_false_iff] at ht
      exact ⟨re, im, rfl, beq_zero_of_bne ht.1, beq_zero_of_bne ht.2⟩

/-- An operation that has no result for a right operand of zero on each kind of numbers has none. -/
lemma lift_zero (ht : t.isTrue = false) (hi : ∀ m, ∃ u, onIntegers m 0 = .error u)
    (hr : ∀ x y, (y == 0.0) = true → ∃ u, onReals x y = .error u)
    (hc : ∀ p c d, (c == 0.0) = true → (d == 0.0) = true → ∃ u, onComplex p (c, d) = .error u) :
    ∃ u, lift onIntegers onReals onComplex s t = .error u := by
  unfold lift
  split
  · rename_i m n
    obtain rfl : n = 0 := by simpa [isTrue] using ht
    exact hi m
  · split
    · obtain ⟨c, d, hcd, hzc, hzd⟩ := toComplex_of_zero ht
      exact bind_bind_error (.inr ⟨_, hcd, fun p => hc p c d hzc hzd⟩)
    · rename_i hcomplex
      rw [Bool.or_eq_true, not_or, Bool.not_eq_true, Bool.not_eq_true] at hcomplex
      obtain ⟨y, hy, hzero⟩ := toFloat_of_zero ht hcomplex.2
      exact bind_bind_error (.inr ⟨y, hy, fun x => hr x y hzero⟩)

/-- A quotient by zero is undefined. -/
lemma div_zero (ht : t.isTrue = false) : ∃ u, div s t = .error u := by
  refine lift_zero ht (fun m => ⟨_, rfl⟩) (fun x y hy => ⟨_, if_pos hy⟩) fun p c d hc hd => ?_
  refine ⟨.divisionByZero, ?_⟩
  have hparts : divParts p (c, d) = .error .divisionByZero := by
    simp only [divParts, abs_of_beq_zero hc, abs_of_beq_zero hd]
    rfl
  simp [hparts, bind, Except.bind]

/-- A floored quotient by zero is undefined. -/
lemma floorDiv_zero (ht : t.isTrue = false) : ∃ u, floorDiv s t = .error u :=
  lift_zero ht (fun _ => ⟨_, rfl⟩) (fun _ _ hy => ⟨_, if_pos hy⟩) fun _ _ _ _ _ => ⟨_, rfl⟩

/-- A remainder by zero is undefined. -/
lemma mod_zero (ht : t.isTrue = false) : ∃ u, mod s t = .error u :=
  lift_zero ht (fun _ => ⟨_, rfl⟩) (fun _ _ hy => ⟨_, if_pos hy⟩) fun _ _ _ _ _ => ⟨_, rfl⟩

/-! ### Arguments outside of the domain or the range -/

/-- Whether a number is an integer. -/
def isInteger : Scalar → Bool
  | .integer _ => true
  | _ => false

/-- Whether a number is real, and zero or less. -/
def isNonPositive : Scalar → Bool
  | .integer n => n ≤ 0
  | .real x => x ≤ 0.0
  | .complex _ _ => false

/-- An integer that is too large for a double has no complex number either. -/
lemma toComplex_tooLarge (h : s.toFloat = .error .overflow) : s.toComplex = .error .overflow := by
  cases s with
  | integer n => simp [toComplex, h, bind, Except.bind]
  | real x | complex re im => cases h

/-- An integer that is too large for a double cannot be combined with another kind of number. -/
lemma lift_tooLarge (h : s.toFloat = .error .overflow ∧ t.isInteger = false ∨
      s.isInteger = false ∧ t.toFloat = .error .overflow) :
    ∃ u, lift onIntegers onReals onComplex s t = .error u := by
  unfold lift
  split
  · simp [isInteger] at h
  · obtain ⟨hs, -⟩ | ⟨-, ht⟩ := h
    · rw [hs, toComplex_tooLarge hs]
      split <;> exact ⟨_, rfl⟩
    · rw [ht, toComplex_tooLarge ht]
      split <;> exact bind_bind_error (.inl ⟨_, rfl⟩)

/-- A logarithm of what is not positive is undefined. -/
lemma logScalar_nonPositive (hs : s.isNonPositive) : logScalar s = .error .domain := by
  cases s with
  | integer n =>
    have hn : n ≤ 0 := by simpa [isNonPositive] using hs
    exact if_pos hn
  | real x =>
    have hle : x ≤ 0.0 := by simpa [isNonPositive] using hs
    have hx : ¬ x.isNaN := not_isNaN_of_le hle
    have hzero : ¬ (0.0 : Float).isNaN := by decide +kernel
    have hnot : ¬ x > 0.0 := by
      rw [gt_iff_lt, lt_iff_toEReal hzero hx, not_lt, ← le_iff_toEReal hx hzero]
      exact hle
    show logFloat x = _
    rw [logFloat, if_neg hx]
    exact if_neg hnot
  | complex re im => cases hs

end Scalar

namespace Formula.Function

/-- The function of doubles that a function is, if it is no more than that. -/
def onDoubles? : Function → Option (Float → Float)
  | .sin => some Float.sin
  | .cos => some Float.cos
  | .tan => some Float.tan
  | .asin => some Float.asin
  | .acos => some Float.acos
  | .atan => some Float.atan
  | .sqrt => some Float.sqrt
  | .exp => some Float.exp
  | _ => none

/-- A function on doubles is applied to the double that its argument is. -/
lemma apply_onDoubles {g : Function} {r : Float → Float} (hg : g.onDoubles? = some r) (s : Scalar) :
    g.apply [s] = (do return .real (← realFunction r (← s.toFloat))) := by
  cases g with
  | sin | cos | tan | asin | acos | atan | sqrt | exp =>
    cases hg
    rfl
  | _ => cases hg

/-- A function of doubles is undefined outside of its domain, and where it is out of range. -/
lemma apply_undefined {g : Function} {r : Float → Float} {s : Scalar} {x : Float}
    (hg : g.onDoubles? = some r) (hx : s.toFloat = .ok x)
    (h : (r x).isNaN ∧ ¬ x.isNaN ∨ (r x).isInf ∧ x.isFinite) : ∃ u, g.apply [s] = .error u := by
  have hr : ∃ u, realFunction r x = .error u := by
    simp only [realFunction]
    split
    · exact ⟨_, rfl⟩
    · rename_i hdomain
      refine ⟨.overflow, if_pos ?_⟩
      rw [Bool.and_eq_true] at hdomain ⊢
      exact h.resolve_left fun ⟨hr, hx⟩ => hdomain ⟨hr, by simpa using hx⟩
  obtain ⟨u, hu⟩ := hr
  exact ⟨u, by simp [apply_onDoubles hg, hx, hu, bind, Except.bind]⟩

/-- Zero and what is less have no logarithm. -/
lemma apply_logarithm {g : Function} {s : Scalar} (hg : g = .log ∨ g = .ln)
    (hs : s.isNonPositive) : ∃ u, g.apply [s] = .error u := by
  refine ⟨.domain, ?_⟩
  obtain rfl | rfl := hg <;>
    simp [apply, Scalar.logScalar_nonPositive hs, bind, Except.bind]

end Formula.Function

namespace Value

variable {f : Scalar → Scalar → Except Undefined Scalar} {v w : Value}

/-- What counts as false is zero if it is a number. -/
lemma isTrue_scalar? {t : Scalar} (hw : w.isTrue = false) (ht : w.scalar? = some t) :
    t.isTrue = false := by
  cases w with
  | scalar s =>
    cases ht
    exact hw
  | truth b =>
    cases ht
    cases hw
    rfl
  | _ => cases ht

/-- An undefined result is an undefined value. -/
lemma ofScalar_undefined {r : Except Undefined Scalar} (h : ∃ u, r = .error u) :
    ∃ u, ofScalar r = .error (.undefined u) := by
  obtain ⟨u, rfl⟩ := h
  exact ⟨u, rfl⟩

/-- An operation that is undefined at zero is undefined at a value that is zero. -/
lemma onScalars_zero (hf : ∀ s t, t.isTrue = false → ∃ u, f s t = .error u)
    (hw : w.isTrue = false) : ∃ u, onScalars f v w = .error (.undefined u) := by
  unfold onScalars
  split
  · rename_i s t _ ht
    exact ofScalar_undefined (hf s t (isTrue_scalar? hw ht))
  · exact ⟨_, rfl⟩

/-- Nothing can be divided by what counts as false. -/
lemma binary_zero {op : BinaryOp} (hop : op.divides) (hw : w.isTrue = false) :
    ∃ u, binary op v w = .error (.undefined u) := by
  cases op with
  | div => exact onScalars_zero (fun _ _ => Scalar.div_zero) hw
  | floorDiv => exact onScalars_zero (fun _ _ => Scalar.floorDiv_zero) hw
  | mod => exact onScalars_zero (fun _ _ => Scalar.mod_zero) hw
  | _ => cases hop

/-- No operation of arithmetic takes an integer that is too large for a double, and a double. -/
lemma binary_tooLarge {op : BinaryOp} {s t : Scalar} (hop : op.isArithmetic)
    (h : s.toFloat = .error .overflow ∧ t.isInteger = false ∨
      s.isInteger = false ∧ t.toFloat = .error .overflow) :
    ∃ u, binary op (.scalar s) (.scalar t) = .error (.undefined u) := by
  cases op with
  | add | sub | mul | div | floorDiv | mod | pow =>
    exact ofScalar_undefined (Scalar.lift_tooLarge h)
  | _ => cases hop

/-- A call is undefined where the function is. -/
lemma call_undefined {g : Formula.Function} {s : Scalar} (h : ∃ u, g.apply [s] = .error u) :
    ∃ u, call (.function g) [.scalar s] = .error (.undefined u) := ofScalar_undefined h

end Value
end Formulary
