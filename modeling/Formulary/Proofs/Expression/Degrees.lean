import Mathlib
import Formulary.Expression.Basic

/-!
# Angles in expressions

`Expression.inDegrees` multiplies the arguments of all trigonometric calls by `pi / 180`. An
expression in which some of them are multiplied is compared with it by counting: `Scaled c m e e'`
says that at least `c` arguments of `e` are multiplied in `e'` and at least `m` are not.
-/

namespace Formulary.Expression

open Formulary.Formula

/-- An angle in degrees, as the angle that it is. -/
def ofDegrees (e : Expression) : Expression :=
  .binary .div (.binary .mul e (.name "pi")) (.integer 180)

/-- Whether an expression is the name of a trigonometric function. -/
def isTrigonometric : Expression → Bool
  | .name s => Function.trigonometric.any (·.name == s)
  | _ => false

mutual

/-- An expression with the arguments of all trigonometric calls converted from degrees. -/
def inDegrees : Expression → Expression
  | .unary op e => .unary op e.inDegrees
  | .binary op a b => .binary op a.inDegrees b.inDegrees
  | .conditional c a b => .conditional c.inDegrees a.inDegrees b.inDegrees
  | .call f args =>
    .call f.inDegrees
      (if f.isTrigonometric then (allInDegrees args).map ofDegrees else allInDegrees args)
  | .part e s => .part e.inDegrees s
  | .index e i => .index e.inDegrees i.inDegrees
  | .tuple es => .tuple (allInDegrees es)
  | .list es => .list (allInDegrees es)
  | e => e

/-- Expressions with the arguments of all trigonometric calls converted from degrees. -/
def allInDegrees : List Expression → List Expression
  | [] => []
  | e :: es => e.inDegrees :: allInDegrees es

end

mutual

/-- How many arguments trigonometric calls have in an expression. -/
def angles : Expression → Nat
  | .unary _ e => e.angles
  | .binary _ a b => a.angles + b.angles
  | .conditional c a b => c.angles + a.angles + b.angles
  | .call f args => f.angles + allAngles args + if f.isTrigonometric then args.length else 0
  | .part e _ => e.angles
  | .index e i => e.angles + i.angles
  | .tuple es => allAngles es
  | .list es => allAngles es
  | _ => 0

/-- How many arguments trigonometric calls have in several expressions. -/
def allAngles : List Expression → Nat
  | [] => 0
  | e :: es => e.angles + allAngles es

end

/--
An expression with the arguments of some of its trigonometric calls multiplied: at least `c` are,
and at least `m` are not.
-/
structure Scaled (c m : Nat) (e e' : Expression) : Prop where
  bound : c + m ≤ e.angles
  all : c = e.angles → e' = e.inDegrees
  some : sizeOf e' + m ≤ sizeOf e.inDegrees

/-- Several expressions with the arguments of some of their trigonometric calls multiplied. -/
structure AllScaled (c m : Nat) (es es' : List Expression) : Prop where
  length : es'.length = es.length
  bound : c + m ≤ allAngles es
  all : c = allAngles es → es' = allInDegrees es
  some : sizeOf es' + m ≤ sizeOf (allInDegrees es)

variable {c c₁ c₂ c₃ m m₁ m₂ m₃ : Nat} {a a' b b' e e' f f' : Expression} {es es' : List Expression}

/-- If every argument is multiplied, none is left out. -/
lemma Scaled.eq_inDegrees_iff (h : Scaled c m e e') (hcount : e.angles = c + m) :
    e' = e.inDegrees ↔ m = 0 := by
  constructor
  · rintro rfl
    have := h.some
    omega
  · rintro rfl
    exact h.all hcount.symm

/-- Converting expressions leaves as many of them. -/
lemma length_allInDegrees (es : List Expression) : (allInDegrees es).length = es.length := by
  induction es with
  | nil => rfl
  | cons e es ih => simp [allInDegrees, ih]

/-- Expressions taken in degrees are larger, by at least one each. -/
lemma sizeOf_map_ofDegrees (es : List Expression) :
    sizeOf es + es.length ≤ sizeOf (es.map ofDegrees) := by
  induction es with
  | nil => exact Nat.le_refl _
  | cons e es ih =>
    simp only [List.map_cons, List.length_cons, List.cons.sizeOf_spec, ofDegrees,
      binary.sizeOf_spec]
    omega

/-- An expression without parts. -/
lemma Scaled.leaf (h : e.inDegrees = e) : Scaled 0 0 e e where
  bound := Nat.zero_le _
  all _ := h.symm
  some := by rw [h]; exact Nat.le_refl _

/-- A unary operation is scaled as its operand is. -/
lemma Scaled.unary {op : UnaryOp} (h : Scaled c m e e') : Scaled c m (.unary op e) (.unary op e') where
  bound := h.bound
  all hc := by rw [inDegrees, h.all hc]
  some := by
    have := h.some
    simp only [inDegrees, unary.sizeOf_spec]
    omega

/-- A binary operation is scaled as its operands are. -/
lemma Scaled.binary {op : BinaryOp} (ha : Scaled c₁ m₁ a a') (hb : Scaled c₂ m₂ b b') :
    Scaled (c₁ + c₂) (m₁ + m₂) (.binary op a b) (.binary op a' b') := by
  have h₁ := ha.bound
  have h₂ := hb.bound
  refine ⟨?_, fun hc => ?_, ?_⟩
  · simp only [angles]
    omega
  · simp only [angles] at hc
    rw [inDegrees, ha.all (by omega), hb.all (by omega)]
  · have := ha.some
    have := hb.some
    simp only [inDegrees, binary.sizeOf_spec]
    omega

/-- A conditional is scaled as its parts are. -/
lemma Scaled.conditional (h : Scaled c₁ m₁ e e') (ha : Scaled c₂ m₂ a a') (hb : Scaled c₃ m₃ b b') :
    Scaled (c₁ + c₂ + c₃) (m₁ + m₂ + m₃) (.conditional e a b) (.conditional e' a' b') := by
  have h₁ := h.bound
  have h₂ := ha.bound
  have h₃ := hb.bound
  refine ⟨?_, fun hc => ?_, ?_⟩
  · simp only [angles]
    omega
  · simp only [angles] at hc
    rw [inDegrees, h.all (by omega), ha.all (by omega), hb.all (by omega)]
  · have := h.some
    have := ha.some
    have := hb.some
    simp only [inDegrees, conditional.sizeOf_spec]
    omega

/-- No expressions are scaled by nothing. -/
lemma AllScaled.nil : AllScaled 0 0 [] [] := ⟨rfl, Nat.zero_le _, fun _ => rfl, Nat.le_refl _⟩

/-- Expressions are scaled one after the other. -/
lemma AllScaled.cons (h : Scaled c₁ m₁ e e') (hs : AllScaled c₂ m₂ es es') :
    AllScaled (c₁ + c₂) (m₁ + m₂) (e :: es) (e' :: es') := by
  have h₁ := h.bound
  have h₂ := hs.bound
  refine ⟨by simp [hs.length], ?_, fun hc => ?_, ?_⟩
  · simp only [allAngles]
    omega
  · simp only [allAngles] at hc
    rw [allInDegrees, h.all (by omega), hs.all (by omega)]
  · have := h.some
    have := hs.some
    simp only [allInDegrees, List.cons.sizeOf_spec]
    omega

/-- A tuple is scaled as its elements are. -/
lemma Scaled.tuple (h : AllScaled c m es es') : Scaled c m (.tuple es) (.tuple es') where
  bound := h.bound
  all hc := by rw [inDegrees, h.all hc]
  some := by
    have := h.some
    simp only [inDegrees, tuple.sizeOf_spec]
    omega

/-- A call whose arguments are taken as they are. -/
lemma Scaled.call (hf : Scaled c₁ m₁ f f') (hs : AllScaled c₂ m₂ es es') :
    Scaled (c₁ + c₂) (m₁ + m₂) (.call f es) (.call f' es') := by
  have h₁ := hf.bound
  have h₂ := hs.bound
  have h₃ := hf.some
  have h₄ := hs.some
  refine ⟨?_, fun hc => ?_, ?_⟩
  · simp only [angles]
    omega
  · simp only [angles] at hc
    rw [inDegrees, hf.all (by omega), hs.all (by omega)]
    split at hc
    · have hlength := length_allInDegrees es
      obtain hnil : es = [] := List.eq_nil_of_length_eq_zero (by omega)
      rw [hnil]
      simp [allInDegrees]
    · simp [*]
  · simp only [inDegrees, call.sizeOf_spec]
    have := sizeOf_map_ofDegrees (allInDegrees es)
    split <;> omega

/-- A trigonometric call whose arguments are left out. -/
lemma Scaled.call_left (hf : (Expression.name s).isTrigonometric) (hne : es ≠ [])
    (hs : AllScaled c m es es') : Scaled c (m + 1) (.call (.name s) es) (.call (.name s) es') := by
  have h₂ := hs.bound
  have h₄ := hs.some
  have hpos : 0 < es.length := List.length_pos_iff.2 hne
  refine ⟨?_, fun hc => ?_, ?_⟩
  · simp only [angles, hf, if_true]
    omega
  · simp only [angles, hf, if_true] at hc
    omega
  · simp only [inDegrees, hf, if_true, call.sizeOf_spec]
    have := sizeOf_map_ofDegrees (allInDegrees es)
    have := length_allInDegrees es
    omega

/-- A trigonometric call whose argument is multiplied. -/
lemma Scaled.call_ofDegrees (hf : (Expression.name s).isTrigonometric) (h : Scaled c m e e') :
    Scaled (c + 1) m (.call (.name s) [e]) (.call (.name s) [e'.ofDegrees]) := by
  have h₁ := h.bound
  have h₂ := h.some
  refine ⟨?_, fun hc => ?_, ?_⟩
  · simp only [angles, allAngles, hf, if_true, List.length_singleton]
    omega
  · simp only [angles, allAngles, hf, if_true, List.length_singleton] at hc
    rw [inDegrees, if_pos hf, h.all (by omega)]
    rfl
  · simp only [inDegrees, allInDegrees, hf, if_true, call.sizeOf_spec, List.map_cons, List.map_nil,
      List.cons.sizeOf_spec, ofDegrees, binary.sizeOf_spec]
    omega

/-- The comparisons of a chain with some of their trigonometric calls multiplied. -/
inductive ChainScaled : Nat → Nat → List (BinaryOp × Expression) → List (BinaryOp × Expression) →
    Prop where
  | nil : ChainScaled 0 0 [] []
  | cons {c₁ m₁ c₂ m₂ op e e' chain chain'} :
    Scaled c₁ m₁ e e' →
    ChainScaled c₂ m₂ chain chain' →
    ChainScaled (c₁ + c₂) (m₁ + m₂) ((op, e) :: chain) ((op, e') :: chain')

/-- The counts of an expression can be forgotten. -/
lemma Scaled.forget (h : Scaled c m e e') : Scaled 0 0 e e' := by
  have h₁ := h.bound
  have h₂ := h.some
  exact ⟨Nat.zero_le _, fun hc => h.all (by omega), by omega⟩

/-- The inner operands of a chain stand in it twice, but count once. -/
lemma Scaled.comparisonChain {chain chain' : List (BinaryOp × Expression)} (h : Scaled c₁ m₁ e e')
    (hs : ChainScaled c₂ m₂ chain chain') :
    Scaled (c₁ + c₂) (m₁ + m₂) (e.comparisonChain chain) (e'.comparisonChain chain') := by
  induction hs generalizing c₁ m₁ e e' with
  | nil => exact h
  | @cons c₂ m₂ c₃ m₃ op b b' chain chain' hb hs ih =>
    cases hs with
    | nil => exact h.binary hb
    | cons hd hs =>
      have hfirst : Scaled _ _ (.binary op e b) (.binary op e' b') := h.binary hb.forget
      have hall : Scaled _ _ (.binary .and _ _) (.binary .and _ _) := hfirst.binary (ih hb)
      rw [Nat.add_zero, Nat.add_zero] at hall
      exact hall

end Formulary.Expression
